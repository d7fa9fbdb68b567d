import PageCheck.FileTree.Open
import PageCheck.Proofs.FileTree.Parents

/-! # Paths of places

A place is a list of names. Its path has a slash in front of every name, so that it falls into the
same names again: as segments, as parts, and as steps of a look-up. The path that leads from a place
to one below it, joined to the path of the upper place, is the path of the lower one.
-/

namespace PageCheck.Path

/-- A text that names an entry of a directory. -/
structure IsName (name : String) : Prop where
  filled : name ≠ ""
  not_here : name ≠ "."
  not_up : name ≠ ".."
  uncut : '/' ∉ name.toList

def AreNames (names : List String) : Prop :=
  ∀ name ∈ names, IsName name

/-- A step that a path can hold. -/
structure IsStep (step : String) : Prop where
  filled : step ≠ ""
  uncut : '/' ∉ step.toList

variable {name path upper lower : String} {names place rest : List String}

theorem areNames_nil : AreNames [] :=
  List.forall_mem_nil IsName

theorem areNames_cons_iff : AreNames (name :: names) ↔ IsName name ∧ AreNames names :=
  List.forall_mem_cons

theorem areNames_append_iff : AreNames (names ++ rest) ↔ AreNames names ∧ AreNames rest :=
  List.forall_mem_append

theorem AreNames.uncut (proper : AreNames names) : Uncut names :=
  fun name member => (proper name member).uncut

theorem AreNames.not_mem_empty (proper : AreNames names) : "" ∉ names :=
  fun member => (proper "" member).filled rfl

theorem segments_ne_nil (path : String) : segments path ≠ [] :=
  Text.separate_ne_nil '/' path

theorem intercalate_segments (path : String) : String.intercalate "/" (segments path) = path :=
  Text.intercalate_separate '/' path

theorem segments_append_slash (upper lower : String) :
    segments (upper ++ "/" ++ lower) = segments upper ++ segments lower :=
  Text.separate_append '/' upper lower

theorem segments_empty : segments "" = [""] := by decide

theorem segments_slash_append (lower : String) :
    segments ("/" ++ lower) = "" :: segments lower := by
  have split := segments_append_slash "" lower
  rw [segments_empty, String.empty_append] at split
  exact split

theorem segments_append_slash_end (upper : String) :
    segments (upper ++ "/") = segments upper ++ [""] := by
  have split := segments_append_slash upper ""
  rw [segments_empty, String.append_empty] at split
  exact split

theorem segments_name (proper : IsName name) : segments name = [name] :=
  Text.separate_of_not_mem proper.uncut

theorem segments_ofNames (proper : AreNames names) (filled : names ≠ []) :
    segments (ofNames names) = "" :: names := by
  rw [ofNames, segments_slash_append, segments_intercalate proper.uncut filled]

theorem isAbsolute_iff : isAbsolute path = true ↔ ∃ lower, path = "/" ++ lower := by
  simp only [isAbsolute, decide_eq_true_eq, List.head?_eq_some_iff]
  constructor
  · rintro ⟨rest, own⟩
    exact ⟨String.ofList rest, String.toList_inj.mp (by simpa using own)⟩
  · rintro ⟨lower, rfl⟩
    exact ⟨lower.toList, by simp⟩

theorem getLast?_eq_slash_iff :
    path.toList.getLast? = some '/' ↔ ∃ upper, path = upper ++ "/" := by
  rw [List.getLast?_eq_some_iff]
  constructor
  · rintro ⟨rest, own⟩
    exact ⟨String.ofList rest, String.toList_inj.mp (by simpa using own)⟩
  · rintro ⟨upper, rfl⟩
    exact ⟨upper.toList, by simp⟩

theorem isAbsolute_eq_false (proper : "" ∉ segments path) : isAbsolute path = false := by
  by_contra absolute
  obtain ⟨lower, rfl⟩ := isAbsolute_iff.mp (by simpa using absolute)
  exact proper (by simp [segments_slash_append])

theorem isAbsolute_append (filled : upper ≠ "") :
    isAbsolute (upper ++ lower) = isAbsolute upper := by
  have characters : upper.toList ≠ [] := by simpa using filled
  simp [isAbsolute, List.head?_append_of_ne_nil _ characters]

theorem getLast?_ne_slash (proper : (segments path).getLast? ≠ some "") :
    path.toList.getLast? ≠ some '/' := by
  intro ends
  obtain ⟨upper, rfl⟩ := getLast?_eq_slash_iff.mp ends
  exact proper (by simp [segments_append_slash_end])

theorem isAbsolute_ofNames (names : List String) : isAbsolute (ofNames names) = true :=
  isAbsolute_iff.mpr ⟨_, rfl⟩

theorem isAbsolute_intercalate (proper : AreNames names) (filled : names ≠ []) :
    isAbsolute (String.intercalate "/" names) = false := by
  apply isAbsolute_eq_false
  rw [segments_intercalate proper.uncut filled]
  exact proper.not_mem_empty

theorem getLast?_ofNames_ne_slash (proper : AreNames names) (filled : names ≠ []) :
    (ofNames names).toList.getLast? ≠ some '/' := by
  apply getLast?_ne_slash
  rw [segments_ofNames proper filled, List.getLast?_cons_of_ne_nil filled]
  intro ends
  exact proper.not_mem_empty (List.mem_of_getLast? ends)

theorem steps_ofNames (proper : AreNames names) (filled : names ≠ []) :
    steps (ofNames names) = names := by
  have kept : names.filter (· ≠ "") = names := by
    rw [List.filter_eq_self]
    intro name member
    simpa using (proper name member).filled
  rw [steps, segments_ofNames proper filled, if_neg (getLast?_ofNames_ne_slash proper filled)]
  simpa using kept

/-- Every path but the empty one takes at least one step. -/
theorem steps_ne_nil (filled : path ≠ "") : steps path ≠ [] := by
  intro none_left
  rw [steps, List.append_eq_nil_iff, List.filter_eq_nil_iff] at none_left
  obtain ⟨idle, open_end⟩ := none_left
  have empty : ∀ segment ∈ segments path, segment = "" := by
    intro segment member
    simpa using idle segment member
  have final := List.dropLast_append_getLast (segments_ne_nil path)
  rw [empty _ (List.getLast_mem (segments_ne_nil path))] at final
  by_cases single : (segments path).dropLast = []
  · apply filled
    rw [← intercalate_segments path, ← final, single]
    rfl
  · have ends : path.toList.getLast? = some '/' := by
      rw [getLast?_eq_slash_iff]
      refine ⟨String.intercalate "/" (segments path).dropLast, ?_⟩
      have joined := intercalate_segments path
      rw [← final, String.intercalate_append_of_ne_nil single (by simp)] at joined
      simpa using joined.symm
    rw [if_pos ends] at open_end
    cases open_end

theorem isStep_of_mem_steps {step : String} (member : step ∈ steps path) : IsStep step := by
  rcases List.mem_append.mp member with inside | final
  · rw [List.mem_filter] at inside
    exact ⟨by simpa using inside.2, uncut_segments path step inside.1⟩
  · split at final
    · rw [List.mem_singleton.mp final]
      exact ⟨by decide, by decide⟩
    · simp at final

theorem IsName.partOf_eq (proper : IsName name) : partOf name = .name name := by
  rw [partOf, if_neg proper.not_up, if_neg proper.not_here]

theorem IsName.isIdle_eq (proper : IsName name) : isIdle name = false := by
  simp [isIdle, proper.filled, proper.not_here]

theorem AreNames.parts_eq (proper : AreNames names) :
    (names.filter (!isIdle ·)).map partOf = names.map .name := by
  have kept : names.filter (!isIdle ·) = names := by
    rw [List.filter_eq_self]
    intro name member
    simp [(proper name member).isIdle_eq]
  rw [kept]
  exact List.map_congr_left fun name member => (proper name member).partOf_eq

theorem parts_ofNames (proper : AreNames names) :
    parts (ofNames names) = .root :: names.map .name := by
  by_cases filled : names = []
  · subst filled
    decide
  · have absolute := isAbsolute_ofNames names
    simp only [parts, segments_ofNames proper filled, absolute, if_true, proper.parts_eq]
    rfl

theorem parts_intercalate (proper : AreNames names) (filled : names ≠ []) :
    parts (String.intercalate "/" names) = names.map .name := by
  have pieces := segments_intercalate proper.uncut filled
  have relative := isAbsolute_intercalate proper filled
  cases names with
  | nil => exact absurd rfl filled
  | cons first rest =>
      rw [areNames_cons_iff] at proper
      simp [parts, pieces, relative, proper.1.filled, proper.1.partOf_eq, proper.2.parts_eq]

theorem map_name_injective : Function.Injective (List.map Part.name) :=
  List.map_injective_iff.mpr fun _ _ => Part.name.inj

/-- One place is above another one exactly if its path is, component by component. -/
theorem parts_prefix_iff (proper : AreNames names) (other : AreNames rest) :
    parts (ofNames names) <+: parts (ofNames rest) ↔ names <+: rest := by
  rw [parts_ofNames proper, parts_ofNames other, List.cons_prefix_cons,
    List.prefix_map_iff_of_injective fun _ _ => Part.name.inj]
  simp

theorem ofNames_eq_of_parts_eq (proper : AreNames names) (other : AreNames rest)
    (same : parts (ofNames names) = parts (ofNames rest)) : names = rest := by
  rw [parts_ofNames proper, parts_ofNames other, List.cons.injEq] at same
  exact map_name_injective same.2

theorem root_or_segment_of_mem_parts {part : Part} (member : part ∈ parts path) :
    (part = .root ∧ isAbsolute path = true) ∨ ∃ segment, segment ≠ "" ∧ part = partOf segment := by
  unfold parts at member
  split at member
  · cases member
  · next first rest _ =>
      rcases List.mem_append.mp member with head | later
      · split at head
        · next absolute => exact .inl ⟨List.mem_singleton.mp head, absolute⟩
        · split at head
          · cases head
          · next filled => exact .inr ⟨first, filled, List.mem_singleton.mp head⟩
      · obtain ⟨segment, kept, rfl⟩ := List.mem_map.mp later
        refine .inr ⟨segment, ?_, rfl⟩
        rintro rfl
        simp [isIdle] at kept

theorem text_ne_empty_of_mem_parts {part : Part} (member : part ∈ parts path) :
    part.text ≠ "" := by
  rcases root_or_segment_of_mem_parts member with ⟨rfl, -⟩ | ⟨segment, filled, rfl⟩
  · decide
  · unfold partOf
    split
    · decide
    · split
      · decide
      · exact filled

theorem root_mem_parts_iff : Part.root ∈ parts path ↔ isAbsolute path = true := by
  constructor
  · intro member
    rcases root_or_segment_of_mem_parts member with ⟨-, absolute⟩ | ⟨segment, -, other⟩
    · exact absolute
    · unfold partOf at other
      split at other
      · cases other
      · split at other <;> cases other
  · intro absolute
    unfold parts
    split
    · next none_left => exact absurd none_left (segments_ne_nil path)
    · rw [if_pos absolute]
      exact List.mem_cons_self

theorem isAbsolute_eq_of_parts_eq (same : parts upper = parts lower) :
    isAbsolute upper = isAbsolute lower := by
  rw [Bool.eq_iff_iff, ← root_mem_parts_iff, ← root_mem_parts_iff, same]

theorem join_eq (relative : isAbsolute lower = false) (filled : upper ≠ "") :
    join upper lower =
      if upper.toList.getLast? = some '/' then upper ++ lower else upper ++ "/" ++ lower := by
  simp [join, relative, filled]

theorem IsName.join_eq (proper : IsName name) (filled : path ≠ "") :
    join path name =
      if path.toList.getLast? = some '/' then path ++ name else path ++ "/" ++ name := by
  apply Path.join_eq _ filled
  apply isAbsolute_eq_false
  rw [segments_name proper]
  simpa using proper.filled.symm

theorem IsName.exists_join_eq (proper : IsName name) (filled : path ≠ "") :
    ∃ rest, join path name = path ++ rest := by
  rw [proper.join_eq filled]
  split
  · exact ⟨name, rfl⟩
  · exact ⟨"/" ++ name, String.append_assoc⟩

/-- A name looked up below a path is one more step after those that do not stay in place. -/
theorem IsName.steps_join (proper : IsName name) (filled : path ≠ "") :
    steps (join path name) = (segments path).filter (· ≠ "") ++ [name] := by
  have pieces : ∃ upper, segments (join path name) = upper ++ [name] ∧
      upper.filter (· ≠ "") = (segments path).filter (· ≠ "") := by
    rw [proper.join_eq filled]
    split
    · next ends =>
        obtain ⟨upper, rfl⟩ := getLast?_eq_slash_iff.mp ends
        refine ⟨segments upper, ?_, ?_⟩
        · rw [segments_append_slash, segments_name proper]
        · simp [segments_append_slash_end]
    · exact ⟨segments path, by rw [segments_append_slash, segments_name proper], rfl⟩
  obtain ⟨upper, pieces, kept⟩ := pieces
  have open_end : (join path name).toList.getLast? ≠ some '/' := by
    apply getLast?_ne_slash
    rw [pieces]
    simpa using proper.filled
  rw [steps, pieces, if_neg open_end, List.append_nil, List.filter_append, kept]
  simp [proper.filled]

/-- The path to a place, followed along names, is the path to the place below. -/
theorem join_ofNames (proper : AreNames (place ++ names)) (filled : names ≠ []) :
    join (ofNames place) (String.intercalate "/" names) = ofNames (place ++ names) := by
  rw [areNames_append_iff] at proper
  have relative := isAbsolute_intercalate proper.2 filled
  have some_path : ofNames place ≠ "" := by simp [ofNames]
  rw [join_eq relative some_path]
  by_cases top : place = []
  · subst top
    rfl
  · rw [if_neg (getLast?_ofNames_ne_slash proper.1 top)]
    simp only [ofNames, String.intercalate_append_of_ne_nil top filled, String.append_assoc]

end PageCheck.Path
