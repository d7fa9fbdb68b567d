import PageCheck.Proofs.FileTree.Places

/-! # Where look-ups end

A look-up that follows links ends at a place where something other than a link stands, and every
text in this place is a name. Such a place is its own end: followed along its own path, it is
reached again, unless one of its names or the whole path is too long to be looked up. So taking the
canonical path of a path twice is no different from taking it once.
-/

namespace PageCheck

theorem Node.find?_append (node : Node) (upper lower : List String) :
    node.find? (upper ++ lower) = (node.find? upper).bind (·.find? lower) := by
  induction upper generalizing node with
  | nil => rfl
  | cons name rest ih =>
      simp only [List.cons_append, Node.find?]
      cases node.child? name with
      | none => rfl
      | some child => exact ih child

namespace FileTree

def HasDirectory (tree : FileTree) (place : List String) : Prop :=
  ∃ entries, tree.node? place = some (.directory entries)

/-- Something other than a link stands at the place. -/
def IsSettled (tree : FileTree) (place : List String) : Prop :=
  ∃ node, tree.node? place = some node ∧ ∀ target, node ≠ .link target

inductive Move where
  | onto (place : List String)
  | link (target : String)
  | fault (fault : Fault)

/-- A single step of a look-up that follows links. -/
def move (tree : FileTree) (place : List String) (step : String) : Move :=
  match tree.node? place with
  | some (.directory _) =>
    if step = "." then .onto place
    else if step = ".." then .onto place.dropLast
    else if 255 < step.utf8ByteSize then .fault .nameTooLong
    else match tree.node? (place ++ [step]) with
      | none => .fault .notFound
      | some (.link target) => .link target
      | some _ => .onto (place ++ [step])
  | _ => .fault .notDirectory

/-- Where a single step in a directory goes, if it meets no link. -/
inductive GoesOnto (tree : FileTree) (place : List String) (step : String) :
    List String → Prop where
  | stay (here : step = ".") : GoesOnto tree place step place
  | up (above : step = "..") : GoesOnto tree place step place.dropLast
  | down (not_here : step ≠ ".") (not_up : step ≠ "..")
      (settled : tree.IsSettled (place ++ [step])) : GoesOnto tree place step (place ++ [step])

variable {tree : FileTree} {place next last upper lower steps more : List String}
  {name step target path : String} {links : Nat}

theorem HasDirectory.isSettled (directory : tree.HasDirectory place) : tree.IsSettled place := by
  obtain ⟨entries, stands⟩ := directory
  exact ⟨_, stands, fun target => Node.noConfusion⟩

theorem hasDirectory_nil (tree : FileTree) : tree.HasDirectory [] :=
  ⟨tree.entries, rfl⟩

/-- Above whatever stands in a tree there are directories. -/
theorem hasDirectory_of_node? {node : Node}
    (stands : tree.node? (upper ++ name :: lower) = some node) : tree.HasDirectory upper := by
  rw [node?, Node.find?_append] at stands
  obtain ⟨above, found, below⟩ := Option.bind_eq_some_iff.mp stands
  cases above with
  | directory entries => exact ⟨entries, found⟩
  | file content => simp [Node.find?, Node.child?] at below
  | link target => simp [Node.find?, Node.child?] at below

theorem IsSettled.hasDirectory (settled : tree.IsSettled (upper ++ name :: lower)) :
    tree.HasDirectory upper := by
  obtain ⟨node, stands, -⟩ := settled
  exact hasDirectory_of_node? stands

theorem IsSettled.of_append (settled : tree.IsSettled (upper ++ lower)) :
    tree.IsSettled upper := by
  cases lower with
  | nil => rwa [List.append_nil] at settled
  | cons name lower => exact settled.hasDirectory.isSettled

theorem HasDirectory.dropLast (directory : tree.HasDirectory place) :
    tree.HasDirectory place.dropLast := by
  by_cases top : place = []
  · subst top
    exact hasDirectory_nil tree
  · obtain ⟨entries, stands⟩ := directory
    rw [← List.dropLast_append_getLast top] at stands
    exact hasDirectory_of_node? stands

theorem move_eq_onto (moved : tree.move place step = .onto next) :
    tree.HasDirectory place ∧ tree.GoesOnto place step next := by
  unfold move at moved
  split at moved
  · next entries stands =>
      refine ⟨⟨entries, stands⟩, ?_⟩
      split at moved
      · next here =>
          cases moved
          exact .stay here
      · next not_here =>
          split at moved
          · next above =>
              cases moved
              exact .up above
          · next not_up =>
              split at moved
              · cases moved
              · split at moved
                · cases moved
                · cases moved
                · next node not_link found =>
                    cases moved
                    exact .down not_here not_up ⟨node, found, not_link⟩
  · cases moved

theorem move_eq_link (moved : tree.move place step = .link target) :
    tree.HasDirectory place := by
  unfold move at moved
  split at moved
  · next entries stands => exact ⟨entries, stands⟩
  · cases moved

theorem walk_cons (tree : FileTree) (place : List String) (step : String) (steps : List String) :
    tree.walk true place (step :: steps) =
      match tree.move place step with
      | .onto next => tree.walk true next steps
      | .link target => .link place target steps
      | .fault fault => .fault fault := by
  rw [walk, move]
  simp only [Bool.not_true, Bool.and_false, Bool.false_eq_true, if_false]
  cases tree.node? place with
  | none => rfl
  | some node =>
      cases node with
      | file | link => rfl
      | directory entries =>
          dsimp only
          split
          · rfl
          · split
            · rfl
            · split
              · rfl
              · cases tree.node? (place ++ [step]) with
                | none => rfl
                | some node => cases node <;> rfl

/-- What a walk comes to lies along names, and so does the way from a link on. -/
def Halt.IsSound (tree : FileTree) : Halt → Prop
  | .arrived place => Path.AreNames place ∧ tree.IsSettled place
  | .link base _ rest =>
      Path.AreNames base ∧ tree.HasDirectory base ∧ ∀ step ∈ rest, Path.IsStep step
  | .fault _ => True

theorem areNames_of_move (proper : Path.AreNames place) (own : Path.IsStep step)
    (moved : tree.move place step = .onto next) : Path.AreNames next := by
  cases (move_eq_onto moved).2 with
  | stay => exact proper
  | up => exact fun name member => proper name (List.dropLast_subset _ member)
  | down not_here not_up =>
      rw [Path.areNames_append_iff]
      refine ⟨proper, ?_⟩
      intro name member
      rw [List.mem_singleton.mp member]
      exact ⟨own.filled, not_here, not_up, own.uncut⟩

theorem isSettled_of_move (moved : tree.move place step = .onto next) : tree.IsSettled next := by
  obtain ⟨directory, goes⟩ := move_eq_onto moved
  cases goes with
  | stay => exact directory.isSettled
  | up => exact directory.dropLast.isSettled
  | down _ _ settled => exact settled

/-- The first step finds out that it starts from a directory. So nothing has to stand at the place
    where a walk begins, unless the walk takes no step. -/
theorem isSound_walk (proper : Path.AreNames place) (own : ∀ step ∈ steps, Path.IsStep step)
    (begins : steps = [] → tree.IsSettled place) : (tree.walk true place steps).IsSound tree := by
  induction steps generalizing place with
  | nil => exact ⟨proper, begins rfl⟩
  | cons step steps ih =>
      rw [List.forall_mem_cons] at own
      rw [walk_cons]
      cases moved : tree.move place step with
      | onto next =>
          exact ih (areNames_of_move proper own.1 moved) own.2 fun _ => isSettled_of_move moved
      | link target => exact ⟨proper, move_eq_link moved, own.2⟩
      | fault fault => trivial

theorem walk_append (tree : FileTree) (place steps more : List String) :
    tree.walk true place (steps ++ more) =
      match tree.walk true place steps with
      | .arrived last => tree.walk true last more
      | .link base target rest => .link base target (rest ++ more)
      | .fault fault => .fault fault := by
  induction steps generalizing place with
  | nil => rfl
  | cons step steps ih =>
      rw [List.cons_append, walk_cons, walk_cons]
      cases tree.move place step with
      | onto next => exact ih next
      | link target => rfl
      | fault fault => rfl

theorem move_along (proper : Path.IsName name) (directory : tree.HasDirectory place)
    (settled : tree.IsSettled (place ++ [name])) :
    tree.move place name = .onto (place ++ [name]) ∨
      tree.move place name = .fault .nameTooLong := by
  obtain ⟨entries, stands⟩ := directory
  obtain ⟨node, found, not_link⟩ := settled
  unfold move
  rw [stands, found]
  dsimp only
  rw [if_neg proper.not_here, if_neg proper.not_up]
  split
  · exact .inr rfl
  · cases node with
    | file | directory => exact .inl rfl
    | link target => exact absurd rfl (not_link target)

/-- Along names, a walk goes where they lead, unless one of them is too long. -/
theorem walk_along (proper : Path.AreNames lower) (settled : tree.IsSettled (upper ++ lower)) :
    tree.walk true upper lower = .arrived (upper ++ lower) ∨
      tree.walk true upper lower = .fault .nameTooLong := by
  induction lower generalizing upper with
  | nil =>
      rw [List.append_nil]
      exact .inl rfl
  | cons name lower ih =>
      rw [Path.areNames_cons_iff] at proper
      have directory := settled.hasDirectory
      rw [List.append_cons] at settled ⊢
      rw [walk_cons]
      rcases move_along proper.1 directory settled.of_append with moved | moved
      · simp only [moved]
        exact ih proper.2 settled
      · simp only [moved]
        exact .inr trivial

theorem areNames_origin (proper : Path.AreNames place) :
    Path.AreNames (origin place target) := by
  unfold origin
  split
  · exact Path.areNames_nil
  · exact proper

theorem HasDirectory.origin (directory : tree.HasDirectory place) :
    tree.HasDirectory (origin place target) := by
  unfold FileTree.origin
  split
  · exact hasDirectory_nil tree
  · exact directory

/-- A look-up ends along names where something other than a link stands. -/
theorem isSettled_of_resolve (proper : Path.AreNames place) (own : ∀ step ∈ steps, Path.IsStep step)
    (begins : steps = [] → tree.IsSettled place)
    (resolved : tree.resolve true links place steps = .ok last) :
    Path.AreNames last ∧ tree.IsSettled last := by
  fun_induction tree.resolve true links place steps with
  | case1 links place steps _ arrived =>
      cases resolved
      have sound := isSound_walk proper own begins
      rwa [arrived] at sound
  | case2 => cases resolved
  | case3 => cases resolved
  | case4 place steps base target rest halted links ih =>
      have sound := isSound_walk proper own begins
      rw [halted] at sound
      -- The link stands in a directory, so even an empty target begins where something stands.
      obtain ⟨above, directory, left⟩ := sound
      apply ih (areNames_origin above)
      · intro step member
        rcases List.mem_append.mp member with inside | later
        · exact Path.isStep_of_mem_steps inside
        · exact left step later
      · exact fun _ => directory.origin.isSettled
      · exact resolved

theorem walk_eq_fault_of_not_hasDirectory (other : ¬ tree.HasDirectory place)
    (step : String) (more : List String) :
    ∃ fault, tree.walk true place (step :: more) = .fault fault := by
  rw [walk_cons]
  cases moved : tree.move place step with
  | onto next => exact absurd (move_eq_onto moved).1 other
  | link target => exact absurd (move_eq_link moved) other
  | fault fault => exact ⟨fault, rfl⟩

theorem HasDirectory.walk_here (directory : tree.HasDirectory place) :
    tree.walk true place ["."] = .arrived place := by
  obtain ⟨entries, stands⟩ := directory
  rw [walk_cons, move, stands]
  rfl

/-- What another step starts from is a directory, and staying in it makes no difference. -/
theorem exists_resolve_of_append
    (resolved : tree.resolve true links place (steps ++ step :: more) = .ok last) :
    ∃ next, tree.HasDirectory next ∧ tree.resolve true links place steps = .ok next ∧
      tree.resolve true links place (steps ++ ["."]) = .ok next := by
  fun_induction tree.resolve true links place steps with
  | case1 links place steps next arrived =>
      unfold resolve at resolved
      rw [walk_append, arrived] at resolved
      dsimp only at resolved
      have directory : tree.HasDirectory next := by
        by_contra other
        obtain ⟨fault, failed⟩ := walk_eq_fault_of_not_hasDirectory other step more
        rw [failed] at resolved
        cases resolved
      refine ⟨next, directory, rfl, ?_⟩
      unfold resolve
      rw [walk_append, arrived]
      dsimp only
      rw [directory.walk_here]
  | case2 links place steps fault failed =>
      unfold resolve at resolved
      rw [walk_append, failed] at resolved
      cases resolved
  | case3 place steps base target rest halted =>
      unfold resolve at resolved
      rw [walk_append, halted] at resolved
      cases resolved
  | case4 place steps base target rest halted links ih =>
      unfold resolve at resolved
      rw [walk_append, halted] at resolved
      dsimp only at resolved
      rw [← List.append_assoc] at resolved
      obtain ⟨next, directory, found, stayed⟩ := ih resolved
      refine ⟨next, directory, found, ?_⟩
      unfold resolve
      rw [walk_append, halted]
      dsimp only
      rwa [← List.append_assoc]

theorem resolve_of_locate (located : tree.locate true path = .ok last) :
    path ≠ "" ∧
      tree.resolve true linkLimit (origin tree.here path) (Path.steps path) = .ok last := by
  unfold locate at located
  split at located
  · cases located
  · split at located
    · cases located
    · next filled =>
        split at located
        · cases located
        · exact ⟨filled, located⟩

theorem isSettled_of_locate (proper : Path.AreNames tree.here)
    (located : tree.locate true path = .ok last) : Path.AreNames last ∧ tree.IsSettled last := by
  obtain ⟨filled, resolved⟩ := resolve_of_locate located
  apply isSettled_of_resolve (areNames_origin proper) _ _ resolved
  · exact fun step member => Path.isStep_of_mem_steps member
  · exact fun none_left => absurd none_left (Path.steps_ne_nil filled)

/-- The path of a place leads to this place, if it can be looked up. -/
theorem eq_of_locate_ofNames (proper : Path.AreNames place) (settled : tree.IsSettled place)
    (located : tree.locate true (Path.ofNames place) = .ok last) : last = place := by
  obtain ⟨-, resolved⟩ := resolve_of_locate located
  rw [origin, if_pos (Path.isAbsolute_ofNames place)] at resolved
  unfold resolve at resolved
  by_cases top : place = []
  · subst top
    have stays : Path.steps (Path.ofNames []) = ["."] := by decide
    rw [stays, (hasDirectory_nil tree).walk_here] at resolved
    cases resolved
    rfl
  · rw [Path.steps_ofNames proper top] at resolved
    have along : tree.walk true [] place = .arrived ([] ++ place) ∨
        tree.walk true [] place = .fault .nameTooLong := walk_along proper settled
    rcases along with arrived | failed
    · rw [arrived] at resolved
      cases resolved
      rfl
    · rw [failed] at resolved
      cases resolved

/-- The canonical path of a canonical path is the same. -/
theorem canonicalOr_canonicalOr (proper : Path.AreNames tree.here) (path : String) :
    tree.canonicalOr (tree.canonicalOr path) = tree.canonicalOr path := by
  cases located : tree.locate true path with
  | error fault =>
      have same : tree.canonicalOr path = path := by simp [canonicalOr, canonical?, located]
      rw [same, same]
  | ok place =>
      have found : tree.canonicalOr path = Path.ofNames place := by
        simp [canonicalOr, canonical?, located]
      obtain ⟨names, settled⟩ := isSettled_of_locate proper located
      rw [found]
      cases again : tree.locate true (Path.ofNames place) with
      | error fault => simp [canonicalOr, canonical?, again]
      | ok last =>
          obtain rfl := eq_of_locate_ofNames names settled again
          simp [canonicalOr, canonical?, again]

/-- A path that another one continues can be looked up if that one can. -/
theorem locate_of_append {more : String} (filled : path ≠ "")
    (located : tree.locate true (path ++ more) = .ok last) :
    tree.locate true path =
      tree.resolve true linkLimit (origin tree.here path) (Path.steps path) := by
  unfold locate at located ⊢
  split at located
  · cases located
  · next legible =>
      split at located
      · cases located
      · split at located
        · cases located
        · next short =>
            have legible_above : ¬ path.toList.contains '\x00' = true := by
              simp only [String.toList_append, List.contains_append, Bool.or_eq_true, not_or]
                at legible
              exact legible.1
            have short_above : ¬ 4096 ≤ path.utf8ByteSize := by
              rw [String.utf8ByteSize_append] at short
              omega
            rw [if_neg legible_above, if_neg filled, if_neg short_above]

/-- A path below which a name leads anywhere leads to a directory. -/
theorem exists_locate_of_join (proper : Path.IsName name) (filled : path ≠ "")
    (located : tree.locate true (Path.join path name) = .ok last) :
    ∃ next, tree.HasDirectory next ∧ tree.locate true path = .ok next := by
  obtain ⟨-, resolved⟩ := resolve_of_locate located
  obtain ⟨more, continued⟩ := proper.exists_join_eq filled
  have same_origin : origin tree.here (Path.join path name) = origin tree.here path := by
    rw [continued, origin, origin, Path.isAbsolute_append filled]
  rw [proper.steps_join filled, same_origin] at resolved
  rw [continued] at located
  rw [locate_of_append filled located]
  obtain ⟨next, directory, found, stayed⟩ := exists_resolve_of_append resolved
  refine ⟨next, directory, ?_⟩
  rw [Path.steps]
  split
  · exact stayed
  · rwa [List.append_nil]

end FileTree

end PageCheck
