import PageCheck.Proofs.Text.Pieces

/-! # Splitting a text by characters

The lines of a text without any offsets: bring all terminators to line feeds, split there, and drop
the empty piece behind a final terminator. Along a cut of the text this gives its lines.
-/

namespace PageCheck.Text

/-- Replace each occurrence of `old`, from left to right. The next `skip` characters belong to the
    occurrence that was replaced last. -/
def replaceFrom (old new : List Char) : (skip : Nat) → List Char → List Char
  | _, [] => []
  | skip + 1, _ :: rest => replaceFrom old new skip rest
  | 0, c :: rest =>
    if old.isPrefixOf (c :: rest) then new ++ replaceFrom old new (old.length - 1) rest
    else c :: replaceFrom old new 0 rest

def replace (old new cs : List Char) : List Char :=
  replaceFrom old new 0 cs

theorem replace_singleton_cons (old c : Char) (new rest : List Char) :
    replace [old] new (c :: rest) = (if c = old then new else [c]) ++ replace [old] new rest := by
  rw [replace, replaceFrom]
  by_cases same : c = old
  · rw [if_pos (by simp [same]), if_pos same]
    rfl
  · rw [if_neg (by simpa using Ne.symm same), if_neg same]
    rfl

theorem replace_singleton (old : Char) (new cs : List Char) :
    replace [old] new cs = cs.flatMap fun c => if c = old then new else [c] := by
  induction cs with
  | nil => rfl
  | cons c rest ih => rw [replace_singleton_cons, List.flatMap_cons, ih]

/-- Make each pair of a carriage return and a line feed a line feed. -/
def joinPairs (cs : List Char) : List Char :=
  replace ['\r', '\n'] ['\n'] cs

theorem joinPairs_cons {c : Char} (no_ret : c ≠ '\r') (rest : List Char) :
    joinPairs (c :: rest) = c :: joinPairs rest := by
  rw [joinPairs, replace, replaceFrom, if_neg (by simp [Ne.symm no_ret])]
  rfl

theorem joinPairs_pair (rest : List Char) :
    joinPairs ('\r' :: '\n' :: rest) = '\n' :: joinPairs rest := by
  rw [joinPairs, replace, replaceFrom, if_pos (by simp)]
  rfl

theorem joinPairs_ret {rest : List Char} (alone : rest.head? ≠ some '\n') :
    joinPairs ('\r' :: rest) = '\r' :: joinPairs rest := by
  have unpaired : ¬ ['\r', '\n'].isPrefixOf ('\r' :: rest) := by
    cases rest with
    | nil => simp
    | cons next rest =>
        have other : '\n' ≠ next := fun same => alone (congrArg some same.symm)
        simp [other]
  rw [joinPairs, replace, replaceFrom, if_neg unpaired]
  rfl

/-- Bring every terminator to a line feed. -/
def withFeeds (cs : List Char) : List Char :=
  replace ['\r'] ['\n'] (joinPairs cs)

@[simp] theorem withFeeds_nil : withFeeds [] = [] := rfl

theorem withFeeds_cons {c : Char} (no_ret : c ≠ '\r') (rest : List Char) :
    withFeeds (c :: rest) = c :: withFeeds rest := by
  rw [withFeeds, joinPairs_cons no_ret, replace_singleton_cons, if_neg no_ret]
  rfl

theorem withFeeds_pair (rest : List Char) :
    withFeeds ('\r' :: '\n' :: rest) = '\n' :: withFeeds rest := by
  rw [withFeeds, joinPairs_pair, replace_singleton_cons, if_neg (by decide)]
  rfl

theorem withFeeds_ret {rest : List Char} (alone : rest.head? ≠ some '\n') :
    withFeeds ('\r' :: rest) = '\n' :: withFeeds rest := by
  rw [withFeeds, joinPairs_ret alone, replace_singleton_cons, if_pos rfl]
  rfl

theorem withFeeds_terminator {ending rest : List Char}
    (terminator : LineEnds.ofChars.Terminator ending rest) :
    withFeeds (ending ++ rest) = '\n' :: withFeeds rest := by
  cases terminator with
  | feed => exact withFeeds_cons (by decide) rest
  | pair => exact withFeeds_pair rest
  | ret alone => exact withFeeds_ret alone

theorem withFeeds_append_unbroken {line : List Char} (unbroken : LineEnds.ofChars.Unbroken line)
    (rest : List Char) : withFeeds (line ++ rest) = line ++ withFeeds rest := by
  induction line with
  | nil => rfl
  | cons c line ih =>
      have tail : LineEnds.ofChars.Unbroken line :=
        fun other member => unbroken other (List.mem_cons_of_mem c member)
      rw [List.cons_append, withFeeds_cons (unbroken c List.mem_cons_self).2, ih tail,
        List.cons_append]

def dropFinalEmpty (pieces : List (List Char)) : List (List Char) :=
  if pieces.getLast? = some [] then pieces.dropLast else pieces

def splitLines (text : String) : List String :=
  (dropFinalEmpty ((withFeeds text.toList).splitOn '\n')).map String.ofList

theorem dropFinalEmpty_cons (line : List Char) {pieces : List (List Char)} (more : pieces ≠ []) :
    dropFinalEmpty (line :: pieces) = line :: dropFinalEmpty pieces := by
  obtain ⟨next, rest, rfl⟩ := List.exists_cons_of_ne_nil more
  rw [dropFinalEmpty, dropFinalEmpty, List.getLast?_cons_cons, List.dropLast_cons_cons,
    apply_ite (line :: ·)]

/-- Splitting finds the lines that the text is cut into. -/
theorem LineEnds.Cut.lines_eq {cs : List Char} {pieces : List (Piece Char)}
    (cut : ofChars.Cut cs pieces) :
    dropFinalEmpty ((withFeeds cs).splitOn '\n') = pieces.map Piece.line := by
  induction cut with
  | nil => rfl
  | @last line filled unbroken =>
      have no_feed : '\n' ∉ line := fun member => (unbroken '\n' member).1 rfl
      have whole := withFeeds_append_unbroken unbroken []
      rw [List.append_nil, withFeeds_nil, List.append_nil] at whole
      rw [whole, List.splitOn_eq_singleton no_feed, dropFinalEmpty, if_neg (by simpa using filled),
        List.map_singleton]
  | @cons line ending rest pieces unbroken terminator cut ih =>
      have no_feed : '\n' ∉ line := fun member => (unbroken '\n' member).1 rfl
      rw [withFeeds_append_unbroken unbroken, withFeeds_terminator terminator,
        List.splitOn_append_cons_self_of_not_mem no_feed,
        dropFinalEmpty_cons line (List.splitOn_ne_nil _ _), ih, List.map_cons]

def terminators : List (List Char) :=
  [['\n'], ['\r', '\n'], ['\r']]

/-- A text that has only line feeds, once they are written in another way, holds terminators of that
    kind alone: no carriage return comes to stand before a line feed that remains. -/
theorem terminator_replace {terminator : List Char} (ended : terminator ∈ terminators)
    (rest : List Char) :
    LineEnds.ofChars.Terminator terminator (replace ['\n'] terminator rest) := by
  simp only [terminators, List.mem_cons, List.not_mem_nil, or_false] at ended
  rcases ended with rfl | rfl | rfl
  · exact .feed _
  · exact .pair _
  · refine .ret fun first => ?_
    have left : '\n' ∈ replace ['\n'] ['\r'] rest := List.mem_of_mem_head? first
    rw [replace_singleton, List.mem_flatMap] at left
    obtain ⟨old, -, kept⟩ := left
    split at kept
    · simp at kept
    · next changed => exact changed (List.mem_singleton.mp kept).symm

/-- However the line feeds of a text are written, they are brought back. -/
theorem withFeeds_replace {terminator cs : List Char} (ended : terminator ∈ terminators)
    (no_ret : '\r' ∉ cs) : withFeeds (replace ['\n'] terminator cs) = cs := by
  induction cs with
  | nil => rfl
  | cons c rest ih =>
      obtain ⟨other, tail⟩ := List.ne_and_not_mem_of_not_mem_cons no_ret
      rw [replace_singleton_cons]
      by_cases feed : c = '\n'
      · rw [if_pos feed, withFeeds_terminator (terminator_replace ended rest), ih tail, feed]
      · rw [if_neg feed, List.singleton_append, withFeeds_cons other.symm, ih tail]

theorem withFeeds_of_no_ret {cs : List Char} (no_ret : '\r' ∉ cs) : withFeeds cs = cs := by
  induction cs with
  | nil => rfl
  | cons c rest ih =>
      obtain ⟨other, tail⟩ := List.ne_and_not_mem_of_not_mem_cons no_ret
      rw [withFeeds_cons other.symm, ih tail]

theorem splitLines_replace {text : String} {terminator : List Char}
    (ended : terminator ∈ terminators) (no_ret : '\r' ∉ text.toList) :
    splitLines (String.ofList (replace ['\n'] terminator text.toList)) = splitLines text := by
  rw [splitLines, splitLines, String.toList_ofList, withFeeds_replace ended no_ret,
    withFeeds_of_no_ret no_ret]

end PageCheck.Text
