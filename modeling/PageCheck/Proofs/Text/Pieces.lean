import PageCheck.Proofs.Text.Bytes

/-! # Cutting a text into lines

What it means to cut a sequence of symbols into lines, each with the terminator behind it. The
symbols are bytes or characters: encoding a text takes the one cut to the other, and the line ranges
of a text are read off the cut of its bytes.
-/

namespace PageCheck.Text

/-- The two symbols of an alphabet that end lines, alone or as a pair. -/
structure LineEnds (α : Type) where
  feed : α
  ret : α

/-- Line feed and carriage return among the bytes. -/
def LineEnds.ofBytes : LineEnds UInt8 :=
  ⟨10, 13⟩

/-- Line feed and carriage return among the characters. -/
def LineEnds.ofChars : LineEnds Char :=
  ⟨'\n', '\r'⟩

/-- A line and what stands behind it: its terminator, or nothing where the text ends without one. -/
structure Piece (α : Type) where
  line : List α
  ending : List α

def Piece.join (pieces : List (Piece α)) : List α :=
  pieces.flatMap fun piece => piece.line ++ piece.ending

namespace Piece

@[simp] theorem join_nil : join ([] : List (Piece α)) = [] := rfl

@[simp] theorem join_cons (piece : Piece α) (rest : List (Piece α)) :
    join (piece :: rest) = piece.line ++ (piece.ending ++ join rest) := by
  rw [join, List.flatMap_cons, List.append_assoc]
  rfl

@[simp] theorem join_append (before after : List (Piece α)) :
    join (before ++ after) = join before ++ join after :=
  List.flatMap_append

end Piece

namespace LineEnds

/-- A line holds neither symbol that would end it. -/
def Unbroken (ends : LineEnds α) (line : List α) : Prop :=
  ∀ symbol ∈ line, symbol ≠ ends.feed ∧ symbol ≠ ends.ret

/-- `ending` is a single terminator where `rest` follows it. A return before a feed is half of a
    pair and no terminator of its own. -/
inductive Terminator (ends : LineEnds α) : List α → List α → Prop where
  | feed (rest : List α) : Terminator ends [ends.feed] rest
  | pair (rest : List α) : Terminator ends [ends.ret, ends.feed] rest
  | ret {rest : List α} (alone : rest.head? ≠ some ends.feed) : Terminator ends [ends.ret] rest

/-- The pieces of a text. A terminator at its very end opens no further piece. -/
inductive Cut (ends : LineEnds α) : List α → List (Piece α) → Prop where
  | nil : Cut ends [] []
  | last {line : List α} (filled : line ≠ []) (unbroken : ends.Unbroken line) :
      Cut ends line [⟨line, []⟩]
  | cons {line ending rest : List α} {pieces : List (Piece α)} (unbroken : ends.Unbroken line)
      (terminator : ends.Terminator ending rest) (cut : Cut ends rest pieces) :
      Cut ends (line ++ (ending ++ rest)) (⟨line, ending⟩ :: pieces)

variable {ends : LineEnds α} {text : List α} {pieces : List (Piece α)}

theorem Unbroken.nil : ends.Unbroken [] := by
  intro symbol member
  cases member

theorem Unbroken.concat {line : List α} {symbol : α} (unbroken : ends.Unbroken line)
    (no_feed : symbol ≠ ends.feed) (no_ret : symbol ≠ ends.ret) :
    ends.Unbroken (line ++ [symbol]) := by
  intro other member
  rcases List.mem_append.mp member with before | last
  · exact unbroken other before
  · rw [List.mem_singleton.mp last]
    exact ⟨no_feed, no_ret⟩

theorem Terminator.ne_nil {ending rest : List α} (terminator : ends.Terminator ending rest) :
    ending ≠ [] := by
  cases terminator <;> exact List.cons_ne_nil _ _

/-- What has been read of a line so far begins the first piece of the rest. -/
theorem exists_cut_append (held text : List α) (unbroken : ends.Unbroken held) :
    ∃ pieces, ends.Cut (held ++ text) pieces := by
  match text with
  | [] =>
      rw [List.append_nil]
      by_cases filled : held = []
      · exact ⟨[], filled ▸ .nil⟩
      · exact ⟨_, .last filled unbroken⟩
  | symbol :: rest =>
      by_cases is_feed : symbol = ends.feed
      · obtain ⟨pieces, cut⟩ := exists_cut_append [] rest .nil
        subst is_feed
        exact ⟨_, .cons unbroken (.feed rest) cut⟩
      by_cases is_ret : symbol = ends.ret
      · subst is_ret
        by_cases paired : rest.head? = some ends.feed
        · obtain ⟨tail, rfl⟩ := List.head?_eq_some_iff.mp paired
          obtain ⟨pieces, cut⟩ := exists_cut_append [] tail .nil
          exact ⟨_, .cons unbroken (.pair tail) cut⟩
        · obtain ⟨pieces, cut⟩ := exists_cut_append [] rest .nil
          exact ⟨_, .cons unbroken (.ret paired) cut⟩
      · rw [List.append_cons]
        exact exists_cut_append (held ++ [symbol]) rest (unbroken.concat is_feed is_ret)
termination_by text.length

theorem exists_cut (ends : LineEnds α) (text : List α) : ∃ pieces, ends.Cut text pieces :=
  exists_cut_append [] text .nil

namespace Cut

theorem join_eq (cut : ends.Cut text pieces) : Piece.join pieces = text := by
  induction cut with
  | nil => rfl
  | last filled unbroken => rw [Piece.join_cons, Piece.join_nil, List.append_nil, List.append_nil]
  | cons unbroken terminator cut ih => rw [Piece.join_cons, ih]

theorem eq_nil_iff (cut : ends.Cut text pieces) : pieces = [] ↔ text = [] := by
  cases cut with
  | nil => simp
  | last filled unbroken => simp [filled]
  | cons unbroken terminator cut => simp [terminator.ne_nil]

theorem unbroken_line (cut : ends.Cut text pieces) {piece : Piece α} (member : piece ∈ pieces) :
    ends.Unbroken piece.line := by
  induction cut with
  | nil => cases member
  | last filled unbroken =>
      rw [List.mem_singleton.mp member]
      exact unbroken
  | cons unbroken terminator cut ih =>
      rcases List.mem_cons.mp member with rfl | later
      · exact unbroken
      · exact ih later

/-- Behind each line stands its terminator, except behind a last line that is not empty. -/
theorem ending (cut : ends.Cut text pieces) {before after : List (Piece α)} {piece : Piece α}
    (split : pieces = before ++ piece :: after) :
    ends.Terminator piece.ending (Piece.join after) ∨
      after = [] ∧ piece.ending = [] ∧ piece.line ≠ [] := by
  induction cut generalizing before with
  | nil => simp at split
  | last filled unbroken =>
      obtain ⟨rfl, same⟩ := List.append_eq_singleton_iff.mp split.symm |>.resolve_right (by simp)
      obtain ⟨rfl, rfl⟩ := List.cons.inj same
      exact Or.inr ⟨rfl, rfl, filled⟩
  | cons unbroken terminator cut ih =>
      cases before with
      | nil =>
          obtain ⟨rfl, rfl⟩ := List.cons.inj split
          rw [cut.join_eq]
          exact Or.inl terminator
      | cons first before => exact ih (List.cons.inj split).2

end Cut

end LineEnds

/-- A piece of a text among the pieces of its bytes. -/
def Piece.encode (piece : Piece Char) : Piece UInt8 :=
  ⟨Text.encode piece.line, Text.encode piece.ending⟩

theorem Piece.join_encode (pieces : List (Piece Char)) :
    join (pieces.map encode) = Text.encode (join pieces) := by
  induction pieces with
  | nil => rfl
  | cons piece rest ih =>
      rw [List.map_cons, join_cons, join_cons, ih, encode_append, encode_append]
      rfl

namespace LineEnds

theorem Unbroken.encode {line : List Char} (unbroken : ofChars.Unbroken line) :
    ofBytes.Unbroken (Text.encode line) := by
  intro byte member
  constructor
  · rintro rfl
    exact (unbroken '\n' (mem_of_mem_encode member (by decide) rfl)).1 rfl
  · rintro rfl
    exact (unbroken '\r' (mem_of_mem_encode member (by decide) rfl)).2 rfl

theorem head?_encode_ne_feed {cs : List Char} (alone : cs.head? ≠ some '\n') :
    (Text.encode cs).head? ≠ some 10 := by
  cases cs with
  | nil => simp
  | cons c rest =>
      rw [encode_cons, List.head?_append, List.head?_eq_some_head String.utf8EncodeChar_ne_nil]
      intro feeds
      have number : c.toNat = '\n'.toNat :=
        toNat_of_mem_utf8EncodeChar (Option.some.inj feeds ▸ List.head_mem _) (by decide)
      exact alone (congrArg some (Char.toNat_inj.mp number))

theorem Terminator.encode {ending rest : List Char} (terminator : ofChars.Terminator ending rest) :
    ofBytes.Terminator (Text.encode ending) (Text.encode rest) := by
  cases terminator with
  | feed => exact .feed _
  | pair => exact .pair _
  | ret alone => exact .ret (head?_encode_ne_feed alone)

/-- The cut of a text becomes that of its bytes: no longer character hides a terminator. -/
theorem Cut.encode {cs : List Char} {pieces : List (Piece Char)} (cut : ofChars.Cut cs pieces) :
    ofBytes.Cut (Text.encode cs) (pieces.map Piece.encode) := by
  induction cut with
  | nil => exact .nil
  | last filled unbroken =>
      exact .last (fun empty => filled (encode_eq_nil_iff.mp empty)) unbroken.encode
  | cons unbroken terminator cut ih =>
      rw [encode_append, encode_append]
      exact .cons unbroken.encode terminator.encode ih

end LineEnds

end PageCheck.Text
