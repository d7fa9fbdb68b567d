import Mathlib.Data.List.Forall2

/-! # The case of letters

Only the letters of the ASCII alphabet have two cases. Texts that are the same apart from case have
as many characters, each of them the same or the other case of one letter.
-/

namespace PageCheck.Text

/-- The letters in both cases, the upper one first. -/
def letters : List (Char × Char) :=
  "ABCDEFGHIJKLMNOPQRSTUVWXYZ".toList.zip "abcdefghijklmnopqrstuvwxyz".toList

/-- Two characters that differ at most in case. -/
inductive SameLetter (c : Char) : Char → Prop where
  | same : SameLetter c c
  | lower {d : Char} (listed : (c, d) ∈ letters) : SameLetter c d
  | upper {d : Char} (listed : (d, c) ∈ letters) : SameLetter c d

/-- Two texts that differ at most in case. -/
def SameApartFromCase (text other : String) : Prop :=
  List.Forall₂ SameLetter text.toList other.toList

variable {c d : Char} {text other : String}

theorem toLower_of_mem_letters (listed : (c, d) ∈ letters) : c.toLower = d ∧ d.toLower = d := by
  have each : ∀ pair ∈ letters, pair.1.toLower = pair.2 ∧ pair.2.toLower = pair.2 := by decide
  exact each (c, d) listed

theorem eq_of_mem_letters {lower : Char} (listed : (c, lower) ∈ letters)
    (other_listed : (d, lower) ∈ letters) : c = d := by
  have unlike : ∀ pair ∈ letters, ∀ other ∈ letters, pair.2 = other.2 → pair.1 = other.1 := by
    decide
  exact unlike (c, lower) listed (d, lower) other_listed rfl

theorem toLower_cases (c : Char) : c.toLower = c ∨ (c, c.toLower) ∈ letters := by
  by_cases upper : 'A'.val ≤ c.val ∧ c.val ≤ 'Z'.val
  case pos =>
    right
    have each : ∀ code ∈ List.range' 0x41 26,
        (Char.ofNat code, (Char.ofNat code).toLower) ∈ letters := by decide
    have inside : c.toNat ∈ List.range' 0x41 26 := by
      have least : 0x41 ≤ c.toNat := upper.1
      have most : c.toNat ≤ 0x5A := upper.2
      rw [List.mem_range'_1]
      omega
    have listed := each c.toNat inside
    rwa [Char.ofNat_toNat] at listed
  case neg =>
    left
    exact dif_neg upper

theorem sameLetter_iff : SameLetter c d ↔ c.toLower = d.toLower := by
  constructor
  · intro alike
    cases alike with
    | same => rfl
    | lower listed | upper listed =>
        obtain ⟨lower, kept⟩ := toLower_of_mem_letters listed
        rw [lower, kept]
  · intro equal
    rcases toLower_cases c with lower | listed <;>
      rcases toLower_cases d with other_lower | other_listed
    · rw [← lower, equal, other_lower]
      exact .same
    · rw [← equal, lower] at other_listed
      exact .upper other_listed
    · rw [equal, other_lower] at listed
      exact .lower listed
    · rw [equal] at listed
      rw [eq_of_mem_letters listed other_listed]
      exact .same

theorem sameApartFromCase_iff :
    SameApartFromCase text other ↔
      text.toList.map Char.toLower = other.toList.map Char.toLower := by
  rw [← List.forall₂_eq_eq_eq, List.forall₂_map_left_iff, List.forall₂_map_right_iff]
  constructor
  · intro alike
    exact alike.imp fun _ _ => sameLetter_iff.mp
  · intro equal
    exact equal.imp fun _ _ => sameLetter_iff.mpr

end PageCheck.Text
