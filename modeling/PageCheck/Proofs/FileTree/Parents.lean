import Mathlib.Data.List.DropRight
import PageCheck.FileTree.Path
import PageCheck.Proofs.Text.Separated

/-! # Going up from a path

The paths above a path are found by taking the parent over and over. A parent is a path of its own:
cut into segments again, it has the segments that were left of it, so that nothing is lost between
one step upwards and the next.
-/

namespace PageCheck.Path

/-- The path so many steps above another one, if the way upwards is that long. -/
def above? : Nat → String → Option String
  | 0, path => some path
  | steps + 1, path => (parent? path).bind (above? steps)

/-- The segments are as they stand between the slashes of a path. -/
def Uncut (kept : List String) : Prop :=
  ∀ segment ∈ kept, '/' ∉ segment.toList

theorem uncut_segments (path : String) : Uncut (segments path) := by
  intro segment member
  exact Text.not_mem_of_mem_separate member

theorem segments_intercalate {kept : List String} (uncut : Uncut kept) (filled : kept ≠ []) :
    segments (String.intercalate "/" kept) = kept :=
  Text.separate_intercalate filled uncut

theorem segments_ofSegments {kept : List String} (uncut : Uncut kept) (filled : kept ≠ [])
    (proper : kept ≠ [""]) : segments (ofSegments kept) = kept := by
  have joined : ofSegments kept = String.intercalate "/" kept := by
    unfold ofSegments
    split
    · exact absurd rfl proper
    · rfl
  rw [joined, segments_intercalate uncut filled]

theorem mem_of_mem_trimSegments {kept : List String} {segment : String}
    (member : segment ∈ trimSegments kept) : segment ∈ kept := by
  cases kept with
  | nil => exact member
  | cons first rest =>
      rcases List.mem_cons.mp member with rfl | later
      · exact List.mem_cons_self
      · have inside := List.dropWhile_sublist isIdle |>.subset (List.mem_reverse.mp later)
        exact List.mem_cons_of_mem _ (List.mem_reverse.mp inside)

theorem trimSegments_trimSegments (kept : List String) :
    trimSegments (trimSegments kept) = trimSegments kept := by
  cases kept with
  | nil => rfl
  | cons first rest =>
      simp only [trimSegments, List.reverse_reverse, List.dropWhile_idempotent]

theorem parentsOf_eq (kept : List String) :
    parentsOf kept = if kept = [] ∨ kept = [""] then []
      else ofSegments (trimSegments kept.dropLast) :: parentsOf (trimSegments kept.dropLast) := by
  rw [parentsOf]
  split <;> rfl

theorem parents_ofSegments {kept : List String} (uncut : Uncut kept)
    (trimmed : trimSegments kept = kept) : parents (ofSegments kept) = parentsOf kept := by
  by_cases top : kept = [] ∨ kept = [""]
  · -- The empty path and the top of the tree have other segments, but no parents either.
    rw [parentsOf_eq kept, if_pos top]
    rcases top with rfl | rfl
    · have empty : trimSegments (segments (ofSegments [])) = [""] := by decide +kernel
      rw [parents, empty, parentsOf_eq, if_pos (Or.inr rfl)]
    · have empty : trimSegments (segments (ofSegments [""])) = [""] := by decide +kernel
      rw [parents, empty, parentsOf_eq, if_pos (Or.inr rfl)]
  · rw [not_or] at top
    rw [parents, segments_ofSegments uncut top.1 top.2, trimmed]

/-- Above a path there are its parent and what is above its parent. -/
theorem parents_eq (path : String) :
    parents path = match parent? path with
      | none => []
      | some parent => parent :: parents parent := by
  rw [parent?, parents, parentsOf_eq]
  split
  · rfl
  · have uncut : Uncut (trimSegments (trimSegments (segments path)).dropLast) := by
      intro segment member
      exact uncut_segments path segment (mem_of_mem_trimSegments
        (List.dropLast_subset _ (mem_of_mem_trimSegments member)))
    simp only [List.head?_cons, parents_ofSegments uncut (trimSegments_trimSegments _)]

theorem above?_eq (steps : Nat) (path : String) :
    above? steps path = (path :: parents path)[steps]? := by
  induction steps generalizing path with
  | zero => rfl
  | succ steps ih =>
      rw [above?, parents_eq, List.getElem?_cons_succ]
      cases parent? path with
      | none => rfl
      | some parent => exact ih parent

theorem exists_above?_iff {path upper : String} :
    (∃ steps, above? steps path = some upper) ↔ upper ∈ path :: parents path := by
  simp only [above?_eq, List.mem_iff_getElem?]

/-- The way upwards ends. -/
theorem exists_above?_eq_none (path : String) : ∃ steps, above? steps path = none := by
  refine ⟨(path :: parents path).length, ?_⟩
  rw [above?_eq]
  exact List.getElem?_eq_none (Nat.le_refl _)

end PageCheck.Path
