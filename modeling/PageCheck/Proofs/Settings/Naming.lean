import PageCheck.Proofs.FileTree.DisplayPath
import PageCheck.Proofs.Settings.Discovery
import PageCheck.Program

/-! # Documents without a name

A document is shown under an empty path exactly if the project root is the document itself. No
directory is a document, so this takes a start that leads to the document, or is spelled like it,
and nothing that marks a directory above it as the project root.
-/

namespace PageCheck

theorem Settings.root_of_merge {root : String} {overrides : Overrides}
    {found : Option SettingsFile} {settings : Settings}
    (merged : merge root overrides found = .ok settings) : settings.root = root := by
  unfold merge at merged
  dsimp only at merged
  split at merged
  · cases merged
  · cases merged
    rfl

namespace FileTree

variable {tree : FileTree} {overrides : Overrides} {settings : Settings}
  {path root file : String} {place : List String} {grammar : Option String}
  {doc : Document}

theorem intercalate_text_eq_empty_iff {rest : List Path.Part}
    (filled : ∀ part ∈ rest, part.text ≠ "") :
    String.intercalate "/" (rest.map Path.Part.text) = "" ↔ rest = [] := by
  cases rest with
  | nil => simp
  | cons part rest =>
      have own := filled part List.mem_cons_self
      cases rest with
      | nil => simpa using own
      | cons other rest =>
          rw [List.map_cons, String.intercalate_cons_of_ne_nil (by simp)]
          simp [own]

theorem displayPath_eq_empty_iff (root : String) (located : tree.locate true path = .ok place) :
    tree.displayPath path root = "" ↔
      Path.parts (tree.canonicalOr root) = Path.parts (tree.canonicalOr path) := by
  have absolute : Path.isAbsolute (tree.canonicalOr path) = true := by
    rw [canonicalOr_of_locate located]
    exact Path.isAbsolute_ofNames place
  simp only [displayPath]
  split
  · split
    · next rest below =>
        rw [Path.below?_eq_some_iff] at below
        have texts : ∀ part ∈ rest, part.text ≠ "" := by
          intro part member
          apply Path.text_ne_empty_of_mem_parts
          rw [below]
          exact List.mem_append_right _ member
        rw [intercalate_text_eq_empty_iff texts, below]
        simp
    · next below =>
        rw [Path.below?_eq_none_iff] at below
        constructor
        · intro empty
          exact absurd empty (resolve_of_locate located).1
        · intro same
          rw [same] at below
          exact absurd (List.prefix_refl _) below
  · next apart =>
      constructor
      · intro empty
        rw [empty] at absolute
        cases absolute
      · intro same
        exact absurd (Path.isAbsolute_eq_of_parts_eq same).symm apart

theorem settings_root (accepted : tree.settings overrides = .ok settings) :
    tree.IsRootFrom (tree.start overrides) settings.root := by
  obtain ⟨root, loaded, isRoot, -, merged⟩ := settings_eq_iff.mp accepted
  cases loaded with
  | error problem => cases merged
  | ok found => rwa [Settings.root_of_merge merged]

/-- What is marked as a project root is a directory. -/
theorem IsMarked.hasDirectory (marked : tree.IsMarked root) (filled : root ≠ "") :
    ∃ place, tree.HasDirectory place ∧ tree.locate true root = .ok place := by
  obtain ⟨name, listed, present⟩ := marked
  have proper : Path.IsName name := by
    have all : ∀ name ∈ settingsNames ++ [".git"],
        name ≠ "" ∧ name ≠ "." ∧ name ≠ ".." ∧ '/' ∉ name.toList := by
      decide
    obtain ⟨some_text, not_here, not_up, uncut⟩ := all name listed
    exact ⟨some_text, not_here, not_up, uncut⟩
  have leads : ∃ last, tree.locate true (Path.join root name) = .ok last := by
    unfold has lookup? at present
    cases located : tree.locate true (Path.join root name) with
    | error fault => simp [located] at present
    | ok last => exact ⟨last, rfl⟩
  obtain ⟨last, located⟩ := leads
  exact exists_locate_of_join proper filled located

/-- No directory has the canonical path of a document. -/
theorem parts_canonicalOr_ne (here : Path.AreNames tree.here) {content : ByteArray}
    {upper : List String} (located : tree.locate true file = .ok place)
    (stands : tree.node? place = some (.file content))
    (reached : tree.locate true path = .ok upper) (directory : tree.HasDirectory upper) :
    Path.parts (tree.canonicalOr path) ≠ Path.parts (tree.canonicalOr file) := by
  rw [canonicalOr_of_locate located, canonicalOr_of_locate reached]
  intro same
  have names := (isSettled_of_locate here located).1
  have upper_names := (isSettled_of_locate here reached).1
  obtain rfl := Path.ofNames_eq_of_parts_eq upper_names names same
  obtain ⟨entries, holds⟩ := directory
  rw [holds] at stands
  cases stands

theorem IsRootFrom.parts_eq_iff (here : Path.AreNames tree.here) {content : ByteArray}
    (isRoot : tree.IsRootFrom (tree.start overrides) root)
    (located : tree.locate true file = .ok place)
    (stands : tree.node? place = some (.file content)) :
    Path.parts (tree.canonicalOr root) = Path.parts (tree.canonicalOr file) ↔
      Path.parts (tree.start overrides) = Path.parts (tree.canonicalOr file) ∧
        ∀ steps path, Path.above? steps (tree.start overrides) = some path →
          ¬ tree.IsMarked path := by
  cases isRoot with
  | @nearest steps _ reached marked unmarked =>
      constructor
      · intro same
        by_cases filled : root = ""
        · subst filled
          rw [canonicalOr_of_locate located] at same
          have absolute := Path.isAbsolute_eq_of_parts_eq same
          rw [Path.isAbsolute_ofNames] at absolute
          cases absolute
        · obtain ⟨upper, directory, found⟩ := marked.hasDirectory filled
          exact absurd same (parts_canonicalOr_ne here located stands found directory)
      · rintro ⟨-, bare⟩
        exact absurd marked (bare steps root reached)
  | start unmarked =>
      have settled : tree.canonicalOr (tree.start overrides) = tree.start overrides :=
        canonicalOr_canonicalOr here _
      rw [settled]
      exact ⟨fun same => ⟨same, unmarked⟩, fun both => both.1⟩

/-- A document is shown under an empty path exactly if the start, with links followed, is the path
    of the document, and nothing there or above it marks a project root. So no document goes without
    a name if the start leads to a directory. -/
theorem path_eq_empty_iff (here : Path.AreNames tree.here)
    (accepted : tree.settings overrides = .ok settings)
    (opened : tree.openDocument file settings.root grammar = .ok doc) :
    (doc.path = "" ↔
      Path.parts (tree.start overrides) = Path.parts (tree.canonicalOr file) ∧
        ∀ steps path, Path.above? steps (tree.start overrides) = some path →
          ¬ tree.IsMarked path) ∧
    (tree.isDirectory (overrides.repoRoot.getD ".") = true → doc.path ≠ "") := by
  obtain ⟨shown, place, content, located, stands⟩ := locate_of_openDocument opened
  have empty_iff := displayPath_eq_empty_iff settings.root located
  rw [← shown, (settings_root accepted).parts_eq_iff here located stands] at empty_iff
  refine ⟨empty_iff, ?_⟩
  intro directory empty
  obtain ⟨upper, reached, holds⟩ := locate_of_isDirectory directory
  exact parts_canonicalOr_ne here located stands reached holds (empty_iff.mp empty).1

/-- The start is the document in both trees. Below a `.git` it has a name. -/
theorem path_eq_empty_iff_notes :
    let overrides : Overrides := { repoRoot := some "notes.txt" }
    let bare : FileTree := { entries := [("notes.txt", .file "x".toUTF8)], here := [] }
    let repository : FileTree :=
      { entries := [("notes.txt", .file "x".toUTF8), (".git", .directory [])], here := [] }
    (∃ settings doc, bare.settings overrides = .ok settings ∧
      bare.openDocument "notes.txt" settings.root none = .ok doc ∧ doc.path = "") ∧
    ∃ settings doc, repository.settings overrides = .ok settings ∧
      repository.openDocument "notes.txt" settings.root none = .ok doc ∧ doc.path ≠ "" := by
  intro overrides bare repository
  let settings (root : String) : Settings :=
    { root, fileFound := false, output := .human, style := {}
      htmlUrl := Settings.defaultHtmlUrl, cssUrl := Settings.defaultCssUrl, timeout := none }
  have upwards : "/notes.txt" :: Path.parents "/notes.txt" = ["/notes.txt", "/"] := by
    decide +kernel
  have top : Path.AreNames [] := Path.areNames_nil
  constructor
  · have accepted : bare.settings overrides = .ok (settings "/notes.txt") := by decide +kernel
    have opened : bare.openDocument "notes.txt" "/notes.txt" none =
        .ok ⟨"", "x", "text.plain"⟩ := by
      decide +kernel
    have begins : bare.start overrides = "/notes.txt" := by decide +kernel
    refine ⟨_, _, accepted, opened, (path_eq_empty_iff top accepted opened).1.mpr ⟨?_, ?_⟩⟩
    · decide +kernel
    · intro steps path reached
      rw [begins] at reached
      have above := Path.exists_above?_iff.mp ⟨steps, reached⟩
      rw [upwards] at above
      have unmarked : ∀ path ∈ ["/notes.txt", "/"], bare.isProjectRoot path = false := by
        decide +kernel
      rw [← isProjectRoot_iff, unmarked path above]
      decide
  · have accepted : repository.settings overrides = .ok (settings "/") := by decide +kernel
    have opened : repository.openDocument "notes.txt" "/" none =
        .ok ⟨"notes.txt", "x", "text.plain"⟩ := by
      decide +kernel
    refine ⟨_, _, accepted, opened, ?_⟩
    intro empty
    have bare_above := ((path_eq_empty_iff top accepted opened).1.mp empty).2
    have begins : repository.start overrides = "/notes.txt" := by decide +kernel
    have reached : Path.above? 1 (repository.start overrides) = some "/" := by
      rw [begins, Path.above?_eq, upwards]
      rfl
    apply bare_above 1 "/" reached
    rw [← isProjectRoot_iff]
    decide +kernel

/-- A project root that is a file leaves this file without a name, in whatever is printed. -/
theorem progress_of_notes :
    let around : Surroundings :=
      { tree := { entries := [("notes.txt", .file "x".toUTF8)], here := [] }
        styling := .plain
        services := Settings.offlineServices }
    let overrides : Overrides := { repoRoot := some "notes.txt" }
    ∃ settings doc, around.tree.settings overrides = .ok settings ∧
      around.tree.expand ["notes.txt"] = .ok ["notes.txt"] ∧
      around.tree.openDocument "notes.txt" settings.root none = .ok doc ∧
      doc.path = "" ∧
      (around.run ["validate", "--repo-root", "notes.txt", "notes.txt"]).output =
        "⧗ Validating \n" := by
  intro around overrides
  refine ⟨{ root := "/notes.txt", fileFound := false, output := .human, style := {}
            htmlUrl := Settings.defaultHtmlUrl, cssUrl := Settings.defaultCssUrl, timeout := none },
    ⟨"", "x", "text.plain"⟩, ?_, ?_, ?_, rfl, ?_⟩
  · decide +kernel
  · decide +kernel
  · decide +kernel
  · decide +kernel

end FileTree

end PageCheck
