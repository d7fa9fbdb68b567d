import PageCheck.Proofs.FileTree.Following

/-! # Shown paths

A document is shown under the names that lead to it from the project root. Whatever links and dots
the two paths go through, these names are the rest of the document's canonical path behind that of
the root, component by component; only for a document outside of the root is the path shown that was
given.
-/

namespace PageCheck

theorem Path.below?_eq_some_iff {path base rest : List Path.Part} :
    Path.below? path base = some rest ↔ path = base ++ rest := by
  induction base generalizing path with
  | nil => simp [Path.below?]
  | cons other base ih =>
      cases path with
      | nil => simp [Path.below?]
      | cons part path =>
          rw [Path.below?, List.cons_append, List.cons.injEq]
          split
          · next same => simp [same, ih]
          · next apart => simp [apart]

theorem Path.below?_eq_none_iff {path base : List Path.Part} :
    Path.below? path base = none ↔ ¬ base <+: path := by
  rw [Option.eq_none_iff_forall_ne_some]
  simp only [ne_eq, Path.below?_eq_some_iff]
  constructor
  · rintro apart ⟨rest, rfl⟩
    exact apart rest rfl
  · rintro apart rest rfl
    exact apart (List.prefix_append base rest)

namespace FileTree

variable {tree : FileTree} {path root top : String} {place names : List String}
  {grammar : Option String} {doc : Document}

theorem canonicalOr_of_canonical? {target : String} (found : tree.canonical? path = some target) :
    tree.canonicalOr path = target := by
  simp [canonicalOr, found]

theorem canonical?_eq_some_iff {target : String} :
    tree.canonical? path = some target ↔
      ∃ place, tree.locate true path = .ok place ∧ Path.ofNames place = target := by
  unfold canonical?
  cases tree.locate true path with
  | error fault => simp
  | ok place => simp

theorem canonicalOr_of_locate (located : tree.locate true path = .ok place) :
    tree.canonicalOr path = Path.ofNames place :=
  canonicalOr_of_canonical? (canonical?_eq_some_iff.mpr ⟨place, located, rfl⟩)

theorem displayPath_of_prefix (proper : Path.AreNames (place ++ names))
    (found : tree.canonical? path = some (Path.ofNames (place ++ names)))
    (rooted : tree.canonical? root = some (Path.ofNames place)) :
    tree.displayPath path root = String.intercalate "/" names := by
  have rest : Path.below? (Path.parts (Path.ofNames (place ++ names)))
      (Path.parts (Path.ofNames place)) = some (names.map .name) := by
    rw [Path.below?_eq_some_iff, Path.parts_ofNames proper,
      Path.parts_ofNames (Path.areNames_append_iff.mp proper).1]
    simp
  rw [displayPath, canonicalOr_of_canonical? found, canonicalOr_of_canonical? rooted]
  simp only [Path.isAbsolute_ofNames, if_true, rest, List.map_map]
  congr 1
  exact List.map_id names

theorem displayPath_of_not_prefix {target : List String}
    (found : tree.canonical? path = some (Path.ofNames target))
    (rooted : tree.canonical? root = some (Path.ofNames place))
    (apart : ¬ Path.parts (Path.ofNames place) <+: Path.parts (Path.ofNames target)) :
    tree.displayPath path root = path := by
  rw [displayPath, canonicalOr_of_canonical? found, canonicalOr_of_canonical? rooted]
  simp only [Path.isAbsolute_ofNames, if_true, Path.below?_eq_none_iff.mpr apart]

theorem locate_of_openDocument (opened : tree.openDocument path root grammar = .ok doc) :
    doc.path = tree.displayPath path root ∧ ∃ place content,
      tree.locate true path = .ok place ∧ tree.node? place = some (.file content) := by
  unfold openDocument at opened
  split at opened
  · cases opened
  · next text read =>
      cases opened
      refine ⟨rfl, ?_⟩
      unfold readText at read
      split at read
      · cases read
      · next place located =>
          split at read
          · next content stands => exact ⟨place, content, located, stands⟩
          · cases read
          · cases read

theorem locate_of_isDirectory (directory : tree.isDirectory root = true) :
    ∃ place, tree.locate true root = .ok place ∧ tree.HasDirectory place := by
  unfold isDirectory at directory
  split at directory
  · next entries stands =>
      unfold lookup? at stands
      split at stands
      · next place located => exact ⟨place, located, entries, stands⟩
      · cases stands
  · cases directory

/-- Shown paths point back at the file. Below the root, the path shown is relative and consists of
    the names by which the canonical path of the document goes on behind the one of the root, at
    least one; joined to the latter it is the former again, and every other spelling of the two
    shows the same. Elsewhere the path is shown that was given. Nothing is asked of the tree but
    that relative paths are followed from a place that consists of names. -/
theorem openDocument_path (here : Path.AreNames tree.here)
    (opened : tree.openDocument path root grammar = .ok doc)
    (rooted : tree.canonical? root = some top) (directory : tree.isDirectory root = true) :
    ∃ target, tree.canonical? path = some target ∧
      (Path.parts top <+: Path.parts target →
        doc.path ≠ "" ∧ Path.isAbsolute doc.path = false ∧
        (∀ part ∈ Path.parts doc.path, ∃ name, part = .name name) ∧
        Path.parts target = Path.parts top ++ Path.parts doc.path ∧
        Path.join top doc.path = target ∧
        ∀ spelling base scope other, tree.openDocument spelling base scope = .ok other →
          tree.canonical? spelling = some target → tree.canonical? base = some top →
            other.path = doc.path) ∧
      (¬ Path.parts top <+: Path.parts target → doc.path = path) := by
  obtain ⟨shown, target, content, located, stands⟩ := locate_of_openDocument opened
  obtain ⟨base, reached, entries, holds⟩ := locate_of_isDirectory directory
  have found : tree.canonical? path = some (Path.ofNames target) :=
    canonical?_eq_some_iff.mpr ⟨target, located, rfl⟩
  have from_base : tree.canonical? root = some (Path.ofNames base) :=
    canonical?_eq_some_iff.mpr ⟨base, reached, rfl⟩
  obtain rfl := Option.some.inj (from_base.symm.trans rooted)
  have proper := (isSettled_of_locate here located).1
  have base_proper := (isSettled_of_locate here reached).1
  refine ⟨Path.ofNames target, found, ?_, ?_⟩
  · intro inside
    obtain ⟨names, rfl⟩ := (Path.parts_prefix_iff base_proper proper).mp inside
    have filled : names ≠ [] := by
      rintro rfl
      rw [List.append_nil, holds] at stands
      cases stands
    have names_proper := (Path.areNames_append_iff.mp proper).2
    have shows : doc.path = String.intercalate "/" names := by
      rw [shown, displayPath_of_prefix proper found from_base]
    have pieces := Path.parts_intercalate names_proper filled
    rw [shows]
    refine ⟨?_, ?_, ?_, ?_, ?_, ?_⟩
    · intro empty
      rw [empty] at pieces
      exact filled (List.map_eq_nil_iff.mp pieces.symm)
    · exact Path.isAbsolute_intercalate names_proper filled
    · intro part member
      rw [pieces] at member
      obtain ⟨name, -, rfl⟩ := List.mem_map.mp member
      exact ⟨name, rfl⟩
    · rw [Path.parts_ofNames proper, Path.parts_ofNames base_proper, pieces]
      simp
    · exact Path.join_ofNames proper filled
    · intro spelling other_root scope other also_opened same_file same_root
      rw [(locate_of_openDocument also_opened).1]
      exact displayPath_of_prefix proper same_file same_root
  · intro outside
    rw [shown]
    exact displayPath_of_not_prefix found from_base outside

/-- A file reached through a link, in a directory whose name begins with two dots, and one in a
    directory next to the root whose name begins with that of the root. -/
theorem openDocument_path_dotted :
    let tree : FileTree :=
      { entries := [("site", .directory [("..drafts", .directory [("page.html", .file "x".toUTF8)]),
            ("now", .link "./..drafts")]),
          ("sites", .directory [("page.html", .file "y".toUTF8)])]
        here := ["site"] }
    (∃ doc, tree.openDocument "now/./page.html" "../site/now/.." none = .ok doc ∧
      doc.path ≠ "" ∧ Path.join "/site" doc.path = "/site/..drafts/page.html") ∧
    ∃ doc, tree.openDocument "../sites/page.html" "/site/" none = .ok doc ∧
      doc.path = "../sites/page.html" := by
  intro tree
  have here : Path.AreNames tree.here := by
    intro name member
    rw [List.mem_singleton.mp member]
    exact ⟨by decide, by decide, by decide, by decide⟩
  constructor
  · have opened : tree.openDocument "now/./page.html" "../site/now/.." none =
        .ok ⟨"..drafts/page.html", "x", "text.html.basic"⟩ := by
      decide +kernel
    have rooted : tree.canonical? "../site/now/.." = some "/site" := by decide +kernel
    have inside : Path.parts "/site" <+: Path.parts "/site/..drafts/page.html" := by
      decide +kernel
    obtain ⟨target, found, below, -⟩ :=
      openDocument_path here opened rooted (by decide +kernel)
    have led : tree.canonical? "now/./page.html" = some "/site/..drafts/page.html" := by
      decide +kernel
    obtain rfl := Option.some.inj (led.symm.trans found)
    obtain ⟨filled, -, -, -, joined, -⟩ := below inside
    exact ⟨_, opened, filled, joined⟩
  · have opened : tree.openDocument "../sites/page.html" "/site/" none =
        .ok ⟨"../sites/page.html", "y", "text.html.basic"⟩ := by
      decide +kernel
    have rooted : tree.canonical? "/site/" = some "/site" := by decide +kernel
    have outside : ¬ Path.parts "/site" <+: Path.parts "/sites/page.html" := by
      decide +kernel
    obtain ⟨target, found, -, elsewhere⟩ :=
      openDocument_path here opened rooted (by decide +kernel)
    have led : tree.canonical? "../sites/page.html" = some "/sites/page.html" := by
      decide +kernel
    obtain rfl := Option.some.inj (led.symm.trans found)
    exact ⟨_, opened, elsewhere outside⟩

end FileTree

end PageCheck
