import Mathlib.Data.List.Find
import PageCheck.Proofs.FileTree.Parents
import PageCheck.Settings.Basic

/-! # Where settings come from

One directory and one file in it decide on the settings. The directory is the nearest one, from the
start upwards, that holds one of four names; the file is the first of three names that exists there.
Nothing else in a file tree has any influence, and whatever is wrong with this one file is a problem
and no reason to look elsewhere.
-/

namespace PageCheck

namespace FileTree

/-- The names of settings files, the preferred one first. -/
def settingsNames : List String :=
  ["w3c-validation.toml", "w3c-validation.yaml", "w3c-validation.yml"]

/-- The notation of the settings file with the given name. -/
def formatOf (name : String) : SettingsFormat :=
  if name = "w3c-validation.toml" then .toml else .yaml

def start (tree : FileTree) (overrides : Overrides) : String :=
  tree.canonicalOr (overrides.repoRoot.getD ".")

/-- The directory holds one of the names that make it a project root. -/
def IsMarked (tree : FileTree) (path : String) : Prop :=
  ∃ name ∈ settingsNames ++ [".git"], tree.has (Path.join path name) = true

/-- The directory is the project root for a starting path. -/
inductive IsRootFrom (tree : FileTree) (start : String) : String → Prop where
  | nearest {steps : Nat} {root : String} (reached : Path.above? steps start = some root)
      (marked : tree.IsMarked root)
      (unmarked : ∀ nearer < steps, ∀ lower,
        Path.above? nearer start = some lower → ¬ tree.IsMarked lower) :
      IsRootFrom tree start root
  | start (unmarked : ∀ steps path, Path.above? steps start = some path → ¬ tree.IsMarked path) :
      IsRootFrom tree start start

/-- The first name of a settings file that exists in a directory. -/
def settingsName? (tree : FileTree) (root : String) : Option String :=
  settingsNames.find? fun name => tree.has (Path.join root name)

/-- What the settings of a directory come to. -/
inductive LoadsFrom (tree : FileTree) (root : String) :
    Except Problem (Option SettingsFile) → Prop where
  | absent (missing : tree.settingsName? root = none) : LoadsFrom tree root (.ok none)
  | unreadable {name : String} {fault : Fault} (first : tree.settingsName? root = some name)
      (read : tree.readText (Path.join root name) = .error fault) :
      LoadsFrom tree root (.error (.unreadableSettings (Path.join root name) fault))
  | malformed {name text : String} (first : tree.settingsName? root = some name)
      (read : tree.readText (Path.join root name) = .ok text)
      (parsed : (formatOf name).read? text = none) :
      LoadsFrom tree root (.error (.malformedSettings (Path.join root name) "malformed content"))
  | loaded {name text : String} {file : SettingsFile}
      (first : tree.settingsName? root = some name)
      (read : tree.readText (Path.join root name) = .ok text)
      (parsed : (formatOf name).read? text = some file) :
      LoadsFrom tree root (.ok (some file))

/-- All that settings can see of a tree is the same in another one: where the search begins, which
    of the four names exist on the way upwards, and the text, or the fault, of the one file. -/
structure AlikeFor (tree other : FileTree) (overrides : Overrides) : Prop where
  start_eq : tree.start overrides = other.start overrides
  has_eq : ∀ steps path, Path.above? steps (tree.start overrides) = some path →
    ∀ name ∈ settingsNames ++ [".git"],
      tree.has (Path.join path name) = other.has (Path.join path name)
  readText_eq : ∀ root name, tree.IsRootFrom (tree.start overrides) root →
    tree.settingsName? root = some name →
      tree.readText (Path.join root name) = other.readText (Path.join root name)

variable {tree other : FileTree} {overrides : Overrides} {origin root : String}

theorem isProjectRoot_iff {path : String} :
    tree.isProjectRoot path = true ↔ tree.IsMarked path := by
  simp [isProjectRoot, IsMarked, settingsFiles, settingsNames, or_assoc]

theorem find?_isProjectRoot_eq_some_iff :
    (origin :: Path.parents origin).find? tree.isProjectRoot = some root ↔
      ∃ steps, Path.above? steps origin = some root ∧ tree.IsMarked root ∧
        ∀ nearer < steps, ∀ lower,
          Path.above? nearer origin = some lower → ¬ tree.IsMarked lower := by
  rw [List.find?_eq_some_iff_getElem]
  simp only [Path.above?_eq, ← isProjectRoot_iff]
  constructor
  · rintro ⟨marked, steps, bound, rfl, before⟩
    refine ⟨steps, List.getElem?_eq_getElem bound, marked, ?_⟩
    intro nearer fewer lower reached
    obtain ⟨_, rfl⟩ := List.getElem?_eq_some_iff.mp reached
    simpa using before nearer fewer
  · rintro ⟨steps, reached, marked, before⟩
    obtain ⟨bound, rfl⟩ := List.getElem?_eq_some_iff.mp reached
    refine ⟨marked, steps, bound, rfl, ?_⟩
    intro nearer fewer
    have unmarked := before nearer fewer _
      (List.getElem?_eq_getElem (Nat.lt_trans fewer bound))
    simpa using unmarked

theorem find?_isProjectRoot_eq_none_iff :
    (origin :: Path.parents origin).find? tree.isProjectRoot = none ↔
      ∀ steps path, Path.above? steps origin = some path → ¬ tree.IsMarked path := by
  simp only [List.find?_eq_none, isProjectRoot_iff, ← Path.exists_above?_iff]
  constructor
  · intro unmarked steps path reached
    exact unmarked path ⟨steps, reached⟩
  · rintro unmarked path ⟨steps, reached⟩
    exact unmarked steps path reached

theorem projectRoot_eq_iff : tree.projectRoot origin = root ↔ tree.IsRootFrom origin root := by
  unfold projectRoot
  constructor
  · rintro rfl
    cases found : (origin :: Path.parents origin).find? tree.isProjectRoot with
    | none => exact .start (find?_isProjectRoot_eq_none_iff.mp found)
    | some root =>
        obtain ⟨steps, reached, marked, unmarked⟩ := find?_isProjectRoot_eq_some_iff.mp found
        exact .nearest reached marked unmarked
  · intro isRoot
    cases isRoot with
    | nearest reached marked unmarked =>
        rw [find?_isProjectRoot_eq_some_iff.mpr ⟨_, reached, marked, unmarked⟩]
        rfl
    | start unmarked =>
        rw [find?_isProjectRoot_eq_none_iff.mpr unmarked]
        rfl

theorem IsRootFrom.exists_above? (isRoot : tree.IsRootFrom origin root) :
    ∃ steps, Path.above? steps origin = some root := by
  cases isRoot with
  | nearest reached => exact ⟨_, reached⟩
  | start => exact ⟨0, rfl⟩

theorem settingsFile?_eq :
    tree.settingsFile? root =
      (tree.settingsName? root).map fun name => (Path.join root name, formatOf name) := by
  have listed : settingsFiles = settingsNames.map fun name => (name, formatOf name) := by
    decide
  rw [settingsFile?, listed, List.map_map, List.find?_map]
  rfl

theorem loadSettings_eq_iff {loaded : Except Problem (Option SettingsFile)} :
    tree.loadSettings root = loaded ↔ tree.LoadsFrom root loaded := by
  constructor
  · rintro rfl
    unfold loadSettings
    rw [settingsFile?_eq]
    cases first : tree.settingsName? root with
    | none => exact .absent first
    | some name =>
        cases read : tree.readText (Path.join root name) with
        | error fault =>
            simp only [Option.map_some, read]
            exact .unreadable first read
        | ok text =>
            cases parsed : (formatOf name).read? text with
            | none =>
                simp only [Option.map_some, read, parsed]
                exact .malformed first read parsed
            | some file =>
                simp only [Option.map_some, read, parsed]
                exact .loaded first read parsed
  · intro loads
    unfold loadSettings
    rw [settingsFile?_eq]
    cases loads with
    | absent missing => simp only [missing, Option.map_none]
    | unreadable first read => simp only [first, Option.map_some, read]
    | malformed first read parsed => simp only [first, Option.map_some, read, parsed]
    | loaded first read parsed => simp only [first, Option.map_some, read, parsed]

theorem settings_eq_iff {result : Except Problem Settings} :
    tree.settings overrides = result ↔
      ∃ root loaded, tree.IsRootFrom (tree.start overrides) root ∧ tree.LoadsFrom root loaded ∧
        loaded.bind (Settings.merge root overrides) = result := by
  simp only [← projectRoot_eq_iff, ← loadSettings_eq_iff]
  constructor
  · rintro rfl
    exact ⟨_, _, rfl, rfl, rfl⟩
  · rintro ⟨_, _, rfl, rfl, rfl⟩
    rfl

theorem settingsName?_eq_none_iff :
    tree.settingsName? root = none ↔
      ∀ name ∈ settingsNames, tree.has (Path.join root name) = false := by
  simp [settingsName?, List.find?_eq_none]

namespace AlikeFor

variable (alike : tree.AlikeFor other overrides)

include alike

theorem isMarked_iff {steps : Nat} {path : String}
    (reached : Path.above? steps (tree.start overrides) = some path) :
    tree.IsMarked path ↔ other.IsMarked path := by
  unfold IsMarked
  apply exists_congr
  intro name
  apply and_congr_right
  intro listed
  rw [alike.has_eq steps path reached name listed]

theorem isRootFrom (isRoot : tree.IsRootFrom (tree.start overrides) root) :
    other.IsRootFrom (other.start overrides) root := by
  rw [← alike.start_eq]
  cases isRoot with
  | nearest reached marked unmarked =>
      refine .nearest reached ((alike.isMarked_iff reached).mp marked) ?_
      intro nearer fewer lower below
      rw [← alike.isMarked_iff below]
      exact unmarked nearer fewer lower below
  | start unmarked =>
      refine .start ?_
      intro steps path reached
      rw [← alike.isMarked_iff reached]
      exact unmarked steps path reached

theorem settingsName?_eq (isRoot : tree.IsRootFrom (tree.start overrides) root) :
    tree.settingsName? root = other.settingsName? root := by
  obtain ⟨steps, reached⟩ := isRoot.exists_above?
  apply List.find?_congr
  intro name listed
  exact alike.has_eq steps root reached name (List.mem_append_left _ listed)

theorem loadsFrom (isRoot : tree.IsRootFrom (tree.start overrides) root)
    {loaded : Except Problem (Option SettingsFile)} (loads : tree.LoadsFrom root loaded) :
    other.LoadsFrom root loaded := by
  have names := alike.settingsName?_eq isRoot
  cases loads with
  | absent missing => exact .absent (names.symm.trans missing)
  | unreadable first read =>
      exact .unreadable (names.symm.trans first)
        ((alike.readText_eq root _ isRoot first).symm.trans read)
  | malformed first read parsed =>
      exact .malformed (names.symm.trans first)
        ((alike.readText_eq root _ isRoot first).symm.trans read) parsed
  | loaded first read parsed =>
      exact .loaded (names.symm.trans first)
        ((alike.readText_eq root _ isRoot first).symm.trans read) parsed

end AlikeFor

/-- With a `.git` on the way upwards, and no settings file below it or next to it, there is no
    settings file at all, whatever stands further up. -/
theorem settings_of_git {steps : Nat} {path : String}
    (reached : Path.above? steps (tree.start overrides) = some path)
    (git : tree.has (Path.join path ".git") = true)
    (bare : ∀ nearer ≤ steps, ∀ lower, Path.above? nearer (tree.start overrides) = some lower →
      ∀ name ∈ settingsNames, tree.has (Path.join lower name) = false) :
    ∃ nearer ≤ steps, ∃ root, Path.above? nearer (tree.start overrides) = some root ∧
      tree.settings overrides = Settings.merge root overrides none := by
  have marked : tree.IsMarked path := ⟨".git", by simp, git⟩
  have isRoot := projectRoot_eq_iff.mp (Eq.refl (tree.projectRoot (tree.start overrides)))
  generalize tree.projectRoot (tree.start overrides) = root at isRoot
  have absent (nearer : Nat) (close : nearer ≤ steps)
      (found : Path.above? nearer (tree.start overrides) = some root) :
      tree.settings overrides = Settings.merge root overrides none := by
    have missing := settingsName?_eq_none_iff.mpr (bare nearer close root found)
    exact settings_eq_iff.mpr ⟨root, _, isRoot, .absent missing, rfl⟩
  cases isRoot with
  | @nearest nearer _ found _ unmarked =>
      have close : nearer ≤ steps := by
        by_contra further
        exact unmarked steps (by omega) path reached marked
      exact ⟨nearer, close, root, found, absent nearer close found⟩
  | start unmarked => exact absurd marked (unmarked steps path reached)

/-- Settings come from one place. The project root is the first directory with one of the four names
    on the way upwards, which ends, or the start if there is none; what its first settings file
    comes to, be it a problem, is all that the command line is merged with. A tree with the same
    start, the same names on the way upwards and the same text or fault of that one file has the
    same settings; and nothing beyond a `.git` is ever taken for a settings file. -/
theorem settings_from_one_place (tree : FileTree) (overrides : Overrides) :
    (∀ origin, (∃ steps, Path.above? steps origin = none) ∧
      ∀ root, tree.projectRoot origin = root ↔ tree.IsRootFrom origin root) ∧
    (∀ result, tree.settings overrides = result ↔
      ∃ root loaded, tree.IsRootFrom (tree.start overrides) root ∧ tree.LoadsFrom root loaded ∧
        loaded.bind (Settings.merge root overrides) = result) ∧
    (∀ other : FileTree, tree.AlikeFor other overrides →
      tree.settings overrides = other.settings overrides) ∧
    ∀ steps path, Path.above? steps (tree.start overrides) = some path →
      tree.has (Path.join path ".git") = true →
      (∀ nearer ≤ steps, ∀ lower, Path.above? nearer (tree.start overrides) = some lower →
        ∀ name ∈ settingsNames, tree.has (Path.join lower name) = false) →
      ∃ nearer ≤ steps, ∃ root, Path.above? nearer (tree.start overrides) = some root ∧
        tree.settings overrides = Settings.merge root overrides none := by
  refine ⟨?_, ?_, ?_, ?_⟩
  · intro origin
    exact ⟨Path.exists_above?_eq_none origin, fun root => projectRoot_eq_iff⟩
  · intro result
    exact settings_eq_iff
  · intro other alike
    obtain ⟨root, loaded, isRoot, loads, merged⟩ :=
      settings_eq_iff.mp (Eq.refl (tree.settings overrides))
    rw [← merged]
    exact (settings_eq_iff.mpr
      ⟨root, loaded, alike.isRootFrom isRoot, alike.loadsFrom isRoot loads, rfl⟩).symm
  · intro steps path reached git bare
    exact settings_of_git reached git bare

/-- The search begins in a directory of a site. Of the settings files that exist, only the preferred
    one of the site is looked at, and next to a `.git` none of those further up. -/
theorem settings_from_one_place_site :
    let site (second outer : String) : FileTree :=
      { entries := [("site", .directory [("css", .directory []),
            ("w3c-validation.toml", .file "output = \"json\"".toUTF8),
            ("w3c-validation.yml", .file second.toUTF8)]),
          ("w3c-validation.yaml", .file outer.toUTF8)]
        here := ["site", "css"] }
    let repository : FileTree :=
      { entries := [("site", .directory [("css", .directory []), (".git", .directory [])]),
          ("w3c-validation.yaml", .file "output: json".toUTF8)]
        here := ["site", "css"] }
    (site "" "").AlikeFor (site "[" "output: xml") {} ∧
      (site "" "").settings {} = (site "[" "output: xml").settings {} ∧
      ∃ root, repository.settings {} = Settings.merge root {} none := by
  intro site repository
  have upwards : "/site/css" :: Path.parents "/site/css" = ["/site/css", "/site", "/"] := by
    decide +kernel
  have alike : (site "" "").AlikeFor (site "[" "output: xml") {} :=
    { start_eq := by decide +kernel
      has_eq := by
        have begins : (site "" "").start {} = "/site/css" := by decide +kernel
        have same : ∀ path ∈ ["/site/css", "/site", "/"], ∀ name ∈ settingsNames ++ [".git"],
            (site "" "").has (Path.join path name) =
              (site "[" "output: xml").has (Path.join path name) := by
          decide +kernel
        intro steps path reached
        rw [begins] at reached
        have above := Path.exists_above?_iff.mp ⟨steps, reached⟩
        rw [upwards] at above
        exact same path above
      readText_eq := by
        intro root name isRoot first
        have found : (site "" "").projectRoot ((site "" "").start {}) = "/site" := by
          decide +kernel
        obtain rfl := found.symm.trans (projectRoot_eq_iff.mpr isRoot)
        have preferred : (site "" "").settingsName? "/site" = some "w3c-validation.toml" := by
          decide +kernel
        obtain rfl := Option.some.inj (preferred.symm.trans first)
        decide +kernel }
  refine ⟨alike, (settings_from_one_place (site "" "") {}).2.2.1 _ alike, ?_⟩
  have begins : repository.start {} = "/site/css" := by decide +kernel
  have bare : ∀ lower ∈ ["/site/css", "/site", "/"].take 2, ∀ name ∈ settingsNames,
      repository.has (Path.join lower name) = false := by
    decide +kernel
  have upper : Path.above? 1 (repository.start {}) = some "/site" := by
    rw [begins, Path.above?_eq, upwards]
    rfl
  have hidden := (settings_from_one_place repository {}).2.2.2 1 "/site" upper (by decide +kernel)
  obtain ⟨-, -, root, -, merged⟩ := hidden (by
    intro nearer close lower reached
    rw [begins, Path.above?_eq, upwards] at reached
    refine bare lower (List.mem_of_getElem? (i := nearer) ?_)
    rw [List.getElem?_take_of_lt (by omega), reached])
  exact ⟨root, merged⟩

end FileTree

end PageCheck
