import Mathlib.Data.List.Forall2
import PageCheck.Batch.Expand

/-! # What path arguments stand for

Each argument has a block of files of its own or is malformed, and what all of them stand for is
read off the arguments one by one: the first malformed one decides, and without any the blocks are
put together as they are.
-/

namespace PageCheck

namespace FileTree

/-- The argument is the path of no file, and no pattern either. -/
def IsMalformed (tree : FileTree) (argument : String) (fault : Glob.PatternFault) : Prop :=
  tree.isFile argument = false ∧ Glob.Pattern.read argument = .error fault

/-- The files that an argument stands for by itself. -/
inductive IsBlock (tree : FileTree) (argument : String) : List String → Prop where
  /-- The path of a file stands for this file, whatever it would match as a pattern. -/
  | file (isFile : tree.isFile argument = true) : IsBlock tree argument [argument]
  | pattern {pattern : Glob.Pattern} (noFile : tree.isFile argument = false)
      (read : Glob.Pattern.read argument = .ok pattern) :
      IsBlock tree argument ((pattern.paths tree).filter tree.isFile)

/-- What a list of arguments comes to. -/
inductive Expands (tree : FileTree) (arguments : List String) :
    Except Problem (List String) → Prop where
  /-- The first malformed argument decides, whatever is found before it. -/
  | malformed {before after : List String} {argument : String} {fault : Glob.PatternFault}
      (split : arguments = before ++ argument :: after)
      (sound : ∀ other ∈ before, ∃ block, tree.IsBlock other block)
      (own : tree.IsMalformed argument fault) :
      Expands tree arguments (.error (.badPattern argument fault))
  | nothing {blocks : List (List String)} (each : List.Forall₂ tree.IsBlock arguments blocks)
      (given : arguments ≠ []) (empty : ∀ block ∈ blocks, block = []) :
      Expands tree arguments (.error (.nothingMatched arguments))
  | found {blocks : List (List String)} (each : List.Forall₂ tree.IsBlock arguments blocks)
      (anything : arguments = [] ∨ ∃ block ∈ blocks, block ≠ []) :
      Expands tree arguments (.ok blocks.flatten)

variable {tree : FileTree}

theorem block_eq_ok_iff {argument : String} {block : List String} :
    tree.block argument = .ok block ↔ tree.IsBlock argument block := by
  constructor
  · intro found
    unfold FileTree.block at found
    split at found
    · next isFile =>
        cases found
        exact .file isFile
    · next noFile =>
        split at found
        · cases found
        · next read =>
            cases found
            exact .pattern (Bool.not_eq_true _ ▸ noFile) read
  · rintro (isFile | ⟨noFile, read⟩)
    · exact block_of_isFile isFile
    · simp [FileTree.block, noFile, read]

theorem block_eq_error_iff {argument : String} {problem : Problem} :
    tree.block argument = .error problem ↔
      ∃ fault, tree.IsMalformed argument fault ∧ problem = .badPattern argument fault := by
  constructor
  · intro failed
    unfold FileTree.block at failed
    split at failed
    · cases failed
    · next noFile =>
        split at failed
        · next fault read =>
            cases failed
            exact ⟨fault, ⟨Bool.not_eq_true _ ▸ noFile, read⟩, rfl⟩
        · cases failed
  · rintro ⟨fault, ⟨noFile, read⟩, rfl⟩
    simp [FileTree.block, noFile, read]

theorem mapM_block_cons (first : String) (rest : List String) :
    (first :: rest).mapM tree.block =
      match tree.block first, rest.mapM tree.block with
      | .error problem, _ => .error problem
      | .ok _, .error problem => .error problem
      | .ok block, .ok blocks => .ok (block :: blocks) := by
  rw [List.mapM_cons]
  cases tree.block first with
  | error problem => rfl
  | ok block => cases rest.mapM tree.block <;> rfl

theorem mapM_block_eq_ok_iff {arguments : List String} {blocks : List (List String)} :
    arguments.mapM tree.block = .ok blocks ↔
      List.Forall₂ tree.IsBlock arguments blocks := by
  induction arguments generalizing blocks with
  | nil =>
      rw [List.forall₂_nil_left_iff]
      constructor
      · rintro ⟨⟩
        rfl
      · rintro rfl
        rfl
  | cons first rest ih =>
      rw [mapM_block_cons, List.forall₂_cons_left_iff]
      simp only [← block_eq_ok_iff, ← ih]
      cases tree.block first with
      | error problem => simp
      | ok block =>
          cases rest.mapM tree.block with
          | error problem => simp
          | ok others => simp [eq_comm]

theorem mapM_block_eq_error_iff {arguments : List String} {problem : Problem} :
    arguments.mapM tree.block = .error problem ↔
      ∃ before argument after fault, arguments = before ++ argument :: after ∧
        (∀ other ∈ before, ∃ block, tree.IsBlock other block) ∧
        tree.IsMalformed argument fault ∧ problem = .badPattern argument fault := by
  induction arguments with
  | nil =>
      constructor
      · rintro ⟨⟩
      · rintro ⟨before, argument, after, fault, split, -⟩
        cases before <;> cases split
  | cons first rest ih =>
      rw [mapM_block_cons]
      constructor
      · intro failed
        cases own : tree.block first with
        | error found =>
            simp only [own, Except.error.injEq] at failed
            obtain ⟨fault, malformed, rfl⟩ := block_eq_error_iff.mp (failed ▸ own)
            exact ⟨[], first, rest, fault, rfl, List.forall_mem_nil _, malformed, rfl⟩
        | ok block =>
            cases others : rest.mapM tree.block with
            | ok blocks => simp [own, others] at failed
            | error found =>
                simp only [own, others, Except.error.injEq] at failed
                obtain ⟨before, argument, after, fault, rfl, sound, malformed, rfl⟩ :=
                  ih.mp (failed ▸ others)
                refine ⟨first :: before, argument, after, fault, rfl, ?_, malformed, rfl⟩
                exact List.forall_mem_cons.mpr ⟨⟨block, block_eq_ok_iff.mp own⟩, sound⟩
      · rintro ⟨before, argument, after, fault, split, sound, malformed, rfl⟩
        cases before with
        | nil =>
            obtain ⟨rfl, rfl⟩ := List.cons.inj split
            simp only [block_eq_error_iff.mpr ⟨fault, malformed, rfl⟩]
        | cons other before =>
            obtain ⟨rfl, rfl⟩ := List.cons.inj split
            obtain ⟨⟨block, own⟩, sound⟩ := List.forall_mem_cons.mp sound
            have later := ih.mpr ⟨before, argument, after, fault, rfl, sound, malformed, rfl⟩
            simp only [block_eq_ok_iff.mpr own, later]

theorem expand_eq (arguments : List String) :
    tree.expand arguments =
      match arguments.mapM tree.block with
      | .error problem => .error problem
      | .ok blocks =>
          if (∀ block ∈ blocks, block = []) ∧ arguments ≠ [] then
            .error (.nothingMatched arguments)
          else .ok blocks.flatten := by
  unfold expand
  cases arguments.mapM tree.block with
  | error problem => rfl
  | ok blocks =>
      have empty : (blocks.flatten.isEmpty && !arguments.isEmpty) = true ↔
          (∀ block ∈ blocks, block = []) ∧ arguments ≠ [] := by
        simp
      simp only [bind, Except.bind, empty]
      split <;> rfl

theorem expands_expand (arguments : List String) :
    tree.Expands arguments (tree.expand arguments) := by
  rw [expand_eq]
  cases collected : arguments.mapM tree.block with
  | error problem =>
      obtain ⟨before, argument, after, fault, split, sound, own, rfl⟩ :=
        mapM_block_eq_error_iff.mp collected
      exact .malformed split sound own
  | ok blocks =>
      have each := mapM_block_eq_ok_iff.mp collected
      dsimp only
      split
      · next nothing => exact .nothing each nothing.2 nothing.1
      · next found =>
          refine .found each ?_
          by_contra missing
          push Not at missing
          exact found ⟨missing.2, missing.1⟩

theorem Expands.expand_eq {arguments : List String} {result : Except Problem (List String)}
    (expands : tree.Expands arguments result) : tree.expand arguments = result := by
  rw [FileTree.expand_eq]
  cases expands with
  | malformed split sound own =>
      rw [mapM_block_eq_error_iff.mpr ⟨_, _, _, _, split, sound, own, rfl⟩]
  | nothing each given empty =>
      rw [mapM_block_eq_ok_iff.mpr each]
      exact if_pos ⟨empty, given⟩
  | found each anything =>
      rw [mapM_block_eq_ok_iff.mpr each]
      apply if_neg
      rintro ⟨empty, given⟩
      rcases anything with rfl | ⟨block, member, full⟩
      · exact given rfl
      · exact full (empty block member)

theorem IsBlock.isFile {argument file : String} {block : List String}
    (own : tree.IsBlock argument block) (member : file ∈ block) : tree.isFile file = true :=
  isFile_of_mem_block (block_eq_ok_iff.mpr own) member

theorem isFile_of_forall₂ {arguments : List String} {blocks : List (List String)}
    (each : List.Forall₂ tree.IsBlock arguments blocks) {block : List String}
    (own : block ∈ blocks) {file : String} (member : file ∈ block) : tree.isFile file = true := by
  induction each with
  | nil => cases own
  | cons first _ ih =>
      rcases List.mem_cons.mp own with rfl | later
      · exact first.isFile member
      · exact ih later

theorem isFile_of_expand {arguments files : List String}
    (found : tree.expand arguments = .ok files) {file : String} (member : file ∈ files) :
    tree.isFile file = true := by
  have expands : tree.Expands arguments (tree.expand arguments) := expands_expand arguments
  rw [found] at expands
  cases expands with
  | @found blocks each =>
      obtain ⟨block, own, inside⟩ := List.mem_flatten.mp member
      exact isFile_of_forall₂ each own inside

/-- Arguments come to the problem of the first malformed one, to a problem of their own if they
    stand for no file at all, and else to their blocks one after another. They come to nothing else,
    and what they stand for are files. -/
theorem expand_eq_iff (tree : FileTree) (arguments : List String) :
    (∀ result, tree.expand arguments = result ↔ tree.Expands arguments result) ∧
      ∀ files, tree.expand arguments = .ok files → ∀ file ∈ files, tree.isFile file = true := by
  constructor
  · intro result
    constructor
    · rintro rfl
      exact expands_expand arguments
    · exact Expands.expand_eq
  · intro files found file member
    exact isFile_of_expand found member

/-- The name of the first file is no pattern at all, and the directory stands for no file. -/
theorem expand_eq_iff_bracket :
    let sheet := Node.file .empty
    let tree : FileTree := ⟨[("[", sheet), ("css", .directory [("a.css", sheet)])], []⟩
    let files := ["[", "css/a.css", "["]
    tree.expand ["[", "css", "css/a.css", "["] = .ok files ∧
      tree.Expands ["[", "css", "css/a.css", "["] (.ok files) ∧
      ∀ file ∈ files, tree.isFile file = true := by
  intro sheet tree files
  have found : tree.expand ["[", "css", "css/a.css", "["] = .ok files := by decide +kernel
  obtain ⟨expanded, regular⟩ := expand_eq_iff tree ["[", "css", "css/a.css", "["]
  exact ⟨found, (expanded (.ok files)).mp found, regular files found⟩

-- What arguments stand for can be given as arguments again. A path is looked up before it is read
-- as a pattern, so it does not matter which characters the names of the files have.

theorem forall₂_isBlock_files {files : List String}
    (regular : ∀ file ∈ files, tree.isFile file = true) :
    List.Forall₂ tree.IsBlock files (files.map fun file => [file]) := by
  rw [List.forall₂_map_right_iff, List.forall₂_same]
  intro file member
  exact .file (regular file member)

theorem expand_eq_self {files : List String}
    (regular : ∀ file ∈ files, tree.isFile file = true) : tree.expand files = .ok files := by
  have each := forall₂_isBlock_files regular
  have anything : files = [] ∨ ∃ block ∈ files.map fun file => [file], block ≠ [] := by
    cases files with
    | nil => exact .inl rfl
    | cons first rest => exact .inr ⟨[first], by simp, List.cons_ne_nil _ _⟩
  have expanded := (Expands.found each anything).expand_eq
  rwa [← List.flatMap_def, List.flatMap_singleton'] at expanded

/-- What a list of arguments comes to does not change when it is expanded again, and what does not
    change when it is expanded are the lists of files. -/
theorem expand_idempotent (tree : FileTree) :
    (∀ arguments files, tree.expand arguments = .ok files → tree.expand files = .ok files) ∧
      ∀ files, tree.expand files = .ok files ↔ ∀ file ∈ files, tree.isFile file = true := by
  constructor
  · intro arguments files found
    exact expand_eq_self fun _ => isFile_of_expand found
  · intro files
    constructor
    · intro fixed file
      exact isFile_of_expand fixed
    · exact expand_eq_self

/-- Read as patterns, the first file would be malformed and the second would match a third one. -/
theorem expand_idempotent_wildcards :
    let sheet := Node.file .empty
    let tree : FileTree :=
      ⟨[("*", sheet), ("a.css", sheet), ("css", .directory [("[", sheet)])], []⟩
    let files := ["css/[", "*", "css/["]
    tree.expand ["css/*", "*", "css/[[]"] = .ok files ∧ tree.expand files = .ok files := by
  intro sheet tree files
  have found : tree.expand ["css/*", "*", "css/[[]"] = .ok files := by decide +kernel
  obtain ⟨again, -⟩ := expand_idempotent tree
  exact ⟨found, again ["css/*", "*", "css/[[]"] files found⟩

end FileTree

end PageCheck
