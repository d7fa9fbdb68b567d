import Mathlib.Data.List.Basic
import Mathlib.Data.List.TakeWhile
import PageCheck.CommandLine.Reader

/-! # The spellings of arguments

The arguments of the `validate` command can be written down in many ways: the options in any order,
with the value behind an equals sign or as an argument of its own, before, between and behind the
paths. However they are written, they are read as what they are.

A value that follows its option is settled only when the next argument comes, so that the reader
lags behind. What it goes on to read depends on what is settled by then, and on nothing else.
-/

namespace PageCheck.CommandLine

/-- A text that does not begin with a dash. -/
def Undashed (text : String) : Prop :=
  text.toList.head? ≠ some '-'

instance : DecidablePred Undashed :=
  fun text => inferInstanceAs (Decidable (text.toList.head? ≠ some '-'))

/-- What belongs together on a command line. -/
inductive Piece where
  | path (text : String)
  /-- An option with its value behind an equals sign. -/
  | joined (name : OptionName) (value : String)
  /-- An option, and its value as the next argument. -/
  | apart (name : OptionName) (value : String)

namespace Piece

def words : Piece → List String
  | path text => [text]
  | joined name value => ["--" ++ name.text ++ "=" ++ value]
  | apart name value => ["--" ++ name.text, value]

/-- What stands alone does not begin with a dash. -/
def IsPlain : Piece → Prop
  | path text => Undashed text
  | joined _ _ => True
  | apart _ value => Undashed value

instance : DecidablePred IsPlain
  | path text => inferInstanceAs (Decidable (Undashed text))
  | joined _ _ => .isTrue trivial
  | apart _ value => inferInstanceAs (Decidable (Undashed value))

def path? : Piece → Option String
  | path text => some text
  | joined _ _ | apart _ _ => none

/-- The value that a piece gives to an option. -/
def value? (piece : Piece) (option : OptionName) : Option String :=
  match piece with
  | path _ => none
  | joined name value | apart name value => if name = option then some value else none

def give (arguments : Arguments) : Piece → Arguments
  | path text => arguments.addPaths [text]
  | joined name value | apart name value => arguments.set name value

end Piece

/-- The end of a command line: nothing, or paths of any kind behind two dashes. -/
inductive IsEnding : List String → List String → Prop where
  | nothing : IsEnding [] []
  | escaped (paths : List String) : IsEnding paths ("--" :: paths)

/-- Pieces and an ending give the arguments, of which some are settled before. -/
structure Completes (settled : Arguments) (pieces : List Piece) (last : List String)
    (arguments : Arguments) : Prop where
  paths_eq : arguments.paths = settled.paths ++ pieces.filterMap Piece.path? ++ last
  /-- Every option that is given is given once. -/
  values_eq : ∀ name, (arguments.get name).toList =
    (settled.get name).toList ++ pieces.filterMap (·.value? name)

/-- The line spells the arguments. -/
inductive Arguments.SpelledBy (arguments : Arguments) : List String → Prop where
  | pieces {pieces : List Piece} {last ending : List String}
      (plain : ∀ piece ∈ pieces, piece.IsPlain) (ends : IsEnding last ending)
      (given : Completes {} pieces last arguments) :
      SpelledBy arguments (pieces.flatMap Piece.words ++ ending)

variable {text value : String} {name : OptionName} {settled arguments : Arguments}
  {piece : Piece} {pieces : List Piece} {line last : List String}

theorem formOf_of_undashed (undashed : Undashed text) : formOf text = .plain := by
  unfold formOf
  split
  · next characters => exact absurd (by rw [characters]; rfl) undashed
  · next characters => exact absurd (by rw [characters]; rfl) undashed
  · next characters => exact absurd (by rw [characters]; rfl) undashed
  · rfl

theorem formOf_dashes {rest : List Char} (characters : text.toList = '-' :: '-' :: rest)
    (filled : rest ≠ []) :
    formOf text =
      match rest.dropWhile (· ≠ '=') with
      | [] => .long (String.ofList (rest.takeWhile (· ≠ '='))) none
      | _ :: value =>
          .long (String.ofList (rest.takeWhile (· ≠ '='))) (some (String.ofList value)) := by
  rw [formOf, characters]
  cases rest with
  | nil => exact absurd rfl filled
  | cons c rest => rfl

theorem ne_equals_of_not_mem {characters : List Char} (whole : '=' ∉ characters) :
    ∀ c ∈ characters, decide (c ≠ '=') = true := by
  intro c member
  exact decide_eq_true fun same => whole (same ▸ member)

theorem formOf_joined (whole : '=' ∉ text.toList) (value : String) :
    formOf ("--" ++ text ++ "=" ++ value) = .long text (some value) := by
  have characters : ("--" ++ text ++ "=" ++ value).toList =
      '-' :: '-' :: (text.toList ++ '=' :: value.toList) := by simp
  have passed := ne_equals_of_not_mem whole
  rw [formOf_dashes characters (by simp), List.takeWhile_append_of_pos passed,
    List.dropWhile_append_of_pos passed, List.takeWhile_cons_of_neg (by simp),
    List.dropWhile_cons_of_neg (by simp), List.append_nil, String.ofList_toList]
  dsimp only
  rw [String.ofList_toList]

theorem formOf_apart (whole : '=' ∉ text.toList) (filled : text ≠ "") :
    formOf ("--" ++ text) = .long text none := by
  have characters : ("--" ++ text).toList = '-' :: '-' :: text.toList := by simp
  have passed := ne_equals_of_not_mem whole
  rw [formOf_dashes characters (by simpa using filled), List.takeWhile_eq_self_iff.mpr passed,
    List.dropWhile_eq_nil_iff.mpr passed, String.ofList_toList]

theorem OptionName.equals_not_mem_text (name : OptionName) : '=' ∉ name.text.toList := by
  cases name <;> decide

theorem OptionName.text_ne_help (name : OptionName) : name.text ≠ "help" := by
  cases name <;> decide

theorem OptionName.text_ne_empty (name : OptionName) : name.text ≠ "" := by
  cases name <;> decide

theorem readArguments_option {argument : String} {given : Option String}
    (form : formOf argument = .long name.text given) :
    readArguments settled .none (argument :: line) =
      given.elim (readArguments settled (.waiting name) line) fun value =>
        .after (store settled name value) fun stored => readArguments stored .none line := by
  rw [readArguments.eq_def]
  dsimp only
  rw [form]
  split
  · next same => cases same
  · next same => cases same
  · next same => cases same
  · next same => exact absurd (Form.long.inj same).1 name.text_ne_help
  · next same => exact absurd (Form.long.inj same).1 name.text_ne_help
  · next same =>
      cases same
      rw [OptionName.ofText?_text]
      cases given <;> rfl

/-- What is read depends only on what is settled, if no option waits for its value. -/
theorem readArguments_of_settle {pending : Pending} {next : Arguments}
    (settles : settle settled pending = .ok next) (line : List String) :
    readArguments settled pending line = readArguments next .none line := by
  have settled_next : settle next .none = .ok next := rfl
  cases line with
  | nil => rw [readArguments, readArguments, settles, settled_next]
  | cons argument rest =>
      rw [readArguments.eq_def, readArguments.eq_def next]
      dsimp only
      simp only [settles, settled_next, Reading.after]
      -- The cases of the next argument look at what is pending only to tell whether an option
      -- waits, and one that waits cannot be settled.
      cases pending with
      | waiting name => cases settles
      | none | given name value => rfl

theorem store_of_get_eq_none (fresh : settled.get name = none) (value : String) :
    store settled name value = .ok (settled.set name value) := by
  rw [store, fresh]
  rfl

theorem readArguments_plain (undashed : Undashed text) (line : List String) :
    readArguments settled .none (text :: line) =
      readArguments (settled.addPaths [text]) .none line := by
  rw [readArguments.eq_def]
  dsimp only
  rw [formOf_of_undashed undashed]
  rfl

theorem readArguments_waiting (undashed : Undashed value) (line : List String) :
    readArguments settled (.waiting name) (value :: line) =
      readArguments settled (.given name value) line := by
  rw [readArguments.eq_def]
  dsimp only
  rw [formOf_of_undashed undashed]

/-- A piece is read as what it gives, if its option has not been given before. -/
theorem readArguments_piece (plain : piece.IsPlain)
    (fresh : ∀ name value, piece.value? name = some value → settled.get name = none)
    (line : List String) :
    readArguments settled .none (piece.words ++ line) =
      readArguments (piece.give settled) .none line := by
  cases piece with
  | path text => exact readArguments_plain plain line
  | joined name value =>
      have form := formOf_joined name.equals_not_mem_text value
      have stored := store_of_get_eq_none (fresh name value (if_pos rfl)) value
      exact (readArguments_option form).trans (by rw [Option.elim_some, stored]; rfl)
  | apart name value =>
      have form := formOf_apart name.equals_not_mem_text name.text_ne_empty
      have settles : settle settled (.given name value) = .ok (settled.set name value) :=
        store_of_get_eq_none (fresh name value (if_pos rfl)) value
      calc
        readArguments settled .none (("--" ++ name.text) :: value :: line)
          = readArguments settled (.waiting name) (value :: line) := readArguments_option form
        _ = readArguments settled (.given name value) line := readArguments_waiting plain line
        _ = readArguments (settled.set name value) .none line :=
          readArguments_of_settle settles line

theorem readArguments_ending {ending : List String} (ends : IsEnding last ending) :
    readArguments settled .none ending = .command (.validate (settled.addPaths last)) := by
  cases ends with
  | nothing =>
      have same : settled.addPaths [] = settled := Arguments.ext_get (by simp) (by simp)
      rw [same]
      rfl
  | escaped paths => rfl

theorem Piece.paths_give (settled : Arguments) (piece : Piece) :
    (piece.give settled).paths = settled.paths ++ piece.path?.toList := by
  cases piece <;> simp [give, path?]

theorem Piece.get_give (fresh : ∀ name value, piece.value? name = some value →
    settled.get name = none) (name : OptionName) :
    ((piece.give settled).get name).toList =
      (settled.get name).toList ++ (piece.value? name).toList := by
  cases piece with
  | path text => simp [give, value?]
  | joined own value | apart own value =>
      by_cases same : own = name
      · subst same
        have unset := fresh own value (if_pos rfl)
        simp [give, value?, unset]
      · simp [give, value?, same, Arguments.get_set_of_ne settled (Ne.symm same)]

theorem filterMap_cons_eq {α β : Type} (f : α → Option β) (a : α) (rest : List α) :
    (a :: rest).filterMap f = (f a).toList ++ rest.filterMap f := by
  simp only [List.filterMap_eq_flatMap_toList, List.flatMap_cons]

namespace Completes

theorem fresh (completes : Completes settled (piece :: pieces) last arguments)
    (name : OptionName) (value : String) (gives : piece.value? name = some value) :
    settled.get name = none := by
  have values := completes.values_eq name
  rw [filterMap_cons_eq, gives] at values
  cases own : settled.get name with
  | none => rfl
  | some first =>
      cases given : arguments.get name <;> simp [own, given] at values

theorem give (completes : Completes settled (piece :: pieces) last arguments) :
    Completes (piece.give settled) pieces last arguments where
  paths_eq := by
    rw [completes.paths_eq, Piece.paths_give, filterMap_cons_eq]
    simp only [List.append_assoc]
  values_eq name := by
    rw [completes.values_eq, Piece.get_give completes.fresh, filterMap_cons_eq,
      List.append_assoc]

theorem eq_addPaths (completes : Completes settled [] last arguments) :
    arguments = settled.addPaths last := by
  apply Arguments.ext_get
  · simpa using completes.paths_eq
  · intro name
    have values := completes.values_eq name
    rw [List.filterMap_nil, List.append_nil] at values
    simpa using congrArg List.head? values

theorem readArguments_eq {ending : List String} (ends : IsEnding last ending)
    (plain : ∀ piece ∈ pieces, piece.IsPlain)
    (completes : Completes settled pieces last arguments) :
    readArguments settled .none (pieces.flatMap Piece.words ++ ending) =
      .command (.validate arguments) := by
  -- What is settled grows by what the first piece gives, and the others complete that.
  induction pieces generalizing settled with
  | nil => rw [completes.eq_addPaths, List.flatMap_nil, List.nil_append, readArguments_ending ends]
  | cons piece rest ih =>
      rw [List.forall_mem_cons] at plain
      rw [List.flatMap_cons, List.append_assoc, readArguments_piece plain.1 completes.fresh]
      exact ih plain.2 completes.give

end Completes

/-- All options with their values behind equals signs, in the order of the help. -/
def Arguments.joinedOptions (arguments : Arguments) : List Piece :=
  OptionName.all.filterMap fun name => (arguments.get name).map (.joined name)

theorem Arguments.completes_joinedOptions (arguments : Arguments) :
    Completes {} arguments.joinedOptions arguments.paths arguments where
  paths_eq := by
    have no_paths : arguments.joinedOptions.filterMap Piece.path? = [] := by
      rw [joinedOptions, List.filterMap_filterMap, List.filterMap_eq_nil_iff]
      intro name _
      cases arguments.get name <;> rfl
    rw [no_paths]
    rfl
  values_eq name := by
    have own_value (own : OptionName) :
        ((arguments.get own).map (Piece.joined own)).bind (·.value? name) =
          if own = name then arguments.get name else none := by
      by_cases same : own = name
      · subst same
        cases arguments.get own <;> simp [Piece.value?]
      · cases arguments.get own <;> simp [Piece.value?, same]
    have unset : (({} : Arguments).get name).toList = [] := by cases name <;> rfl
    rw [joinedOptions, List.filterMap_filterMap, unset, List.nil_append]
    simp only [own_value]
    generalize arguments.get name = given
    cases name <;> cases given <;> rfl

/-- Arguments can be spelled, and however they are spelled, they are read back: the paths in their
    order, the options that are given with their values, and no others. -/
theorem arguments_read_back (arguments : Arguments) :
    (∃ line, arguments.SpelledBy line) ∧
      ∀ line, arguments.SpelledBy line →
        read ("validate" :: line) = .command (.validate arguments) := by
  constructor
  · have plain : ∀ piece ∈ arguments.joinedOptions, piece.IsPlain := by
      intro piece member
      obtain ⟨name, -, joined⟩ := List.mem_filterMap.mp member
      obtain ⟨value, -, rfl⟩ := Option.map_eq_some_iff.mp joined
      trivial
    exact ⟨_, .pieces plain (.escaped arguments.paths) arguments.completes_joinedOptions⟩
  · rintro _ ⟨plain, ends, given⟩
    exact given.readArguments_eq ends plain

/-- A value holds an equals sign and looks like an option, a path looks like an option that is given
    before, and what is given last comes before a path. -/
theorem arguments_read_back_interleaved :
    let arguments : Arguments :=
      { paths := ["a.html", "b.css", "--output=human"], grammar := some "--x=y"
        reportType := some "most important", output := some "json" }
    let line := ["a.html", "--output=json", "--report-type", "most important", "b.css",
      "--grammar=--x=y", "--", "--output=human"]
    arguments.SpelledBy line ∧ read ("validate" :: line) = .command (.validate arguments) := by
  intro arguments line
  let pieces : List Piece :=
    [.path "a.html", .joined .output "json", .apart .reportType "most important", .path "b.css",
      .joined .grammar "--x=y"]
  have plain : ∀ piece ∈ pieces, piece.IsPlain := by decide
  have given : Completes {} pieces ["--output=human"] arguments :=
    { paths_eq := by decide
      values_eq := by
        intro name
        cases name <;> decide }
  have spelled : arguments.SpelledBy line := by
    have written : pieces.flatMap Piece.words ++ "--" :: ["--output=human"] = line := by decide
    rw [← written]
    exact .pieces plain (.escaped _) given
  exact ⟨spelled, (arguments_read_back arguments).2 line spelled⟩

end PageCheck.CommandLine
