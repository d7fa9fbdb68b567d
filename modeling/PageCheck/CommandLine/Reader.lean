import PageCheck.CommandLine.Basic

/-! # Reading command lines

A command comes first and its own arguments follow. An option has its value behind an equals sign
or in the next argument; after a lone `--` everything is a path. An argument that nothing goes by
is reported before an option that still lacks its value, and a missing value before a repetition.
-/

namespace PageCheck.CommandLine

inductive Form where
  /-- Two dashes: the end of all options. -/
  | escape
  /-- Two dashes, a name, and what stands behind an equals sign. -/
  | long (name : String) (value : Option String)
  /-- One dash and letters. -/
  | short (first : Char)
  /-- Anything else, a lone dash included. -/
  | plain
  deriving DecidableEq, Repr

/-- The form of an argument. -/
def formOf (argument : String) : Form :=
  match argument.toList with
  | ['-', '-'] => .escape
  | '-' :: '-' :: rest =>
    let name := String.ofList (rest.takeWhile (· ≠ '='))
    match rest.dropWhile (· ≠ '=') with
    | [] => .long name none
    | _ :: value => .long name (some (String.ofList value))
  | '-' :: first :: _ => .short first
  | _ => .plain

/-- An option whose value is not yet settled: further arguments may still turn out to be wrong in
    a way that is reported first. -/
inductive Pending where
  | none
  /-- The option's value has to follow. -/
  | waiting (name : OptionName)
  | given (name : OptionName) (value : String)
  deriving DecidableEq, Repr

/-- Give an option its value, which is wrong if it has one. -/
def store (arguments : Arguments) (name : OptionName) (value : String) : Except Misuse Arguments :=
  if (arguments.get name).isSome then .error .repeatedOption else .ok (arguments.set name value)

def settle (arguments : Arguments) : Pending → Except Misuse Arguments
  | .none => .ok arguments
  | .waiting _ => .error .missingValue
  | .given name value => store arguments name value

/-- Go on with a result, or report what is wrong. -/
def Reading.after (result : Except Misuse α) (next : α → Reading) : Reading :=
  match result with
  | .ok value => next value
  | .error wrong => .misuse wrong

def readArguments (arguments : Arguments) (pending : Pending) : List String → Reading
  | [] => .after (settle arguments pending) fun settled => .command (.validate settled)
  | argument :: rest =>
    match formOf argument with
    | .escape =>
      .after (settle arguments pending) fun settled => .command (.validate (settled.addPaths rest))
    | .plain =>
      match pending with
      | .waiting name => readArguments arguments (.given name argument) rest
      | _ =>
        .after (settle arguments pending) fun settled =>
          readArguments (settled.addPaths [argument]) .none rest
    | .short first =>
      if first = 'h' then .after (settle arguments pending) fun _ => .help .validate false
      else .misuse .unknownArgument
    | .long "help" none => .after (settle arguments pending) fun _ => .help .validate true
    | .long "help" (some _) => .misuse .unneededValue
    | .long spelling value =>
      match OptionName.ofText? spelling with
      | none => .misuse .unknownArgument
      | some name =>
        .after (settle arguments pending) fun settled =>
          match value with
          | none => readArguments settled (.waiting name) rest
          | some value =>
            .after (store settled name value) fun stored => readArguments stored .none rest

/-- Read the arguments of the `version` command, which takes none. -/
def readVersionArguments : List String → Reading
  | [] => .command .version
  | argument :: rest =>
    match formOf argument with
    | .escape => if rest.isEmpty then .command .version else .misuse .unknownArgument
    | .short 'h' => .help .version false
    | .long "help" none => .help .version true
    | .long "help" (some _) => .misuse .unneededValue
    | _ => .misuse .unknownArgument

def topic? : String → Option Topic
  | "version" => some .version
  | "validate" => some .validate
  | "help" => some .help
  | _ => none

/-- Read the arguments of the `help` command: the name of one command at most. -/
def readHelpArguments : List String → Reading
  | [] => .help .program true
  | [name] =>
    match topic? name with
    | some topic => .help topic true
    | none => .misuse .unknownCommand
  | _ => .misuse .unknownCommand

def read : List String → Reading
  | [] => .nothing
  | "version" :: rest => readVersionArguments rest
  | "validate" :: rest => readArguments {} .none rest
  | "help" :: rest => readHelpArguments rest
  | argument :: rest =>
    match formOf argument with
    | .escape =>
      match rest with
      | [] => .nothing
      | name :: _ => .misuse (if (topic? name).isSome then .unknownArgument else .unknownCommand)
    | .long "help" none => .help .program true
    | .long "version" none => .banner
    | .long "help" (some _) | .long "version" (some _) => .misuse .unneededValue
    | .long .. => .misuse .unknownArgument
    | .short first =>
      if first = 'h' then .help .program false
      else if first = 'V' then .banner
      else .misuse .unknownArgument
    | .plain => .misuse .unknownCommand

end PageCheck.CommandLine
