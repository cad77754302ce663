/-!
# Options

Arguments are read from left to right. An option is written in full behind two hyphens or as one
letter behind one, and its value stands behind an equals sign, behind the letter, or in the next
argument. The first argument that is no option ends the options, and so do two hyphens alone, behind
which nothing is expected here.
-/

namespace EdgeRouting.CommandLine

/-- What is wrong with arguments. -/
inductive UsageFault where
  | unexpectedArgument (argument : String)
  | missingValue (option : String)
  | unexpectedValue (option : String)
  | invalidValue (option value : String)
  | repeated (option : String)
  | missingCommand
  | unknownCommand (name : String)
  deriving Repr, DecidableEq

def UsageFault.message : UsageFault → String
  | .unexpectedArgument argument => "unexpected argument '" ++ argument ++ "' found"
  | .missingValue option => "a value is required for '--" ++ option ++ "' but none was supplied"
  | .unexpectedValue option => "no value is expected for '--" ++ option ++ "'"
  | .invalidValue option value =>
    "invalid value '" ++ value ++ "' for '--" ++ option ++ "'"
  | .repeated option => "the argument '--" ++ option ++ "' cannot be used multiple times"
  | .missingCommand => "a subcommand is required but one was not provided"
  | .unknownCommand name => "unrecognized subcommand '" ++ name ++ "'"

structure OptionSpec where
  name : String
  letter : Option Char
  takesValue : Bool
  repeatable : Bool
  accepts : String → Bool

/-- An option with its value, which is empty for one that takes none. -/
abbrev Given := List (String × String)

/-- What options were given, and the arguments behind them. -/
inductive Scanned where
  | options (given : Given) (rest : List String)
  /-- Help was asked for, and nothing was wrong before. -/
  | help
  deriving Repr, DecidableEq

/-- Whether an argument can be the value of an option: a hyphen alone can. -/
def canBeValue (argument : String) : Bool :=
  match argument.toList with
  | '-' :: _ :: _ => false
  | _ => true

/-- The options given so far with one more. -/
def OptionSpec.add (o : OptionSpec) (value : String) (given : Given) :
    Except UsageFault Given :=
  if !o.accepts value then .error (.invalidValue o.name value)
  else if !o.repeatable && (given.lookup o.name).isSome then .error (.repeated o.name)
  else .ok (given ++ [(o.name, value)])

/-- One argument, taken apart. -/
inductive Argument where
  | endOfOptions
  | help
  | option (o : OptionSpec) (attached : Option String)
  | unknownOption
  | plain

/-- A name in full, and the value behind an equals sign. -/
def fullOption (specs : List OptionSpec) (s : List Char) : Argument :=
  let name := String.ofList (s.takeWhile (· ≠ '='))
  let attached := match s.dropWhile (· ≠ '=') with
    | _ :: value => some (String.ofList value)
    | [] => none
  match specs.find? (·.name = name) with
  | some o => .option o attached
  | none => if name = "help" && attached.isNone then .help else .unknownOption

/-- A letter, and the value behind it, before which an equals sign may stand. -/
def letterOption (specs : List OptionSpec) (letter : Char) (s : List Char) : Argument :=
  let attached := match s with
    | [] => none
    | '=' :: value => some (String.ofList value)
    | value => some (String.ofList value)
  match specs.find? (·.letter = some letter) with
  | some o => .option o attached
  | none => if letter = 'h' then .help else .unknownOption

def Argument.of (specs : List OptionSpec) (argument : String) : Argument :=
  match argument.toList with
  | ['-', '-'] => .endOfOptions
  | '-' :: '-' :: name => fullOption specs name
  | '-' :: letter :: r => letterOption specs letter r
  | _ => .plain

/-- The options in front of arguments. -/
def scan (specs : List OptionSpec) (given : Given) : List String → Except UsageFault Scanned
  | [] => .ok (.options given [])
  | a :: r =>
    match Argument.of specs a with
    | .plain => .ok (.options given (a :: r))
    | .help => .ok .help
    | .unknownOption => .error (.unexpectedArgument a)
    | .endOfOptions =>
      match r with
      | [] => .ok (.options given [])
      | b :: _ => .error (.unexpectedArgument b)
    | .option o attached =>
      if !o.takesValue then
        match attached with
        | some _ => .error (.unexpectedValue o.name)
        | none => do
          let given ← o.add "" given
          scan specs given r
      else
        match attached, r with
        | some value, r => do
          let given ← o.add value given
          scan specs given r
        | none, value :: r =>
          if canBeValue value then do
            let given ← o.add value given
            scan specs given r
          else .error (.missingValue o.name)
        | none, [] => .error (.missingValue o.name)

end EdgeRouting.CommandLine
