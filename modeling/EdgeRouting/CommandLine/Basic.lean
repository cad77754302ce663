import EdgeRouting.CommandLine.Options
import EdgeRouting.Simulation

/-!
# The command line

What can be asked for on the command line, and how it is written.
-/

namespace EdgeRouting.CommandLine

inductive Command where
  /-- Show the fragments of the edge logic. -/
  | render
  /-- Show how the selector splits simulated requests. -/
  | simulate (sim : Simulation)
  /-- Roll out, and activate the version if that is asked for. -/
  | deploy (activate : Bool)
  deriving Repr, DecidableEq

/-- What help can be asked about. -/
inductive Topic where
  | program
  | render
  | simulate
  | deploy
  | help
  deriving Repr, DecidableEq

inductive Invocation where
  | help (topic : Topic)
  /-- Run a command with the settings in a file. -/
  | run (config : String) (command : Command)
  deriving Repr, DecidableEq

/-! ## Options -/

/-- A number of requests: decimal digits, perhaps with a sign, for a number of 32 bits. -/
def count? (s : String) : Option Nat :=
  let digits := match s.toList with
    | '+' :: ds => ds
    | '-' :: ds => ds
    | ds => ds
  let n := digits.foldl (fun n c => n * 10 + (c.toNat - 48)) 0
  if digits.isEmpty || !digits.all Char.isDigit || maxNat32 < n then none
  else if s.toList.head? = some '-' && n ≠ 0 then none
  else some n

def textOption (name : String) (letter : Option Char) (repeatable : Bool) : OptionSpec :=
  ⟨name, letter, true, repeatable, fun _ => true⟩

def programOptions : List OptionSpec := [textOption "config" (some 'c') false]

def simulateOptions : List OptionSpec :=
  [⟨"requests", some 'n', true, false, fun v => (count? v).isSome⟩,
    textOption "unhealthy" none true, textOption "lock" none false]

def deployOptions : List OptionSpec := [⟨"activate", none, false, false, fun _ => true⟩]

def defaultConfig : String := "edge-gateway.toml"

/-! ## Commands -/

def simulationOf (given : Given) : Simulation where
  requests := ((given.lookup "requests").bind count?).getD Simulation.default.requests
  unhealthy := (given.filter (·.1 = "unhealthy")).map (·.2)
  lock := given.lookup "lock"

/-- The command that is left when all arguments behind its name are options. -/
def commandOf (config : String) (topic : Topic) (specs : List OptionSpec)
    (command : Given → Command) (args : List String) : Except UsageFault Invocation := do
  match ← scan specs [] args with
  | .help => .ok (.help topic)
  | .options given [] => .ok (.run config (command given))
  | .options _ (a :: _) => .error (.unexpectedArgument a)

def topicOf : List String → Except UsageFault Topic
  | [] => .ok .program
  | ["render"] => .ok .render
  | ["simulate"] => .ok .simulate
  | ["deploy"] => .ok .deploy
  | ["help"] => .ok .help
  | [name] => .error (.unknownCommand name)
  | name :: inner :: _ =>
    if name ∈ ["render", "simulate", "deploy", "help"] then .error (.unknownCommand inner)
    else .error (.unknownCommand name)

/-- What arguments ask for. -/
def parse (args : List String) : Except UsageFault Invocation := do
  match ← scan programOptions [] args with
  | .help => .ok (.help .program)
  | .options _ [] => .error .missingCommand
  | .options given (name :: r) =>
    let config := (given.lookup "config").getD defaultConfig
    match name with
    | "render" => commandOf config .render [] (fun _ => .render) r
    | "simulate" =>
      commandOf config .simulate simulateOptions (fun given => .simulate (simulationOf given)) r
    | "deploy" =>
      commandOf config .deploy deployOptions
        (fun given => .deploy (given.lookup "activate").isSome) r
    | "help" => do .ok (.help (← topicOf r))
    | name => .error (.unknownCommand name)

end EdgeRouting.CommandLine
