import EdgeRouting.CommandLine.Help
import EdgeRouting.EdgeLogic
import EdgeRouting.Remote.Client
import EdgeRouting.Rollout.Basic
import EdgeRouting.Settings.Loading

/-!
# Outcomes of commands

What a command leaves behind: what it prints, what it complains about, and the code that it ends
with. Where files, draws and the network come from is up to the caller.
-/

namespace EdgeRouting.CommandLine

structure Outcome where
  code : Nat
  output : String
  complaint : String
  deriving Repr, DecidableEq

namespace Outcome

def linesText (lines : List String) : String := String.join (lines.map (· ++ "\n"))

def success (lines : List String) : Outcome := ⟨0, linesText lines, ""⟩

/-- A failure after some lines have been printed. -/
def failure (lines : List String) (complaint : String) : Outcome :=
  ⟨1, linesText lines, complaint ++ "\n"⟩

/-- Arguments that nothing can be made of. -/
def usage (f : UsageFault) : Outcome := ⟨2, "", "error: " ++ f.message ++ "\n"⟩

end Outcome

/-- The edge logic and the targets of settings, or why there is none. -/
def compile (s : Settings) : Except String (List Target × EdgeLogic) := do
  let targets ← (buildTargets s.targets).mapError TargetFault.message
  let logic ← (EdgeLogic.ofTargets targets s.weights s.service.lockHeader).mapError
    RoutingError.message
  .ok (targets, logic)

def fragmentLines (f : Fragment) : List String :=
  ["# " ++ f.name ++ " (" ++ f.phase.word ++ ")", f.content]

def render (s : Settings) : Outcome :=
  match compile s with
  | .error complaint => .failure [] complaint
  | .ok (_, logic) => .success (logic.fragments.flatMap fragmentLines)

/-- Simulates requests with the draws that there are for their number. -/
def simulate (sim : Simulation) (draws : Nat → List Nat) (s : Settings) : Outcome :=
  match compile s with
  | .error complaint => .failure [] complaint
  | .ok (_, logic) =>
    .success (sim.report logic.selector (sim.tally logic.selector (draws sim.requests)))

def readyLine (r : Report) : String :=
  "draft version " ++ toString r.version ++ " ready: " ++ toString r.written.length
    ++ " resources written, " ++ toString r.updated.length ++ " backends updated"

def activatedLine (r : Report) : String := "version " ++ toString r.version ++ " activated"

def failureText (f : RolloutFailure) : String := f.message?.getD "request failed"

variable {σ : Type}

/-- Rolls out to the service; settings that are not ready are left alone. -/
def deploy (activate : Bool) (t : Http.Transport σ) (settings : Settings) (state : σ) :
    Outcome × σ :=
  match buildTargets settings.targets with
  | .error f => (.failure [] f.message, state)
  | .ok targets =>
    match Remote.Client.ofSettings settings.service with
    | .error f => (.failure [] (f.message?.getD "request failed"), state)
    | .ok none => (.success [], state)
    | .ok (some client) =>
      let platform := client.platform t
      let rollout : RolloutSettings :=
        ⟨settings.service.checkPath.getD "", settings.service.lockHeader⟩
      match rollout.deploy platform targets settings.weights state with
      | (.error f, state) => (.failure [] (failureText f), state)
      | (.ok r, state) =>
        if activate then
          match Rollout.activate platform r state with
          | (.error f, state) => (.failure [readyLine r] (failureText f), state)
          | (.ok (), state) => (.success [readyLine r, activatedLine r], state)
        else (.success [readyLine r], state)

/-- Runs a command with settings, if they could be loaded. -/
def run (command : Command) (loaded : Except LoadFailure Settings) (draws : Nat → List Nat)
    (t : Http.Transport σ) (state : σ) : Outcome × σ :=
  match loaded with
  | .error f => (.failure [] f.message, state)
  | .ok settings =>
    match command with
    | .render => (render settings, state)
    | .simulate sim => (simulate sim draws settings, state)
    | .deploy activate => deploy activate t settings state

end EdgeRouting.CommandLine
