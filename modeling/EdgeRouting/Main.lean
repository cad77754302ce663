import EdgeRouting.CommandLine.Outcome

/-!
# The program

Reads the arguments, the file and the environment, draws random numbers, and prints. It has no
network of its own: a rollout to a service that is ready fails with the service out of reach.
-/

namespace EdgeRouting.CommandLine

/-- The bytes of a file, if it can be read. -/
def readSettingsFile (path : String) : IO (Option ByteArray) := do
  try
    let bytes ← IO.FS.readBinFile path
    pure (some bytes)
  catch _ => pure none

def readEnvironment : IO Environment := do
  let names := [Settings.serviceVariable, Settings.authVariable, Settings.checkPathVariable]
  let values ← names.mapM fun name => do pure (name, ← IO.getEnv name)
  pure fun name => (values.lookup name).join

def drawRandomly (count : Nat) : IO (List Nat) :=
  (List.replicate count ()).mapM fun _ => IO.rand 0 (Selector.drawRange - 1)

def conclude (o : Outcome) : IO UInt32 := do
  (← IO.getStdout).putStr o.output
  (← IO.getStderr).putStr o.complaint
  pure o.code.toUInt32

end EdgeRouting.CommandLine

open EdgeRouting CommandLine in
def main (args : List String) : IO UInt32 := do
  match CommandLine.parse args with
  | .error f => conclude (.usage f)
  | .ok (.help topic) => conclude (.success topic.lines)
  | .ok (.run config command) =>
    let loaded := Settings.loadBytes (← readEnvironment) (← readSettingsFile config)
    let draws ← match command with
      | .simulate sim => drawRandomly sim.requests
      | _ => pure []
    let (outcome, _) :=
      CommandLine.run command loaded (fun _ => draws) Http.Transport.unreachable ()
    conclude outcome
