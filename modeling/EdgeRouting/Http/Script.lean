import EdgeRouting.Http.Basic

/-!
# Scripted servers

A server that answers by a list of cues. The first cue that fits a request and has not been used up
decides; a request that no cue fits is answered with an empty object.
-/

namespace EdgeRouting.Http

/-- What happens to a request. -/
inductive Scripted where
  | reply (r : Reply)
  /-- The connection ends before a whole reply has arrived. -/
  | drop
  deriving Repr, DecidableEq

structure Cue where
  /-- The line of the requests that it fits; without one it fits them all. -/
  line : Option String
  /-- How many more requests it answers; without a number there is no end. -/
  left : Option Nat
  action : Scripted
  deriving Repr, DecidableEq

def Cue.fits (c : Cue) (line : String) : Bool :=
  c.line.all (· = line) && c.left.all (0 < ·)

def Cue.used (c : Cue) : Cue := { c with left := c.left.map (· - 1) }

/-- What cues make of a request, and the cues after it. -/
def follow (line : String) : List Cue → Scripted × List Cue
  | [] => (.reply ⟨200, "\x7b\x7d"⟩, [])
  | c :: r =>
    if c.fits line then (c.action, c.used :: r)
    else
      let (action, rest) := follow line r
      (action, c :: rest)

/-- The transport to a server with these cues left. -/
def scripted : Transport (List Cue) where
  send r cues :=
    match follow r.line cues with
    | (.reply reply, rest) => (some reply, rest)
    | (.drop, rest) => (none, rest)

end EdgeRouting.Http
