import EdgeRouting.Json.Reader

/-!
# Replies of the service

What the service answers is JSON. A record is an object, in which a known name may stand once only,
or an array of the values in order; what it does not know is not looked at.
-/

namespace EdgeRouting.Remote

/-- The known members of an object, or the values of an array under the names in their order. -/
def recordMembers? (names : List String) : Json → Option (List (String × Json))
  | .object members => do
    let named ← members.mapM fun m => m.1.map fun name => (name, m.2)
    let known := named.filter fun m => m.1 ∈ names
    if (known.map (·.1)).Nodup then some known else none
  | .array items => if items.length ≤ names.length then some (names.zip items) else none
  | _ => none

/-- A text, which may be left out or null. -/
def optionalText? : Option Json → Option (Option String)
  | none => some none
  | some .null => some none
  | some (.text s) => some (some s)
  | some _ => none

/-! ## Refusals -/

/-- What a refusal says: a message, details of it, or both. -/
structure Refusal where
  msg : Option String
  detail : Option String
  deriving Repr, DecidableEq

def Refusal.ofJson? (j : Json) : Option Refusal := do
  let members ← recordMembers? ["msg", "detail"] j
  let msg ← optionalText? (members.lookup "msg")
  let detail ← optionalText? (members.lookup "detail")
  some ⟨msg, detail⟩

/-- The wording of a refusal, if it has one. Details behind a message count unless they are
empty. -/
def Refusal.text? (r : Refusal) : Option String :=
  match r.msg, r.detail with
  | some m, some d => some (if d.isEmpty then m else m ++ ": " ++ d)
  | some m, none => some m
  | none, detail => detail

/-- The body without a byte order mark in front. -/
def withoutMark (body : String) : String :=
  match body.toList with
  | '\uFEFF' :: r => String.ofList r
  | _ => body

/-- The wording of the body of a refusal: all of it, unless it has one of its own. -/
def refusalText (body : String) : String :=
  let body := withoutMark body
  (((Json.read body).bind Refusal.ofJson?).bind Refusal.text?).getD body

/-! ## Versions -/

structure ServiceVersion where
  number : Nat
  active : Bool
  deriving Repr, DecidableEq

namespace ServiceVersion

def ofJson? (j : Json) : Option ServiceVersion := do
  let members ← recordMembers? ["number", "active"] j
  let number ← (← members.lookup "number").asIntIn? 0 maxNat32
  let active ← match members.lookup "active" with
    | none => some false
    | some b => b.asBool?
  some ⟨number.toNat, active⟩

/-- The version with the greatest number, the last one of several. -/
def greatest? : List ServiceVersion → Option ServiceVersion
  | [] => none
  | v :: r => some (r.foldl (fun best v => if best.number ≤ v.number then v else best) v)

/-- The version that the next one is made from: the active one, or else the one with the greatest
number. -/
def base? (versions : List ServiceVersion) : Option ServiceVersion :=
  (versions.find? (·.active)).or (greatest? versions)

end ServiceVersion

/-! ## Bodies of successes -/

/-- A body that reports a version. -/
def readVersion (body : String) : Option ServiceVersion :=
  (Json.read body).bind ServiceVersion.ofJson?

/-- A body that lists versions. -/
def readVersions (body : String) : Option (List ServiceVersion) := do
  (← (← Json.read body).asArray?).mapM ServiceVersion.ofJson?

/-- A body of which it is only asked that it is plain. -/
def readAnything (body : String) : Option Unit := do
  if (← Json.read body).isPlain then some () else none

end EdgeRouting.Remote
