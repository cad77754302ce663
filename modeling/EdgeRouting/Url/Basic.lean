import EdgeRouting.Url.Host

/-!
# URLs

A URL in its parts, each in the form in which it is written. A path is a list of segments, or a text
that is not looked into; in the latter case the URL cannot serve as the base of others. Segments can
be added to a path: they are encoded on the way, so that a segment stays one segment.
-/

namespace EdgeRouting

structure Authority where
  username : String
  password : Option String
  host : Host
  /-- The port, unless it is the one that the scheme implies. -/
  port : Option Nat
  deriving Repr, DecidableEq

inductive UrlPath where
  | segments (l : List String)
  | verbatim (text : String)
  deriving Repr, DecidableEq

structure Url where
  scheme : String
  authority : Option Authority
  path : UrlPath
  query : Option String
  fragment : Option String
  deriving Repr, DecidableEq

namespace Url

/-- The schemes whose URLs all have a host and a path. -/
def isSpecialScheme (scheme : String) : Bool :=
  scheme = "http" || scheme = "https" || scheme = "ws" || scheme = "wss" || scheme = "ftp"
    || scheme = "file"

def defaultPort? (scheme : String) : Option Nat :=
  if scheme = "http" || scheme = "ws" then some 80
  else if scheme = "https" || scheme = "wss" then some 443
  else if scheme = "ftp" then some 21
  else none

/-- Whether other URLs can be built on this one. -/
def isBase (u : Url) : Bool :=
  match u.path with
  | .segments _ => true
  | .verbatim _ => false

/-! ## Writing -/

def authorityText (a : Authority) : String :=
  let user := a.username ++ (a.password.map (":" ++ ·)).getD ""
  (if user.isEmpty then "" else user ++ "@") ++ a.host.text
    ++ (a.port.map fun p => ":" ++ toString p).getD ""

def pathText : UrlPath → String
  | .segments l => String.join (l.map ("/" ++ ·))
  | .verbatim s => s

/-- What keeps a path that begins with an empty segment from being read as a host. -/
def pathGuard (u : Url) : String :=
  match u.authority, u.path with
  | none, .segments ("" :: _ :: _) => "/."
  | _, _ => ""

/-- The path and the query, as they stand in a request. -/
def target (u : Url) : String := pathText u.path ++ (u.query.map ("?" ++ ·)).getD ""

def text (u : Url) : String :=
  u.scheme ++ ":" ++ (u.authority.map fun a => "//" ++ authorityText a).getD "" ++ u.pathGuard
    ++ u.target ++ (u.fragment.map ("#" ++ ·)).getD ""

/-! ## Segments -/

def isSingleDot (s : List Char) : Bool := s = ['.'] || s.map Char.toLower = ['%', '2', 'e']

def isDoubleDot (s : List Char) : Bool :=
  let dots := s.map Char.toLower
  dots = ['.', '.'] || dots = ['.', '%', '2', 'e'] || dots = ['%', '2', 'e', '.']
    || dots = ['%', '2', 'e', '%', '2', 'e']

/-- A letter and a colon or a bar: a drive, which no step upwards leaves. -/
def isDrive : List Char → Bool
  | [c, d] => c.isAlpha && (d = ':' || d = '|')
  | _ => false

/-- The path without its last segment. -/
def shorten (isFile : Bool) (path : List String) : List String :=
  match path with
  | [d] => if isFile && isDrive d.toList && d.toList.getLast? = some ':' then path else []
  | path => path.dropLast

/-- The path after one more segment, which is the last one or has a separator behind it. A dot is
the place itself, and two dots are the place above. -/
def walk (isFile : Bool) (path : List String) (segment : List Char) (isLast : Bool) :
    List String :=
  if isDoubleDot segment then shorten isFile path ++ (if isLast then [""] else [])
  else if isSingleDot segment then path ++ (if isLast then [""] else [])
  else if isFile && path.isEmpty && isDrive segment then
    [String.ofList (segment.take 1 ++ [':'])]
  else path ++ [String.ofList segment]

def walkAll (isFile : Bool) (path : List String) : List (List Char) → List String
  | [] => path
  | [s] => walk isFile path s true
  | s :: r => walkAll isFile (walk isFile path s false) r

/-- Characters that vanish from whatever is read as part of a URL. -/
def isIgnored (c : Char) : Bool := c = '\t' || c = '\n' || c = '\r'

def segmentSet (special : Bool) : Char → Bool :=
  if special then inSpecialSegmentSet else inSegmentSet

/-- A segment as it stands in a path. -/
def encodeSegment (special : Bool) (s : List Char) : List Char :=
  percentEncode (segmentSet special) (s.filter fun c => !isIgnored c)

/-- The path with a segment added; one or two dots add nothing, and the path that is nothing but a
slash gives up its empty segment. -/
def pushSegment (scheme : String) (path : List String) (segment : String) : List String :=
  if segment = "." || segment = ".." then path
  else
    let path := if path = [""] then [] else path
    walk (scheme = "file") path (encodeSegment (isSpecialScheme scheme) segment.toList) true

/-- The path without its last segment if that is empty and not the only one. -/
def popIfEmpty (path : List String) : List String :=
  if 1 < path.length && path.getLast? = some "" then path.dropLast else path

/-- The URL with segments added to its path, unless it cannot be built on. -/
def append? (u : Url) (segments : List String) : Option Url :=
  match u.path with
  | .segments path =>
    some { u with path := .segments (segments.foldl (pushSegment u.scheme) (popIfEmpty path)) }
  | .verbatim _ => none

end Url

end EdgeRouting
