import EdgeRouting.Url.Basic

/-!
# Reading URLs

A text is read from left to right: scheme, user, host, port, path, query and fragment. Control
characters and spaces around it are dropped, and so are tabs and line breaks anywhere in it. There
is no base, so a text without a scheme is no URL.
-/

namespace EdgeRouting.Url

def isTrimmed (c : Char) : Bool := c.toNat ≤ 0x20

/-- The characters of a text that count. -/
def significant (s : List Char) : List Char :=
  (((s.dropWhile isTrimmed).reverse.dropWhile isTrimmed).reverse).filter fun c => !isIgnored c

/-! ## Scheme -/

def isSchemeChar (c : Char) : Bool := c.isAlphanum || c = '+' || c = '-' || c = '.'

/-- The scheme before a colon, in lower case, and the text behind the colon. -/
def cutScheme : List Char → Option (String × List Char)
  | [] => none
  | c :: r =>
    if !c.isAlpha then none
    else match (c :: r).dropWhile isSchemeChar with
      | ':' :: rest =>
        some (String.ofList (((c :: r).takeWhile isSchemeChar).map Char.toLower), rest)
      | _ => none

/-! ## Query and fragment -/

/-- What stands behind the path: the path's end, the query and the fragment. -/
def cutTail (scheme : String) (s : List Char) : List Char × Option String × Option String :=
  let (body, fragment) := (s.takeWhile (· ≠ '#'), s.dropWhile (· ≠ '#'))
  let (path, query) := (body.takeWhile (· ≠ '?'), body.dropWhile (· ≠ '?'))
  let set := if isSpecialScheme scheme then inSpecialQuerySet else inQuerySet
  let encodeTail (set : Char → Bool) : List Char → Option String
    | [] => none
    | _ :: r => some (String.ofList (percentEncode set r))
  (path, encodeTail set query, encodeTail inFragmentSet fragment)

/-! ## Path -/

/-- The segments of a text between slashes, or backslashes where they count as slashes. -/
def rawSegments (special : Bool) (s : List Char) : List (List Char) :=
  Text.pieces '/' (if special then s.map fun c => if c = '\\' then '/' else c else s)

/-- The path that a text behind its first slash denotes. -/
def pathOf (scheme : String) (s : List Char) : List String :=
  walkAll (scheme = "file") []
    ((rawSegments (isSpecialScheme scheme) s).map (percentEncode inPathSet))

/-- The path behind a host: a special scheme always has one, and another one has none when there is
no text. -/
def pathBehindHost (scheme : String) : List Char → List String
  | [] => if isSpecialScheme scheme then [""] else []
  | c :: r =>
    if c = '/' || (isSpecialScheme scheme && c = '\\') then pathOf scheme r
    else pathOf scheme (c :: r)

/-! ## Authority -/

/-- Whether a character ends the authority. -/
def endsAuthority (special : Bool) (c : Char) : Bool :=
  c = '/' || c = '?' || c = '#' || (special && c = '\\')

/-- The text before the last at sign of the authority, if there is one, and the text behind it. -/
def cutUser (special : Bool) (s : List Char) : Option (List Char) × List Char :=
  let authority := s.takeWhile fun c => !endsAuthority special c
  let rest := s.dropWhile fun c => !endsAuthority special c
  if authority.contains '@' then
    let host := (authority.reverse.takeWhile (· ≠ '@')).reverse
    (some (authority.take (authority.length - host.length - 1)), host ++ rest)
  else (none, s)

/-- A user and a password, which is absent when it is empty. -/
def userOf (s : List Char) : String × Option String :=
  let encode (s : List Char) : String := String.ofList (percentEncode inUserSet s)
  match s.dropWhile (· ≠ ':') with
  | _ :: c :: password => (encode (s.takeWhile (· ≠ ':')), some (encode (c :: password)))
  | _ => (encode (s.takeWhile (· ≠ ':')), none)

/-- The length of the host at the front of a text: up to a colon outside brackets, or to the end of
the authority. -/
def hostLength (special inBrackets : Bool) : List Char → Nat
  | [] => 0
  | c :: r =>
    if endsAuthority special c || (c = ':' && !inBrackets) then 0
    else 1 + hostLength special (if c = '[' then true else if c = ']' then false else inBrackets) r

/-- The port behind a colon: digits up to the path, the query, the fragment or the end. The port
that the scheme implies counts as none. -/
def cutPort (scheme : String) (s : List Char) : Except UrlFault (Option Nat × List Char) :=
  let digits := s.takeWhile Char.isDigit
  let rest := s.dropWhile Char.isDigit
  let port := digits.foldl (fun n c => n * 10 + (c.toNat - 48)) 0
  if 65535 < port then .error .invalidPort
  else match rest with
    | [] => .ok (portOf digits port, [])
    | c :: r =>
      if c = '/' || c = '\\' || c = '?' || c = '#' then .ok (portOf digits port, c :: r)
      else .error .invalidPort
where
  portOf (digits : List Char) (port : Nat) : Option Nat :=
    if digits.isEmpty || defaultPort? scheme = some port then none else some port

/-- Host and port, and the text behind them. -/
def cutHost (scheme : String) (s : List Char) :
    Except UrlFault (Host × Option Nat × List Char) := do
  let special := isSpecialScheme scheme
  let n := hostLength special false s
  let host := s.take n
  let rest := s.drop n
  if special && host.isEmpty then .error .emptyHost
  else
    let h ← if special then Host.parseSpecial host else Host.parseVerbatim host
    match rest with
    | ':' :: r =>
      if h.isEmpty then .error .emptyHost
      else
        let (port, r) ← cutPort scheme r
        .ok (h, port, r)
    | rest => .ok (h, none, rest)

/-- A URL with an authority, read behind the slashes in front of it. -/
def parseAuthority (scheme : String) (s : List Char) : Except UrlFault Url := do
  let (user, r) := cutUser (isSpecialScheme scheme) s
  if user = some [] && (r.head?.any (endsAuthority (isSpecialScheme scheme))) then
    .error .emptyHost
  else
    let (username, password) := userOf (user.getD [])
    let (host, port, r) ← cutHost scheme r
    if host.isEmpty && (username ≠ "" || password.isSome) then .error .emptyHost
    else
      let (path, query, fragment) := cutTail scheme r
      .ok ⟨scheme, some ⟨username, password, host, port⟩,
        .segments (pathBehindHost scheme path), query, fragment⟩

/-! ## Files -/

/-- The path of a file: it begins with no empty segment unless that is all of it. -/
def filePath (s : List Char) : List String :=
  match (pathOf "file" s).dropWhile (· = "") with
  | [] => [""]
  | l => l

def isSlash (c : Char) : Bool := c = '/' || c = '\\'

/-- The host of a file, where the local host counts as none. -/
def fileHost (s : List Char) : Except UrlFault Host :=
  if s.isEmpty then .ok (.verbatim "")
  else do
    let h ← Host.parseSpecial s
    .ok (if h = .domain "localhost" then .verbatim "" else h)

def parseFile (s : List Char) : Except UrlFault Url := do
  let (body, query, fragment) := cutTail "file" s
  let file (host : Host) (path : List Char) : Url :=
    ⟨"file", some ⟨"", none, host, none⟩, .segments (filePath path), query, fragment⟩
  match body with
  | c :: d :: r =>
    if isSlash c && isSlash d then
      let host := r.takeWhile fun c => !isSlash c
      if isDrive host then .ok (file (.verbatim "") r)
      else
        let h ← fileHost host
        let path := (r.dropWhile fun c => !isSlash c).drop 1
        let hasDrive := isDrive (path.takeWhile fun c => !isSlash c)
        .ok (file (if hasDrive then .verbatim "" else h) path)
    else .ok (file (.verbatim "") (if isSlash c then d :: r else body))
  | [c] => .ok (file (.verbatim "") (if isSlash c then [] else [c]))
  | [] => .ok (file (.verbatim "") [])

/-! ## Whole URLs -/

/-- A URL without an authority. -/
def parseBare (scheme : String) (s : List Char) : Url :=
  let (path, query, fragment) := cutTail scheme s
  match path with
  | '/' :: r => ⟨scheme, none, .segments (pathOf scheme r), query, fragment⟩
  | path =>
    ⟨scheme, none, .verbatim (String.ofList (percentEncode isControl path)), query, fragment⟩

/-- The URL that a text denotes. -/
def parse (text : String) : Except UrlFault Url :=
  match cutScheme (significant text.toList) with
  | none => .error .relative
  | some (scheme, rest) =>
    if scheme = "file" then parseFile rest
    else if isSpecialScheme scheme then parseAuthority scheme (rest.dropWhile isSlash)
    else match rest with
      | '/' :: '/' :: r => parseAuthority scheme r
      | rest => .ok (parseBare scheme rest)

/-- Whether a text is a URL that others can be built on. -/
def isBaseUrl (text : String) : Bool :=
  match parse text with
  | .ok u => u.isBase
  | .error _ => false

end EdgeRouting.Url
