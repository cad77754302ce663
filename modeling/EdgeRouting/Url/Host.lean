import EdgeRouting.Url.Domain

/-!
# Hosts

The host of a URL is a domain name or an address where the scheme is one of the special ones, and an
address or any text else. An address of version 6 stands in brackets.
-/

namespace EdgeRouting

inductive Host where
  | domain (name : String)
  | ipv4 (address : Nat)
  | ipv6 (pieces : List Nat)
  /-- The host of a scheme that gives no meaning to it, encoded; it may be empty. -/
  | verbatim (text : String)
  deriving Repr, DecidableEq

namespace Host

open Url

def text : Host → String
  | .domain name => name
  | .ipv4 n => String.ofList (ipv4Text n)
  | .ipv6 pieces => String.ofList ('[' :: ipv6Text pieces ++ [']'])
  | .verbatim s => s

def isEmpty (h : Host) : Bool := h = .verbatim ""

/-- Characters that no host can contain. -/
def isForbidden (c : Char) : Bool :=
  c.toNat = 0 || c = '\t' || c = '\n' || c = '\r' || c = ' ' || c = '#' || c = '/' || c = ':'
    || c = '<' || c = '>' || c = '?' || c = '@' || c = '[' || c = '\\' || c = ']' || c = '^'
    || c = '|'

/-- The address between brackets. -/
def parseBracketed (s : List Char) : Except UrlFault Host :=
  if s.getLast? = some ']' then (parseIpv6 s.dropLast).map .ipv6 else .error .invalidIpv6

/-- The host of a special scheme. -/
def parseSpecial : List Char → Except UrlFault Host
  | '[' :: s => parseBracketed s
  | s =>
    match (percentDecode? s).bind domainToAscii? with
    | none => .error .invalidName
    | some [] => .error .emptyHost
    | some name =>
      if endsInNumber name then (parseIpv4 name).map .ipv4
      else .ok (.domain (String.ofList name))

/-- The host of any other scheme. -/
def parseVerbatim : List Char → Except UrlFault Host
  | '[' :: s => parseBracketed s
  | s =>
    if s.any isForbidden then .error .invalidHostCharacter
    else .ok (.verbatim (String.ofList (percentEncode isControl s)))

end Host

end EdgeRouting
