/-!
# Faults of URLs

Why a text is no URL.
-/

namespace EdgeRouting

inductive UrlFault where
  | emptyHost
  | invalidName
  | invalidPort
  | invalidIpv4
  | invalidIpv6
  | invalidHostCharacter
  | relative
  deriving Repr, DecidableEq

def UrlFault.message : UrlFault → String
  | .emptyHost => "empty host"
  | .invalidName => "invalid international domain name"
  | .invalidPort => "invalid port number"
  | .invalidIpv4 => "invalid IPv4 address"
  | .invalidIpv6 => "invalid IPv6 address"
  | .invalidHostCharacter => "invalid domain character"
  | .relative => "relative URL without a base"

end EdgeRouting
