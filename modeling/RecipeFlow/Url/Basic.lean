/-! Uniform resource locators in their parts. -/
namespace RecipeFlow

/-- Why a text is no absolute locator. -/
inductive UrlFault where
  | relative
  | emptyHost
  | invalidPort
  | invalidIpv4
  | invalidIpv6
  | invalidDomain
  | invalidDomainCharacter
  deriving DecidableEq, Repr

/-- The text of a fault in messages. -/
def UrlFault.text : UrlFault → String
  | relative => "relative URL without a base"
  | emptyHost => "empty host"
  | invalidPort => "invalid port number"
  | invalidIpv4 => "invalid IPv4 address"
  | invalidIpv6 => "invalid IPv6 address"
  | invalidDomain => "invalid international domain name"
  | invalidDomainCharacter => "invalid domain character"

/-- The path of a locator: segments between slashes, or a text of its own. -/
inductive UrlPath where
  | segments (ss : List (List Char))
  | bare (text : List Char)
  deriving DecidableEq, Repr

/-- An absolute locator. All parts are in their normal, encoded form. -/
structure Url where
  scheme : List Char
  username : List Char := []
  password : List Char := []
  /-- The host as it is written, `none` without an authority part. -/
  host : Option (List Char) := none
  port : Option Nat := none
  path : UrlPath
  query : Option (List Char) := none
  fragment : Option (List Char) := none
  deriving DecidableEq, Repr

namespace Url

/-- The default port of a scheme. -/
def defaultPort? (scheme : List Char) : Option Nat :=
  if scheme = "http".toList || scheme = "ws".toList then some 80
  else if scheme = "https".toList || scheme = "wss".toList then some 443
  else if scheme = "ftp".toList then some 21
  else none

/-- Special schemes always have a host and treat a backslash as a slash. -/
def isSpecial (scheme : List Char) : Bool :=
  (defaultPort? scheme).isSome

/-- The path as it is written. -/
def pathChars (u : Url) : List Char :=
  match u.path with
  | .bare t => t
  | .segments ss => ss.flatMap fun s => '/' :: s

/-- Whether there is a host that is not empty. -/
def hasHost (u : Url) : Bool :=
  u.host.any (!·.isEmpty)

/-- The locator without user, password and fragment, as it is requested. -/
def requestChars (u : Url) : List Char :=
  u.scheme ++ [':'] ++
    (match u.host with
      | some h => ['/', '/'] ++ h ++ (match u.port with
        | some p => ':' :: (toString p).toList
        | none => [])
      | none => match u.path with
        | .segments ([] :: _ :: _) => ['/', '.']
        | _ => []) ++
    u.pathChars ++
    (match u.query with
      | some q => '?' :: q
      | none => [])

/-- The last segment of a path that has segments. -/
def lastSegment? (u : Url) : Option (List Char) :=
  match u.path with
  | .segments ss => ss.getLast?
  | .bare _ => none

end Url

end RecipeFlow
