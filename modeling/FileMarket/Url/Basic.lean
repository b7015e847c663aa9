import FileMarket.Url.Escape

/-!
# URLs

A URL in its parts, how it is written, and the URL of an endpoint below it.
-/

namespace FileMarket

/-- Why a text is no URL. -/
inductive UrlFault where
  | noScheme
  | emptyHost
  | badDomain
  | badHostCharacter
  | badPort
  | badIpv4
  | badIpv6
  | undividedBase
deriving DecidableEq, Repr

/-- The wording of a fault. -/
def UrlFault.message : UrlFault → String
  | .noScheme => "relative URL without a base"
  | .emptyHost => "empty host"
  | .badDomain => "invalid international domain name"
  | .badHostCharacter => "invalid domain character"
  | .badPort => "invalid port number"
  | .badIpv4 => "invalid IPv4 address"
  | .badIpv6 => "invalid IPv6 address"
  | .undividedBase => "relative URL with a cannot-be-a-base base"

/-- Where a URL points to: the user and the host, as they are written, and the number behind
the host. -/
structure Authority where
  userInfo : Option String
  host : String
  /-- Absent when it is the one that the scheme implies. -/
  portNumber : Option Nat
deriving DecidableEq, Repr

/-- The path of a URL: segments, each behind a slash, or one text. -/
inductive UrlPath where
  | segments (parts : List String)
  | whole (text : String)
deriving DecidableEq, Repr

/-- A URL. -/
structure Url where
  scheme : String
  authority : Option Authority
  path : UrlPath
  query : Option String
  fragment : Option String
deriving DecidableEq, Repr

/-- The written form of an authority. -/
def Authority.print (a : Authority) : String :=
  (match a.userInfo with
    | some userInfo => userInfo ++ "@"
    | none => "") ++ a.host ++
  match a.portNumber with
    | some number => ":" ++ toString number
    | none => ""

/-- The written form of a path. -/
def UrlPath.print : UrlPath → String
  | .segments parts => String.join (parts.map ("/" ++ ·))
  | .whole text => text

namespace Url

/-- The written form of a URL. A path that begins with two slashes is set off where no
authority comes before it. -/
def print (url : Url) : String :=
  let start := match url.authority with
    | some authority => "//" ++ authority.print
    | none => if url.path.print.startsWith "//" then "/." else ""
  url.scheme ++ ":" ++ start ++ url.path.print ++
    (match url.query with
      | some query => "?" ++ query
      | none => "") ++
    match url.fragment with
      | some fragment => "#" ++ fragment
      | none => ""

/-- Whether a URL is one of the web, so that a request can be sent to it. -/
def isWeb (url : Url) : Bool :=
  (url.scheme == "http" || url.scheme == "https") && url.authority.isSome

/-- The URL with a slash at the end of its path. -/
def withEndSlash (url : Url) : Url :=
  { url with
    path := match url.path with
      | .segments parts =>
        .segments (if parts.getLast? = some "" then parts else parts ++ [""])
      | .whole text => .whole (if text.endsWith "/" then text else text ++ "/") }

/-- The URL of an endpoint: a word in place of the last segment of the path, without
query and fragment. -/
def endpoint (url : Url) (word : String) : Except UrlFault Url :=
  match url.path with
  | .segments parts =>
    .ok { url with path := .segments (parts.dropLast ++ [word]), query := none, fragment := none }
  | .whole _ => .error .undividedBase

end Url

end FileMarket
