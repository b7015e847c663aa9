import FileMarket.Text.FormValue
import FileMarket.Url.Address
import FileMarket.Url.Basic
import FileMarket.Url.Punycode

/-!
# Reading URLs

A reader for absolute URLs by the rules of the web: control characters and blanks
around the text and line breaks inside it do not count, scheme and host are in lower
case, dots in the path are resolved, and a number behind the host is left out when the
scheme implies it.
-/

namespace FileMarket

open Text

/-- The kinds of schemes that are read differently. -/
inductive SchemeKind where
  /-- A scheme of the web: a host is required, and a backslash is a slash. -/
  | web
  | file
  | other
deriving DecidableEq, Repr

namespace SchemeKind

/-- The kind of a scheme. -/
def ofScheme (scheme : String) : SchemeKind :=
  if ["http", "https", "ws", "wss", "ftp"].contains scheme then .web
  else if scheme = "file" then .file
  else .other

/-- Whether a backslash divides as a slash does. -/
def bendsSlashes (kind : SchemeKind) : Bool := kind != .other

/-- Whether a character divides the path. -/
def isSlash (kind : SchemeKind) (c : Char) : Bool := c == '/' || (c == '\\' && kind.bendsSlashes)

/-- Whether a character ends the authority. -/
def endsAuthority (kind : SchemeKind) (c : Char) : Bool :=
  kind.isSlash c || c == '?' || c == '#'

end SchemeKind

namespace Url

/-- The number behind the host that a scheme implies. -/
def impliedPort : String → Option Nat
  | "http" | "ws" => some 80
  | "https" | "wss" => some 443
  | "ftp" => some 21
  | _ => none

/-- The text that counts: nothing up to the blank around it, and no line breaks and
tabs inside it. -/
def clean (s : List Char) : List Char :=
  let isOuter (c : Char) : Bool := c.toNat ≤ 0x20
  let inner := ((s.dropWhile isOuter).reverse.dropWhile isOuter).reverse
  inner.filter fun c => c != '\t' && c != '\n' && c != '\r'

/-- The scheme, in lower case, and what follows its colon. -/
def readScheme (s : List Char) : Option (String × List Char) :=
  let isSchemeChar (c : Char) : Bool := c.isAlphanum || c == '+' || c == '-' || c == '.'
  let word := s.takeWhile isSchemeChar
  match s.dropWhile isSchemeChar with
  | ':' :: rest =>
    if (word.head?.map Char.isAlpha).getD false then
      some (String.ofList (word.map Char.toLower), rest)
    else none
  | _ => none

/-- The part of an authority before the last at sign, and the part behind it. -/
def splitUser (s : List Char) : Option (List Char) × List Char :=
  if s.contains '@' then
    let behind := (s.reverse.takeWhile (· != '@')).reverse
    (some (s.take (s.length - behind.length - 1)), behind)
  else (none, s)

/-- The written form of a user and password. An empty password leaves no colon, and
nothing at all no at sign. -/
def writeUser (s : List Char) : Option String :=
  let name := UrlPart.userInfo.write (s.takeWhile (· != ':'))
  let password := UrlPart.userInfo.write ((s.dropWhile (· != ':')).drop 1)
  if password.isEmpty then if name.isEmpty then none else some (String.ofList name)
  else some (String.ofList (name ++ ':' :: password))

/-- The host at the front, and what follows it: a colon outside of brackets ends it. -/
def spanHost (inBrackets : Bool) : List Char → List Char × List Char
  | [] => ([], [])
  | c :: rest =>
    if c = ':' ∧ !inBrackets then ([], c :: rest)
    else
      let (host, after) := spanHost (c == '[' || (inBrackets && c != ']')) rest
      (c :: host, after)

/-- A host in brackets. -/
def readIpv6 (s : List Char) : Except UrlFault String :=
  if s.getLast? ≠ some ']' then .error .badIpv6
  else match Ipv6.parse? (s.drop 1).dropLast with
    | some pieces => .ok ("[" ++ Ipv6.print pieces ++ "]")
    | none => .error .badIpv6

/-- The characters that no domain has. -/
def isForbidden (c : Char) : Bool :=
  c.toNat ≤ 0x20 || c.toNat = 0x7F || "#%/:<>?@[\\]^|".toList.contains c

/-- The characters that no host of another scheme has. -/
def isForbiddenElsewhere (c : Char) : Bool :=
  c.toNat = 0 || " \t\n\r#/:<>?@[\\]^|".toList.contains c

/-- A host of the web: a domain in its ASCII form, or an address. -/
def readDomain (s : List Char) : Except UrlFault String :=
  let decoded := ofUtf8 (percentDecode (toUtf8 (String.ofList s)))
  let domain := Punycode.domain decoded.toList
  if domain.any isForbidden then .error .badDomain
  else if domain.isEmpty then .error .emptyHost
  else if Ipv4.isMeant domain then
    match Ipv4.ofHost? domain with
    | some address => .ok (Ipv4.print address)
    | none => .error .badIpv4
  else .ok (String.ofList domain)

/-- The written form of a host. -/
def readHost (kind : SchemeKind) (s : List Char) : Except UrlFault String :=
  if s.head? = some '[' then readIpv6 s
  else match kind with
    | .web => if s.isEmpty then .error .emptyHost else readDomain s
    | .file => if s.isEmpty then .ok "" else do
      let host ← readDomain s
      return if host = "localhost" then "" else host
    | .other =>
      if s.any isForbiddenElsewhere then .error .badHostCharacter
      else .ok (String.ofList (UrlPart.host.write s))

/-- The number behind a host, if it is not the one that the scheme implies. -/
def readPort (scheme : String) : List Char → Except UrlFault (Option Nat)
  | ':' :: digits =>
    if digits.all Char.isDigit ∧ digitsValue digits < UInt16.size then
      let number := digitsValue digits
      .ok (if digits.isEmpty ∨ impliedPort scheme = some number then none else some number)
    else .error .badPort
  | _ => .ok none

/-- An authority. A user or a number without a host is refused. -/
def readAuthority (scheme : String) (kind : SchemeKind) (s : List Char) :
    Except UrlFault Authority := do
  let (user, place) := splitUser s
  let userInfo := user.bind writeUser
  let (host, rest) := if kind = .file then (place, []) else spanHost false place
  let written ← readHost kind host
  if written.isEmpty ∧ kind ≠ .file ∧ (user.isSome ∨ !rest.isEmpty) then throw .emptyHost
  let number ← readPort scheme rest
  return ⟨userInfo, written, number⟩

/-- The segments of a path, divided by slashes. -/
def splitSegments (kind : SchemeKind) (s : List Char) : List (List Char) :=
  (s.map fun c => if kind.isSlash c then '/' else c).splitOn '/'

/-- A segment with the escapes of dots undone, in lower case. -/
def plainDots : List Char → List Char
  | '%' :: '2' :: 'e' :: rest | '%' :: '2' :: 'E' :: rest => '.' :: plainDots rest
  | c :: rest => c :: plainDots rest
  | [] => []

/-- Resolves the dots in a path: one stays in place, two go back by one segment, and
either leaves an empty segment at the end. -/
def resolveDots : List (List Char) → List (List Char) → List (List Char)
  | done, [] => done
  | done, [last] =>
    if plainDots last = ['.'] then done ++ [[]]
    else if plainDots last = ['.', '.'] then done.dropLast ++ [[]]
    else done ++ [last]
  | done, part :: rest =>
    if plainDots part = ['.'] then resolveDots done rest
    else if plainDots part = ['.', '.'] then resolveDots done.dropLast rest
    else resolveDots (done ++ [part]) rest

/-- The segments of a path, without the slash at its front. A scheme of the web has at
least one segment. -/
def readSegments (kind : SchemeKind) (s : List Char) : List String :=
  if s.isEmpty ∧ kind = .other then []
  else
    let body := match s with
      | c :: rest => if kind.isSlash c then rest else c :: rest
      | [] => []
    (resolveDots [] (splitSegments kind body)).map fun part =>
      String.ofList (UrlPart.path.write part)

/-- What stands before the first of some characters, and what begins with it. -/
def spanUntil (stops : List Char) (s : List Char) : List Char × List Char :=
  s.span fun c => !stops.contains c

/-- Query and fragment, from where the path ends. -/
def readTail (kind : SchemeKind) (s : List Char) : Option String × Option String :=
  let (front, back) := spanUntil ['#'] s
  let part : UrlPart := if kind.bendsSlashes then .webQuery else .query
  (match front with
    | [] => none
    | _ :: query => some (String.ofList (part.write query)),
  match back with
    | [] => none
    | _ :: fragment => some (String.ofList (UrlPart.fragment.write fragment)))

/-- What follows two slashes, if they stand at the front. -/
def afterSlashes (kind : SchemeKind) : List Char → Option (List Char)
  | a :: b :: rest => if kind.isSlash a && kind.isSlash b then some rest else none
  | _ => none

/-- Reads an absolute URL. -/
def parse (text : String) : Except UrlFault Url := do
  match readScheme (clean text.toList) with
  | none => throw .noScheme
  | some (scheme, s) =>
    let kind := SchemeKind.ofScheme scheme
    let (front, tail) := spanUntil ['?', '#'] s
    let (query, fragment) := readTail kind tail
    let behind := match kind with
      | .web => some (front.dropWhile kind.isSlash)
      | .file =>
        some ((afterSlashes kind front).getD
          (if (front.head?.map kind.isSlash).getD false then front else '/' :: front))
      | .other => afterSlashes kind front
    match behind with
    | some rest =>
      let (place, path) := rest.span fun c => !kind.endsAuthority c
      let authority ← readAuthority scheme kind place
      return ⟨scheme, some authority, .segments (readSegments kind path), query, fragment⟩
    | none =>
      let path : UrlPath := match front with
        | '/' :: _ => .segments (readSegments kind front)
        | _ => .whole (String.ofList (UrlPart.wholePath.write front))
      return ⟨scheme, none, path, query, fragment⟩

end Url

end FileMarket
