import FileMarket.Http.Transport

/-!
# HTTP messages as octets

How a request is sent over a connection, and how a reply is cut out of what comes back.
A body ends where its length or its chunks say, else with the connection.
-/

namespace FileMarket.Http

open FileMarket.Text

/-- A line of the head of a message. -/
def headLine (s : String) : String := s ++ "\r\n"

/-- The request as it is sent. -/
def Request.octets (request : Request) : List UInt8 :=
  let url := request.url
  let host := (url.authority.map fun a => { a with userInfo := none }.print).getD ""
  let query := (url.query.map ("?" ++ ·)).getD ""
  let content := match request.content with
    | some content =>
      headLine ("Content-Type: " ++ content.type) ++
        headLine ("Content-Length: " ++ toString content.text.utf8ByteSize)
    | none => ""
  let body := (request.content.map (·.text)).getD ""
  toUtf8 (headLine (request.method.name ++ " " ++ url.path.print ++ query ++ " HTTP/1.1") ++
    headLine ("Host: " ++ host) ++ headLine "Accept: */*" ++ content ++ headLine "" ++ body)

/-- The line at the front, without its line break, and what follows it; none while the
line is not complete. -/
def takeLine (octets : List UInt8) : Option (List UInt8 × List UInt8) :=
  match octets.dropWhile (· != 10) with
  | [] => none
  | _ :: rest =>
    let line := octets.takeWhile (· != 10)
    some (if line.getLast? = some 13 then line.dropLast else line, rest)

/-- The lines up to the first that is empty, and what follows it. -/
def takeHead : Nat → List UInt8 → Option (List (List UInt8) × List UInt8)
  | 0, _ => none
  | fuel + 1, octets => do
    let (line, rest) ← takeLine octets
    if line.isEmpty then return ([], rest)
    let (lines, rest) ← takeHead fuel rest
    return (line :: lines, rest)

/-- The number of a status line. -/
def statusOf? (line : List UInt8) : Option Nat :=
  match (ofUtf8 line).splitOn " " with
  | _ :: code :: _ => code.toNat?
  | _ => none

/-- A header by its name. -/
def headerOf (line : List UInt8) : String × List UInt8 :=
  (ofUtf8 (line.takeWhile (· != 0x3A)), (line.dropWhile (· != 0x3A)).drop 1)

/-- The content of a body in chunks, each behind its length; an empty chunk is the last,
and more of a head may follow it. -/
def takeChunks : Nat → List UInt8 → Option (List UInt8)
  | 0, _ => none
  | fuel + 1, octets => do
    let (line, rest) ← takeLine octets
    let size ← hexDigitsValue? ((ofUtf8 line).toList.takeWhile Char.isAlphanum)
    if size = 0 then
      let _ ← takeHead (rest.length + 1) rest
      return []
    if rest.length < size + 2 then none
    return rest.take size ++ (← takeChunks fuel (rest.drop (size + 2)))

/-- The body behind a head; none while it is not complete. -/
def bodyOf? (reply : Reply) (ended : Bool) (rest : List UInt8) : Option (List UInt8) :=
  if reply.status = 204 ∨ reply.status = 304 then some []
  else if (reply.trimmedHeaders.text? "transfer-encoding").map lowerAscii = some "chunked" then
    takeChunks (rest.length + 1) rest
  else match (reply.trimmedHeaders.text? "content-length").bind String.toNat? with
    | some length => if length ≤ rest.length then some (rest.take length) else none
    | none => if ended then some rest else none

/-- The reply at the front of what came back; none while it is not complete. -/
def Reply.ofOctets? (ended : Bool) (octets : List UInt8) : Option Reply := do
  match ← takeHead (octets.length + 1) octets with
  | ([], _) => none
  | (first, rest) =>
    let status ← first.head?.bind statusOf?
    let reply : Reply := ⟨status, (first.drop 1).map headerOf, []⟩
    return { reply with body := ← bodyOf? reply ended rest }

end FileMarket.Http
