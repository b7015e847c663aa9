import FileMarket.Text.Ascii
import FileMarket.Text.Utf8
import FileMarket.Url.Basic

/-!
# HTTP messages

The requests that are made to the node, the responses to them, and the client of the web
that gets one for the other.
-/

namespace FileMarket.Http

open FileMarket.Text

/-- The methods that the node is asked with. -/
inductive Method where
  | get
  | post
deriving DecidableEq, Repr

/-- The word for a method. -/
def Method.name : Method → String
  | .get => "GET"
  | .post => "POST"

/-- What a request carries. -/
structure Content where
  type : String
  text : String
deriving DecidableEq, Repr

/-- A request. -/
structure Request where
  method : Method
  url : Url
  content : Option Content
deriving DecidableEq, Repr

/-- The headers of a message. Their values are octets, since a server may send any. -/
abbrev Headers := List (String × List UInt8)

/-- Whether an octet may stand in a header that is read. -/
def isHeaderOctet (octet : UInt8) : Bool := (0x20 ≤ octet && octet < 0x7F) || octet = 0x09

/-- The text of a header; of repeated headers the first counts, and one with other than
ASCII characters is absent. -/
def Headers.text? (headers : Headers) (name : String) : Option String := do
  let (_, octets) ← headers.find? fun (key, _) => sameAscii key name
  if octets.all isHeaderOctet then some (ofUtf8 octets) else none

/-- A response as a client of the web hands it over. What is left to do is to read the
body, either as a text, in the charset that the client takes it to be in, or as octets,
with the codings of the content undone. Reading fails with a message. -/
structure Response where
  status : Nat
  headers : Headers
  text : Except String String
  data : Except String (List UInt8)

/-- The words for the statuses that have one. -/
def reasons : List (Nat × String) := [
  (100, "Continue"), (101, "Switching Protocols"), (102, "Processing"), (103, "Early Hints"),
  (200, "OK"), (201, "Created"), (202, "Accepted"), (203, "Non Authoritative Information"),
  (204, "No Content"), (205, "Reset Content"), (206, "Partial Content"), (207, "Multi-Status"),
  (208, "Already Reported"), (226, "IM Used"),
  (300, "Multiple Choices"), (301, "Moved Permanently"), (302, "Found"), (303, "See Other"),
  (304, "Not Modified"), (305, "Use Proxy"), (307, "Temporary Redirect"),
  (308, "Permanent Redirect"),
  (400, "Bad Request"), (401, "Unauthorized"), (402, "Payment Required"), (403, "Forbidden"),
  (404, "Not Found"), (405, "Method Not Allowed"), (406, "Not Acceptable"),
  (407, "Proxy Authentication Required"), (408, "Request Timeout"), (409, "Conflict"),
  (410, "Gone"), (411, "Length Required"), (412, "Precondition Failed"),
  (413, "Payload Too Large"), (414, "URI Too Long"), (415, "Unsupported Media Type"),
  (416, "Range Not Satisfiable"), (417, "Expectation Failed"), (418, "I'm a teapot"),
  (421, "Misdirected Request"), (422, "Unprocessable Entity"), (423, "Locked"),
  (424, "Failed Dependency"), (425, "Too Early"), (426, "Upgrade Required"),
  (428, "Precondition Required"), (429, "Too Many Requests"),
  (431, "Request Header Fields Too Large"), (451, "Unavailable For Legal Reasons"),
  (500, "Internal Server Error"), (501, "Not Implemented"), (502, "Bad Gateway"),
  (503, "Service Unavailable"), (504, "Gateway Timeout"), (505, "HTTP Version Not Supported"),
  (506, "Variant Also Negotiates"), (507, "Insufficient Storage"), (508, "Loop Detected"),
  (510, "Not Extended"), (511, "Network Authentication Required")]

namespace Response

/-- A status with its word. -/
def statusLine (response : Response) : String :=
  toString response.status ++ " " ++
    (reasons.lookup response.status).getD "<unknown status code>"

/-- Whether the request was carried out. -/
def isSuccess (response : Response) : Bool := 200 ≤ response.status && response.status < 300

end Response

/-- A client of the web, with the network behind it and a state that both keep: for a
request that it is given it hands over a response, or says why there is none. It is a
layer above the wire, and what it does there is left open: where it connects to and how
long it waits, encryption, the headers that it adds, the redirections that it follows by
requests of its own, and the codings and charsets that it knows. -/
abbrev Client (σ : Type) := Request → σ → Except String Response × σ

end FileMarket.Http
