import FileMarket.Http.Node

/-!
# The wire

Replies as they come over the wire, and the plain client by which the command line is run:
it sends each request once and takes the reply as it stands.
-/

namespace FileMarket.Http

open FileMarket.Text

/-- A reply as it stands on the wire. -/
structure Reply where
  status : Nat
  headers : Headers
  body : List UInt8
deriving DecidableEq, Repr

namespace Reply

/-- The octets behind the headers. Some statuses never have any. -/
def content (reply : Reply) : List UInt8 :=
  if reply.status = 204 ∨ reply.status = 304 then [] else reply.body

/-- A header value without the blanks and tabs around it. -/
def trimHeader (octets : List UInt8) : List UInt8 :=
  let isOuter (octet : UInt8) : Bool := octet = 0x20 || octet = 0x09
  ((octets.dropWhile isOuter).reverse.dropWhile isOuter).reverse

/-- The headers without the blanks and tabs around their values. -/
def trimmedHeaders (reply : Reply) : Headers :=
  reply.headers.map fun (key, octets) => (key, trimHeader octets)

/-- The reply taken as it stands: its content is not coded, and its text is UTF-8, where a
byte order mark at the front does not count. -/
def response (reply : Reply) : Response where
  status := reply.status
  headers := reply.trimmedHeaders
  text := .ok (withoutMark (ofUtf8 reply.content))
  data := .ok reply.content

end Reply

/-- The wire, with a state of its own: a request goes out once as it is, and one reply
comes back, or nobody answers. -/
abbrev Transport (σ : Type) := Request → σ → Option Reply × σ

/-- The client by which the command line is run. Of what a client of the web can do it
leaves out redirections, where it hands over the reply as any other, codings of the
content, and all charsets but UTF-8. It sends to URLs of the web only. -/
def Client.plain {σ : Type} (transport : Transport σ) : Client σ := fun request server =>
  let place := " for url (" ++ request.url.print ++ ")"
  if request.url.isWeb then
    match transport request server with
    | (some reply, server) => (.ok reply.response, server)
    | (none, server) => (.error ("error sending request" ++ place), server)
  else (.error ("builder error" ++ place), server)

/-- The node below a base URL, as the plain client reaches it over a wire. -/
def node {σ : Type} (base : Url) (transport : Transport σ) : Node σ :=
  (Client.plain transport).node base

end FileMarket.Http
