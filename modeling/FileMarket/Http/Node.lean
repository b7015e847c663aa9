import FileMarket.Disposition
import FileMarket.Http.Message
import FileMarket.Node
import FileMarket.Url.Reader
import FileMarket.Wire.Texts
import FileMarket.Wire.Wallet

/-!
# The node over HTTP

Each call is one request below the node's base URL, and the response to it is read as the
answer. A call that is refused on this side makes no request.
-/

namespace FileMarket.Http

open FileMarket.Text
open FileMarket.Wire

/-- The base URL for the text that the user gives, with a slash at the end. -/
def readBase (text : String) : Outcome Url :=
  match Url.parse (trim text) with
  | .ok url => .ok url.withEndSlash
  | .error fault => .error (.validation ("invalid api url " ++ text ++ ": " ++ fault.message))

/-- The URL of an endpoint. -/
def endpoint (base : Url) (word : String) : Outcome Url :=
  match base.endpoint word with
  | .ok url => .ok url
  | .error fault => .error (.validation ("invalid endpoint " ++ word ++ ": " ++ fault.message))

/-- A request that asks for a listing. -/
def getRequest (base : Url) (word : String) : Outcome Request :=
  (endpoint base word).map fun url => ⟨.get, url, none⟩

/-- A request that carries a text. -/
def textRequest (base : Url) (word text : String) : Outcome Request :=
  (endpoint base word).map fun url => ⟨.post, url, some ⟨"text/plain", text⟩⟩

/-- A request that carries a value. -/
def jsonRequest (base : Url) (word : String) (value : Json) : Outcome Request :=
  (endpoint base word).map fun url => ⟨.post, url, some ⟨"application/json", value.print⟩⟩

/-- Refuses to change a section that cannot be changed. -/
def requireMutable (target : Section) : Outcome Unit :=
  if target.isMutable then .ok ()
  else .error (.unavailable (target.label ++ " cannot be changed"))

/-- The request that a call makes. -/
def question (base : Url) : Call → Outcome Request
  | .list target => getRequest base target.path
  | .add target record => do
    requireMutable target
    jsonRequest base ("add" ++ target.path) (recordToJson record)
  | .delete target hash => do
    requireMutable target
    textRequest base ("delete" ++ target.path) hash
  | .findProviders hash => textRequest base "getproviders" hash
  | .requestMetadata peer hash =>
    jsonRequest base "requestmetadata" (.object [("peer", .text peer), ("hash", .text hash)])
  | .download peer hash price =>
    jsonRequest base "downloadfile"
      (.object [("peer", .text peer), ("hash", .text hash), ("price", .number (.real price))])
  | .wallet => getRequest base "wallet"

/-- The text of a body, unless it cannot be read. -/
def bodyText (response : Response) : Outcome String := response.text.mapError .transport

/-- Reads a body as what a document stands for; a blank body counts as null. -/
def readBody {α : Type} (decode : Nat → Document → Except Fault α) (response : Response) :
    Outcome α := do
  let text ← bodyText response
  match readAs decode (if allBlank text then "null" else text) with
  | .ok value => return value
  | .error fault => throw (.transport ("unexpected response: " ++ fault.message))

/-- The notice in a body: plain text or a JSON string, without outer blanks. -/
def readNotice (response : Response) : Outcome (Option String) := do
  let body ← bodyText response
  let text := trim (match Json.parse? body with
    | some (.text s) => s
    | some .null => ""
    | _ => body)
  return if text.isEmpty then none else some text

/-- The payload in a response, under the name that its headers give. -/
def readPayload (response : Response) : Outcome Payload := do
  let data ← response.data.mapError .transport
  return {
    fileName := (response.headers.text? "content-disposition").bind dispositionFileName
    contentType := response.headers.text? "content-type"
    data := data }

/-- Reads the response to a call that was carried out. -/
def readAnswer (call : Call) (response : Response) : Outcome call.Answer :=
  match call with
  | .list _ => readBody recordsOfDocument response
  | .add _ _ | .delete _ _ => readNotice response
  | .findProviders _ => readBody textsOfDocument response
  | .requestMetadata peer hash => do
    match ← readBody recordOfDocument? response with
    | some record => return record
    | none => throw (.notFound (peer ++ " has no metadata for " ++ hash))
  | .download _ _ _ => readPayload response
  | .wallet => readBody walletOfDocument response

/-- The response to a request, if the node carried it out. A body that cannot be read adds
nothing to the status. -/
def acceptResponse : Except String Response → Outcome Response
  | .error message => .error (.transport message)
  | .ok response =>
    if response.isSuccess then .ok response
    else
      let body := response.text.toOption.getD ""
      .error (.transport (response.statusLine ++ ": " ++ trim body))

/-- The node below a base URL, as a client of the web reaches it. -/
def Client.node {σ : Type} (client : Client σ) (base : Url) : Node σ := fun call server =>
  match question base call with
  | .error error => (.error error, server)
  | .ok request =>
    let (response, server) := client request server
    ((acceptResponse response).bind (readAnswer call), server)

end FileMarket.Http
