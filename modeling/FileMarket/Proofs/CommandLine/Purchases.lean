import FileMarket.Proofs.CommandLine.Buying
import FileMarket.Proofs.Http.Exchanges

/-!
# Purchases by the command line

Over HTTP a payment is a request to one endpoint. Whatever the client of the web makes of requests,
and whatever the user types, a purchase asks for one payment, of what was offered and agreed to, or
for none at all. If the client sends each request once, what goes over the wire was sent for these
requests (`bought_as_agreed`).
-/

set_option autoImplicit false

namespace FileMarket.CommandLine

open Text

variable {σ : Type}

/-- How a purchase by the command line ends, with a client of the web that keeps the requests it is
given. -/
def purchase (base : Url) (web : Http.Client σ) (today : Date) (server : σ)
    (directory : Directory) (typed : List Char) (text : String) (given : Option String)
    (yes : Bool) : Ending (σ × List Http.Request) :=
  let client : Client (σ × List Http.Request) := ⟨web.logged.node base, today⟩
  client.finish (.download text given yes) (.start ⟨(server, []), directory⟩ typed)

/-- The requests that a run has made. -/
def Ending.requests (ending : Ending (σ × List Http.Request)) : List Http.Request :=
  ending.console.world.server.2

/-- The payments that a run has asked for. -/
def Ending.payments (ending : Ending (σ × List Http.Request)) (base : Url) : List Http.Request :=
  Http.payments base ending.requests

theorem finish_eq_ends (client : Client σ) (task : Task) (console : Console σ) :
    ((client.finish task console).code = 0 ↔ (ends (client.program task) console).1 = true) ∧
      (client.finish task console).console = (ends (client.program task) console).2 := by
  unfold Client.finish ends
  cases (client.program task).run console with
  | ok value console' => exact ⟨iff_of_true rfl rfl, rfl⟩
  | error fault console' => exact ⟨iff_of_false Nat.one_ne_zero Bool.false_ne_true, rfl⟩

section

variable (base : Url) (web : Http.Client σ) (today : Date) (server : σ)
  (directory : Directory) (typed : List Char) (text : String) (given : Option String) (yes : Bool)

/-- A purchase is settled or fails, over HTTP as at any node. -/
theorem purchase_ends :
    let offered := Offered ((web.node base).replies server) (trim text) given typed
    let ending := purchase base web today server directory typed text given yes
    let node := web.logged.node base
    (∃ offer, offered offer ∧ Client.Settled node (trim text) yes offer ⟨(server, []), directory⟩
      (ending.code = 0) ending.console) ∨
    (∀ offer, ¬ offered offer) ∧ ending.code ≠ 0 ∧ ∃ calls,
      (∀ call ∈ calls, call.isPayment = false) ∧
        ending.console.world.server = node.after (server, []) calls := by
  intro offered ending node
  let client : Client (σ × List Http.Request) := ⟨node, today⟩
  let console : Console (σ × List Http.Request) := .start ⟨(server, []), directory⟩ typed
  have hreplies : node.replies (server, []) = (web.node base).replies server :=
    Http.replies_logged web base server []
  have hfinite : ∀ earlier wallet, node.replies (server, []) earlier .wallet = .ok wallet →
      wallet.current.isFinite = true := by
    intro earlier wallet h
    rw [hreplies] at h
    exact Http.isFinite_of_wallet h
  have hcode : ending.code = 0 ↔ (ends (client.download text given yes) console).1 = true :=
    (finish_eq_ends client (.download text given yes) console).1
  have hconsole : ending.console = (ends (client.download text given yes) console).2 :=
    (finish_eq_ends client (.download text given yes) console).2
  have hends := client.download_ends console text given yes hfinite
  rw [show client.node.replies console.world.server = _ from hreplies] at hends
  rw [hconsole, propext hcode]
  rcases hends with hsettled | ⟨hnone, hfails, calls, hunpaid, hworld⟩
  · exact Or.inl hsettled
  · refine Or.inr ⟨hnone, ?_, calls, hunpaid, ?_⟩
    · rw [Ne, hcode, hfails]
      exact Bool.false_ne_true
    · rw [hworld]
      rfl

section Requests

variable {base web server typed} {ending : Ending (σ × List Http.Request)}

/-- The payments that a run has asked for are those among its calls. -/
theorem payments_of_told {calls : List Call}
    (hserver : ending.console.world.server =
      (web.logged.node base).after (server, []) calls) :
    ending.payments base = (calls.filter (·.isPayment)).filterMap (Http.requestOf? base) := by
  rw [Ending.payments, Ending.requests, hserver]
  exact Http.payments_after web base server calls

theorem payments_of_unpaid {calls : List Call}
    (hcalls : ∀ call ∈ calls, call.isPayment = false)
    (hserver : ending.console.world.server =
      (web.logged.node base).after (server, []) calls) : ending.payments base = [] := by
  rw [payments_of_told hserver, Call.filter_isPayment_eq_nil hcalls, List.filterMap_nil]

/-- A run that pays for an offer asks for one payment. The request can be made, because the one for
the listing was made with the same base. -/
theorem payments_of_paid {hash : String} {given : Option String} {offer : Offer}
    (hoffered : Offered ((web.node base).replies server) hash given typed offer)
    (hserver : ending.console.world.server =
      (web.logged.node base).after (server, []) (offer.calls ++ [offer.payment hash])) :
    ∃ request, Http.jsonRequest base "downloadfile" (.object [("peer", .text offer.peer),
        ("hash", .text hash), ("price", .number (.real offer.price))]) = .ok request ∧
      ending.payments base = [request] := by
  obtain ⟨records, hrecords⟩ := hoffered.listed
  obtain ⟨listing, hlisting⟩ := Http.exists_requestOf? hrecords
  obtain ⟨request, hquestion, hrequest⟩ :=
    Http.requestOf?_download hlisting offer.peer hash offer.price
  refine ⟨request, hquestion, ?_⟩
  rw [payments_of_told hserver, List.filter_append,
    Call.filter_isPayment_eq_nil hoffered.funded.unpaid, List.nil_append]
  exact List.filterMap_cons_some hrequest

end Requests

/-- A run has made calls, and nothing else has changed what the client keeps. -/
theorem exists_calls : ∃ calls,
    (purchase base web today server directory typed text given yes).console.world.server =
      (web.logged.node base).after (server, []) calls := by
  rcases purchase_ends base web today server directory typed text given yes with
    ⟨offer, -, hsettled⟩ | ⟨-, -, calls, -, hserver⟩
  · by_cases hagreed : offer.Agreed yes
    · exact ⟨_, hsettled.paid hagreed⟩
    · exact ⟨_, congrArg World.server (hsettled.declined hagreed).2⟩
  · exact ⟨calls, hserver⟩

/-- With no offer that the user agrees to, a run asks for no payment. -/
theorem payments_eq_nil (hrefused : ∀ offer,
      Offered ((web.node base).replies server) (trim text) given typed offer → ¬ offer.Agreed yes) :
    (purchase base web today server directory typed text given yes).payments base = [] := by
  rcases purchase_ends base web today server directory typed text given yes with
    ⟨offer, hoffered, hsettled⟩ | ⟨-, -, calls, hcalls, hserver⟩
  · have hdeclined := hsettled.declined (hrefused offer hoffered)
    exact payments_of_unpaid hoffered.funded.unpaid (congrArg World.server hdeclined.2)
  · exact payments_of_unpaid hcalls hserver

/-- A run that ends well has led to an offer. -/
theorem exists_offered
    (hcode : (purchase base web today server directory typed text given yes).code = 0) :
    ∃ offer, Offered ((web.node base).replies server) (trim text) given typed offer := by
  rcases purchase_ends base web today server directory typed text given yes with
    ⟨offer, hoffered, -⟩ | ⟨-, hfails, -⟩
  · exact ⟨offer, hoffered⟩
  · exact absurd hcode hfails

section Settled

variable {base web server typed text given} {offer : Offer}

/-- A purchase is settled by the one offer that there is. -/
theorem settled_of_offered
    (hoffered : Offered ((web.node base).replies server) (trim text) given typed offer) :
    let ending := purchase base web today server directory typed text given yes
    Client.Settled (web.logged.node base) (trim text) yes offer ⟨(server, []), directory⟩
      (ending.code = 0) ending.console := by
  rcases purchase_ends base web today server directory typed text given yes with
    ⟨other, hother, hsettled⟩ | ⟨hnone, -⟩
  · obtain rfl := hother.unique hoffered
    exact hsettled
  · exact absurd hoffered (hnone offer)

/-- With an offer, a run ends well exactly if the offer is declined, or is agreed to and the file is
saved. -/
theorem code_of_offered
    (hoffered : Offered ((web.node base).replies server) (trim text) given typed offer) :
    let ending := purchase base web today server directory typed text given yes
    ending.code = 0 ↔ ¬ offer.Agreed yes ∨ offer.Agreed yes ∧
      Delivers ((web.node base).replies server offer.calls (offer.payment (trim text)))
        offer.record directory ending.console.world.directory := by
  intro ending
  have hsettled := settled_of_offered today directory yes hoffered
  by_cases hagreed : offer.Agreed yes
  · have hdelivered := hsettled.delivered hagreed
    dsimp only at hdelivered
    rw [Http.replies_logged] at hdelivered
    refine hdelivered.trans ⟨fun h => Or.inr ⟨hagreed, h⟩, ?_⟩
    exact fun h => h.elim (absurd hagreed) And.right
  · exact iff_of_true (hsettled.declined hagreed).1 (Or.inl hagreed)

end Settled

/-- What goes over the wire was sent for the requests of a run, and there are no payments beyond
those it has asked for but by redirection. -/
theorem sent_for_requests (wire : σ → List Http.Exchange) (h : web.SendsOnce wire) :
    let ending := purchase base web today server directory typed text given yes
    ∃ sent : List (List Http.Exchange), List.Forall₂ Http.Sends ending.requests sent ∧
      wire ending.console.world.server.1 = wire server ++ sent.flatten ∧
      (Http.payments base (sent.flatten.map (·.request))).length ≤
        (ending.payments base).length + sent.flatten.countP (·.redirects) := by
  intro ending
  obtain ⟨calls, hserver⟩ := exists_calls base web today server directory typed text given yes
  rw [Http.after_logged, List.nil_append] at hserver
  obtain ⟨sent, hsent, hwire⟩ := Http.wire_after h base server calls
  have hrequests : ending.requests = calls.filterMap (Http.requestOf? base) :=
    congrArg Prod.snd hserver
  rw [← hrequests] at hsent
  refine ⟨sent, hsent, ?_, Http.length_payments_flatten_le hsent base⟩
  rw [← hwire]
  exact congrArg (fun kept => wire kept.1) hserver

end

/-- A market where one peer has one file for sale, at the price two. -/
def fair : Http.Transport Unit := fun request _ =>
  let text := match request.url.path with
    | .segments ["downloads"] => "[]"
    | .segments ["wallet"] => "\x7b\"balance\":5\x7d"
    | .segments ["getproviders"] => "[\" p1 \",\" \"]"
    | .segments ["requestmetadata"] => "\x7b\"hash\":\"\",\"price\":2\x7d"
    | _ => ""
  (some ⟨200, [], toUtf8 text⟩, ())

/-- The URL of that market. -/
def fairBase : Url := ⟨"http", some ⟨none, "fair", none⟩, .segments [""], none, none⟩

/-- A client that keeps what goes over the wire to that market. -/
def fairWeb : Http.Client (Unit × List Http.Exchange) := .plain fair.traced

/-- The offer of the one peer, when the user has typed yes. -/
def fairOffer : Offer where
  peer := "p1"
  record := { FileRecord.bare "" "" with price := some ⟨0x4000000000000000⟩ }
  price := ⟨0x4000000000000000⟩
  balance := ⟨0x4014000000000000⟩
  calls := lookups "abc" ++ [.requestMetadata "p1" "abc"]
  typed := ['Y', 'e', 's', '\n']

/-- How the purchase at that market ends. -/
def fairEnding : Ending ((Unit × List Http.Exchange) × List Http.Request) :=
  purchase fairBase fairWeb default ((), []) (.absent "") ['Y', 'e', 's', '\n'] " abc " none false

end FileMarket.CommandLine
