import FileMarket.Http.Transport
import FileMarket.Proofs.Http.Requests

/-!
# Exchanges over the wire

Where a reply leads elsewhere, a client may ask again there, so more can go over the wire than the
client is given. Of a client that sends each request once, and more only where it is redirected
(`Client.SendsOnce`), all that goes over the wire belongs to one of the requests it was given
(`wire_after`), and beyond their payments there is at most one for each redirection
(`length_payments_flatten_le`). The plain client is one (`plain_sendsOnce`).
-/

set_option autoImplicit false

namespace FileMarket.Http

open Text

/-! ## One request -/

/-- One exchange over the wire: a request that the other side has taken, and the reply to it if one
came. -/
structure Exchange where
  request : Request
  reply : Option Reply

/-- Whether the reply leads elsewhere. -/
def Exchange.redirects (exchange : Exchange) : Bool :=
  exchange.reply.any fun reply => 300 ≤ reply.status && reply.status < 400 &&
    reply.headers.any fun (key, _) => sameAscii key "location"

/-- What a client sends for one request: nothing if it gives up before, else the request itself, and
something more only while the replies lead elsewhere. -/
structure Sends (request : Request) (exchanges : List Exchange) : Prop where
  first : ∀ exchange, exchanges.head? = some exchange → exchange.request = request
  redirected : exchanges.IsChain fun exchange _ => exchange.redirects = true

/-- All but the last of the exchanges lead elsewhere. -/
theorem length_le_countP_redirects {exchange : Exchange} {later : List Exchange}
    (h : (exchange :: later).IsChain fun exchange _ => exchange.redirects = true) :
    later.length ≤ (exchange :: later).countP (·.redirects) := by
  induction later generalizing exchange with
  | nil => exact Nat.zero_le _
  | cons next later ih =>
    obtain ⟨hredirects, hlater⟩ := List.isChain_cons_cons.1 h
    rw [List.countP_cons_of_pos hredirects, List.length_cons]
    exact Nat.succ_le_succ (ih hlater)

theorem payments_append (base : Url) (requests requests' : List Request) :
    payments base (requests ++ requests') = payments base requests ++ payments base requests' :=
  List.filter_append ..

/-- A request is sent as one payment if it is one, and redirections can lead to more. -/
theorem Sends.length_payments_le {request : Request} {exchanges : List Exchange}
    (h : Sends request exchanges) (base : Url) :
    (payments base (exchanges.map (·.request))).length ≤
      (payments base [request]).length + exchanges.countP (·.redirects) := by
  cases exchanges with
  | nil => exact Nat.zero_le _
  | cons exchange later =>
    obtain rfl := h.first exchange rfl
    have hfirst : payments base ((exchange :: later).map (·.request)) =
        payments base [exchange.request] ++ payments base (later.map (·.request)) :=
      payments_append base [exchange.request] (later.map Exchange.request)
    have hlater : (payments base (later.map (·.request))).length ≤ later.length :=
      (List.length_filter_le _ _).trans_eq (List.length_map _)
    have hredirected := length_le_countP_redirects h.redirected
    rw [hfirst, List.length_append]
    omega

/-! ## A run -/

/-- Beyond the payments among some requests, at most one goes over the wire for each redirection. -/
theorem length_payments_flatten_le {requests : List Request} {sent : List (List Exchange)}
    (h : List.Forall₂ Sends requests sent) (base : Url) :
    (payments base (sent.flatten.map (·.request))).length ≤
      (payments base requests).length + sent.flatten.countP (·.redirects) := by
  induction h with
  | nil => exact Nat.zero_le _
  | @cons request exchanges requests sent hsends _ ih =>
    have hone := hsends.length_payments_le base
    have hrequests : payments base (request :: requests) =
        payments base [request] ++ payments base requests := payments_append base [request] requests
    rw [hrequests, List.flatten_cons, List.map_append, payments_append, List.length_append,
      List.length_append, List.countP_append]
    omega

section Client

variable {σ : Type}

/-- The exchanges over the wire, which can be seen in the state that a client keeps with the
network, are those that it sends for each request that it is given. -/
def Client.SendsOnce (client : Client σ) (wire : σ → List Exchange) : Prop :=
  ∀ request server, ∃ exchanges, Sends request exchanges ∧
    wire (client request server).2 = wire server ++ exchanges

/-- After some calls, what went over the wire was sent for the requests that they made. -/
theorem wire_after {client : Client σ} {wire : σ → List Exchange} (h : client.SendsOnce wire)
    (base : Url) (server : σ) (calls : List Call) :
    ∃ sent, List.Forall₂ Sends (calls.filterMap (requestOf? base)) sent ∧
      wire ((client.node base).after server calls) = wire server ++ sent.flatten := by
  induction calls generalizing server with
  | nil => exact ⟨[], .nil, (List.append_nil _).symm⟩
  | cons call calls ih =>
    obtain ⟨later, hlater, hwire⟩ := ih (client.node base call server).2
    have hafter : (client.node base).after server (call :: calls) =
        (client.node base).after (client.node base call server).2 calls := rfl
    rw [hafter, hwire]
    cases hquestion : question base call with
    | error error =>
      have hnone : requestOf? base call = none := by rw [requestOf?, hquestion]; rfl
      have hserver : (client.node base call server).2 = server := by
        rw [Client.node, hquestion]
      rw [List.filterMap_cons_none hnone, hserver]
      exact ⟨later, hlater, rfl⟩
    | ok request =>
      have hserver : (client.node base call server).2 = (client request server).2 := by
        rw [Client.node, hquestion]
      obtain ⟨exchanges, hsends, hone⟩ := h request server
      rw [List.filterMap_cons_some (requestOf?_eq_some_iff.2 hquestion), hserver, hone]
      exact ⟨exchanges :: later, .cons hsends hlater, by rw [List.flatten_cons, List.append_assoc]⟩

/-- A wire that also keeps the exchanges over it, the first one first. -/
def Transport.traced (transport : Transport σ) : Transport (σ × List Exchange) :=
  fun request (server, kept) =>
    let (reply, server) := transport request server
    (reply, server, kept ++ [⟨request, reply⟩])

/-- The plain client sends each request once at most, and never asks again. -/
theorem plain_sendsOnce (transport : Transport σ) :
    (Client.plain transport.traced).SendsOnce (·.2) := by
  rintro request ⟨server, kept⟩
  unfold Client.plain Transport.traced
  cases request.url.isWeb with
  | false =>
    exact ⟨[], ⟨nofun, .nil⟩, (List.append_nil _).symm⟩
  | true =>
    refine ⟨[⟨request, (transport request server).1⟩], ⟨?_, .singleton _⟩, ?_⟩
    · rintro exchange hfirst
      rw [← Option.some.inj hfirst]
    · dsimp only
      cases (transport request server).1 <;> rfl

end Client

end FileMarket.Http
