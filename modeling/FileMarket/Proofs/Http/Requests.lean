import FileMarket.Http.Node
import FileMarket.Proofs.Desk.Driving
import FileMarket.Proofs.Wire.Documents
import FileMarket.Proofs.Wire.Wallets

/-!
# Requests that are made for calls

For a call the client is given at most one request, below the base URL and to the endpoint of the
call (`endpoint_of_question`). Keeping the requests changes no answer (`replies_logged`), and what
is kept is what is made for the calls, in their order (`after_logged`). The endpoint for payments is
that of no other call, so the payments among the requests are those of the calls that pay
(`payments_eq`). All of this holds whatever the client does with a request.
-/

set_option autoImplicit false

namespace FileMarket

/-- Whether a call pays for a file. -/
def Call.isPayment : Call → Bool
  | .download _ _ _ => true
  | _ => false

/-- Among calls that do not pay there is no payment. -/
theorem Call.filter_isPayment_eq_nil {calls : List Call}
    (h : ∀ call ∈ calls, call.isPayment = false) : calls.filter (·.isPayment) = [] := by
  rw [List.filter_eq_nil_iff]
  intro call hcall
  rw [h call hcall]
  exact Bool.false_ne_true

/-- The word for the endpoint of a call. -/
def Call.word : Call → String
  | .list target => target.path
  | .add target _ => "add" ++ target.path
  | .delete target _ => "delete" ++ target.path
  | .findProviders _ => "getproviders"
  | .requestMetadata _ _ => "requestmetadata"
  | .download _ _ _ => "downloadfile"
  | .wallet => "wallet"

/-- No other call has the endpoint for payments. -/
theorem Call.word_eq_iff (call : Call) : call.word = "downloadfile" ↔ call.isPayment = true := by
  have hsections : ∀ target : Section, target.path ≠ "downloadfile" ∧
      "add" ++ target.path ≠ "downloadfile" ∧ "delete" ++ target.path ≠ "downloadfile" := by
    intro target
    cases target <;> decide
  cases call with
  | list target => exact iff_of_false (hsections target).1 Bool.false_ne_true
  | add target => exact iff_of_false (hsections target).2.1 Bool.false_ne_true
  | delete target => exact iff_of_false (hsections target).2.2 Bool.false_ne_true
  | findProviders | requestMetadata | download | wallet => simp [word, isPayment]

namespace Http

/-- A client that also keeps the requests that it is given, the first one first. -/
def Client.logged {σ : Type} (client : Client σ) : Client (σ × List Request) :=
  fun request (server, made) =>
    let (response, server) := client request server
    (response, server, made ++ [request])

section Endpoints

variable {base url url' : Url} {word word' : String} {call : Call} {request : Request}

/-- An endpoint replaces the last segment of a path that has segments. -/
theorem endpoint_eq_ok_iff : endpoint base word = .ok url ↔ ∃ parts, base.path = .segments parts ∧
    url = { base with
      path := .segments (parts.dropLast ++ [word])
      query := none
      fragment := none } := by
  unfold endpoint Url.endpoint
  cases base.path with
  | whole text => simp
  | segments parts => simp [eq_comm]

/-- Different words have different endpoints. -/
theorem endpoint_injective (h : endpoint base word = .ok url) (h' : endpoint base word' = .ok url) :
    word = word' := by
  obtain ⟨parts, hparts, rfl⟩ := endpoint_eq_ok_iff.1 h
  obtain ⟨parts', hparts', hurl⟩ := endpoint_eq_ok_iff.1 h'
  obtain rfl : parts = parts' := by simpa [hparts] using hparts'
  simpa using hurl

/-- Where one endpoint has a URL, so has any other. -/
theorem exists_endpoint (h : endpoint base word = .ok url) (word' : String) :
    ∃ url', endpoint base word' = .ok url' := by
  obtain ⟨parts, hparts, -⟩ := endpoint_eq_ok_iff.1 h
  exact ⟨_, endpoint_eq_ok_iff.2 ⟨parts, hparts, rfl⟩⟩

/-- The request of a call goes to the endpoint of the call. -/
theorem endpoint_of_question (h : question base call = .ok request) :
    endpoint base call.word = .ok request.url := by
  have hmap : ∀ {word} {make : Url → Request}, (∀ url, (make url).url = url) →
      (endpoint base word).map make = .ok request → endpoint base word = .ok request.url := by
    intro word make hmake heq
    cases hurl : endpoint base word with
    | error error =>
      rw [hurl] at heq
      cases heq
    | ok url =>
      rw [hurl] at heq
      rw [← Except.ok.inj heq, hmake]
  cases call with
  | list | findProviders | requestMetadata | download | wallet => exact hmap (fun _ => rfl) h
  | add target record | delete target hash =>
    obtain ⟨-, -, hrequest⟩ := Wire.bind_eq_ok_iff.1 h
    exact hmap (fun _ => rfl) hrequest

end Endpoints

/-- The request that is made for a call, if one is. -/
def requestOf? (base : Url) (call : Call) : Option Request := (question base call).toOption

/-- The payments among some requests. -/
def payments (base : Url) (requests : List Request) : List Request :=
  requests.filter fun request => (endpoint base "downloadfile").toOption = some request.url

theorem requestOf?_eq_some_iff {base : Url} {call : Call} {request : Request} :
    requestOf? base call = some request ↔ question base call = .ok request := by
  unfold requestOf?
  cases question base call <;> simp [Except.toOption]

/-- A request is a payment exactly if its call pays. -/
theorem isPayment_of_requestOf? {base : Url} {call : Call} {request : Request}
    (h : requestOf? base call = some request) :
    (endpoint base "downloadfile").toOption = some request.url ↔ call.isPayment = true := by
  have hurl := endpoint_of_question (requestOf?_eq_some_iff.1 h)
  rw [← call.word_eq_iff]
  constructor
  · intro hpayment
    cases hendpoint : endpoint base "downloadfile" with
    | error error =>
      rw [hendpoint] at hpayment
      cases hpayment
    | ok url =>
      rw [hendpoint] at hpayment
      obtain rfl := Option.some.inj hpayment
      exact endpoint_injective hurl hendpoint
  · intro hword
    rw [hword] at hurl
    rw [hurl]
    rfl

/-- The payments among the requests that are made for calls are made for those that pay. -/
theorem payments_eq (base : Url) (calls : List Call) :
    payments base (calls.filterMap (requestOf? base)) =
      (calls.filter (·.isPayment)).filterMap (requestOf? base) := by
  unfold payments
  induction calls with
  | nil => rfl
  | cons call calls ih =>
    cases hrequest : requestOf? base call with
    | none =>
      rw [List.filterMap_cons_none hrequest, ih, List.filter_cons]
      split
      · rw [List.filterMap_cons_none hrequest]
      · rfl
    | some request =>
      rw [List.filterMap_cons_some hrequest, List.filter_cons, List.filter_cons, ih]
      simp only [decide_eq_true_iff, isPayment_of_requestOf? hrequest]
      split
      · rw [List.filterMap_cons_some hrequest]
      · rfl

/-- What is read from a body is what some document stands for. -/
theorem exists_of_readBody {α : Type} {decode : Nat → Document → Except Wire.Fault α}
    {response : Response} {value : α} (h : readBody decode response = .ok value) :
    ∃ document, decode Document.maxDepth document = .ok value := by
  obtain ⟨text, -, hbody⟩ := Wire.bind_eq_ok_iff.1 h
  split at hbody
  · rename_i found hread
    obtain rfl := Except.ok.inj hbody
    exact Wire.exists_of_readAs hread
  · cases hbody

section Node

variable {σ : Type} (client : Client σ) (base : Url)

/-- Keeping the requests changes no answer, and one request is kept for a call that makes one. -/
theorem node_logged (call : Call) (server : σ) (made : List Request) :
    client.logged.node base call (server, made) =
      ((client.node base call server).1, (client.node base call server).2,
        made ++ (requestOf? base call).toList) := by
  unfold Client.node requestOf?
  cases question base call with
  | error error => simp [Except.toOption]
  | ok request => rfl

/-- After some calls the requests that are kept are those that were made for them. -/
theorem after_logged (server : σ) (made : List Request) (calls : List Call) :
    (client.logged.node base).after (server, made) calls =
      ((client.node base).after server calls, made ++ calls.filterMap (requestOf? base)) := by
  unfold Node.after
  induction calls generalizing server made with
  | nil => simp
  | cons call calls ih =>
    rw [List.foldl_cons, node_logged, ih, List.foldl_cons]
    cases hrequest : requestOf? base call <;> simp [hrequest]

/-- After some calls, the payments that are kept are those that were made for them. -/
theorem payments_after (server : σ) (calls : List Call) :
    payments base ((client.logged.node base).after (server, []) calls).2 =
      (calls.filter (·.isPayment)).filterMap (requestOf? base) := by
  rw [after_logged]
  exact payments_eq base calls

/-- Keeping the requests changes no answer, whatever was asked before. -/
theorem replies_logged (server : σ) (made : List Request) :
    (client.logged.node base).replies (server, made) = (client.node base).replies server := by
  funext earlier call
  unfold Node.replies
  rw [after_logged, node_logged]

variable {client} {base}

/-- A call that succeeds has made its request. -/
theorem exists_requestOf? {call : Call} {server : σ} {answer : call.Answer}
    (h : (client.node base call server).1 = .ok answer) :
    ∃ request, requestOf? base call = some request := by
  unfold Client.node at h
  cases hquestion : question base call with
  | error error =>
    rw [hquestion] at h
    cases h
  | ok request => exact ⟨request, requestOf?_eq_some_iff.2 hquestion⟩

/-- Where any call makes a request, a payment makes one. -/
theorem requestOf?_download {call : Call} {request : Request}
    (h : requestOf? base call = some request) (peer hash : String) (price : Binary64) :
    ∃ payment, question base (.download peer hash price) = .ok payment ∧
      requestOf? base (.download peer hash price) = some payment := by
  obtain ⟨url, hurl⟩ :=
    exists_endpoint (endpoint_of_question (requestOf?_eq_some_iff.1 h)) "downloadfile"
  have hpayment : question base (.download peer hash price) = .ok _ :=
    congrArg (Except.map _) hurl
  exact ⟨_, hpayment, requestOf?_eq_some_iff.2 hpayment⟩

/-- The balance of a wallet that has been read is finite. -/
theorem isFinite_of_wallet {server : σ} {wallet : Wallet}
    (h : (client.node base .wallet server).1 = .ok wallet) : wallet.current.isFinite = true := by
  unfold Client.node at h
  cases hquestion : question base .wallet with
  | error error =>
    rw [hquestion] at h
    cases h
  | ok request =>
    rw [hquestion] at h
    obtain ⟨response, -, hanswer⟩ := Wire.bind_eq_ok_iff.1 h
    obtain ⟨document, hdocument⟩ := exists_of_readBody hanswer
    exact (Wire.isPortable_of_walletOfDocument hdocument).current

end Node

end Http

end FileMarket
