import FileMarket.Proofs.Negotiation.History

/-!
# The rules of a negotiation

`Transition n event response n'` lists what can come of an event, one rule for each outcome, with
the state that it needs and the state that it leaves. Every event follows one of the rules
(`transition_perform`), so a property of all runs is proved rule by rule.
-/

set_option autoImplicit false

namespace FileMarket

/-- A record as a peer gives it, with the hash that was looked up in place of an empty one. -/
def FileRecord.hashed (record : FileRecord) (hash : String) : FileRecord :=
  if record.hash.isEmpty then { record with hash := hash } else record

@[simp]
theorem FileRecord.hashed_price (record : FileRecord) (hash : String) :
    (record.hashed hash).price = record.price := by
  unfold FileRecord.hashed
  split <;> rfl

namespace Negotiation

open FileMarket.Text

/-- The text of a hash: ASCII letters and digits, at least one. -/
def IsHash (hash : String) : Prop := hash ≠ "" ∧ ∀ c ∈ hash.toList, c.isAlphanum = true

/-- The negotiation just opened. -/
def opened (epoch : Nat) : Negotiation := { closed epoch with isOpen := true, walletPending := true }

/-- The refusal of a blank hash. -/
def blankHash : MarketError := .validation "Please input a hash value."

/-- The negotiation that looks up the providers of a new hash. -/
def sought (n : Negotiation) (hash : String) : Negotiation :=
  { n with
    seq := n.seq + 1
    hash := hash
    phase := .searching
    resume := .idle
    pending := some ⟨n.epoch, n.seq + 1, hash, none⟩
    providers := []
    chosen := none
    metadata := none
    error := none
    saved := none }

/-- The negotiation after a new hash that cannot be one. -/
def unsought (n : Negotiation) (hash : String) : Negotiation :=
  { n with
    hash := hash
    phase := .notFound
    providers := []
    chosen := none
    metadata := none
    error := some noProviders
    saved := none }

/-- What can come of an event. -/
inductive Transition (n : Negotiation) : Event → Response → Negotiation → Prop
  -- Opening and closing begin a new epoch, whatever went before.
  | start : Transition n (.start none) (.made [.wallet (n.epoch + 1)]) (opened (n.epoch + 1))
  | startBlank (text : String) (blank : trim text = "") :
      Transition n (.start (some text)) (.made [.wallet (n.epoch + 1)])
        { opened (n.epoch + 1) with error := some blankHash }
  | startUnfit (text : String) (unfit : ¬ IsHash (trim text)) :
      Transition n (.start (some text)) (.made [.wallet (n.epoch + 1)])
        ((opened (n.epoch + 1)).unsought (trim text))
  | startSearch (text : String) (fit : IsHash (trim text)) :
      Transition n (.start (some text))
        (.made [.wallet (n.epoch + 1), .providers ⟨n.epoch + 1, 1, trim text, none⟩])
        ((opened (n.epoch + 1)).sought (trim text))
  | close : Transition n .close (.made []) (closed (n.epoch + 1))
  -- Moves: most refusals leave no trace, two are remembered as the error.
  | refused (move : Move) (error : MarketError) : Transition n (.move move) (.refused error) n
  | submitBlank (text : String) (isOpen : n.isOpen = true) (idle : n.phase.isBusy = false)
      (unoffered : n.phase ≠ .confirming) (blank : trim text = "") :
      Transition n (.move (.submit text)) (.refused blankHash) { n with error := some blankHash }
  | submitUnfit (text : String) (isOpen : n.isOpen = true) (idle : n.phase.isBusy = false)
      (unoffered : n.phase ≠ .confirming) (unfit : ¬ IsHash (trim text)) :
      Transition n (.move (.submit text)) (.refused noProviders) (n.unsought (trim text))
  | submitSearch (text : String) (isOpen : n.isOpen = true) (idle : n.phase.isBusy = false)
      (unoffered : n.phase ≠ .confirming) (fit : IsHash (trim text)) :
      Transition n (.move (.submit text))
        (.made [.providers ⟨n.epoch, n.seq + 1, trim text, none⟩]) (n.sought (trim text))
  | refreshPeers (isOpen : n.isOpen = true) (listed : n.phase = .peerList) :
      Transition n (.move .refreshPeers) (.made [.providers ⟨n.epoch, n.seq + 1, n.hash, none⟩])
        { n with
          seq := n.seq + 1
          phase := .searching
          resume := .peerList
          pending := some ⟨n.epoch, n.seq + 1, n.hash, none⟩
          error := none }
  | selectPeer (peer : String) (isOpen : n.isOpen = true)
      (listed : n.phase = .peerList ∨ n.phase = .metadataLoading)
      (known : peer ∈ n.providers.map (·.peer)) :
      Transition n (.move (.selectPeer peer))
        (.made [.metadata ⟨n.epoch, n.seq + 1, n.hash, some peer⟩])
        { n with
          seq := n.seq + 1
          phase := .metadataLoading
          pending := some ⟨n.epoch, n.seq + 1, n.hash, some peer⟩
          chosen := some peer
          metadata := none
          error := none }
  | decline (offered : n.phase = .confirming) :
      Transition n (.move .decline) (.made [])
        { n with phase := .peerList, chosen := none, metadata := none, error := none }
  | confirmRefused (record : FileRecord) (error : MarketError) (isOpen : n.isOpen = true)
      (offered : n.phase = .confirming ∨ n.phase = .failed) (hrecord : n.metadata = some record)
      (refused : BalanceGate.check n.balance record.price = .error error) :
      Transition n (.move .confirm) (.refused error) { n with error := some error }
  | confirm (record : FileRecord) (peer : String) (gate : BalanceGate) (isOpen : n.isOpen = true)
      (offered : n.phase = .confirming ∨ n.phase = .failed) (hrecord : n.metadata = some record)
      (hpeer : n.chosen = some peer)
      (passed : BalanceGate.check n.balance record.price = .ok gate) :
      Transition n (.move .confirm)
        (.made [.download ⟨n.epoch, n.seq + 1, n.hash, some peer⟩ gate.price record])
        { n with
          seq := n.seq + 1
          phase := .transferring
          pending := some ⟨n.epoch, n.seq + 1, n.hash, some peer⟩
          error := none }
  | refreshWallet (isOpen : n.isOpen = true) (idle : n.walletPending = false) :
      Transition n (.move .refreshWallet) (.made [.wallet n.epoch])
        { n with walletPending := true, walletError := none }
  -- Answers: one that is not waited for is stale.
  | stale (ticket : Ticket) (answer : Answer)
      (unawaited : n.awaits answer.query.phase ticket = false) :
      Transition n (.answer ticket answer) (.received .stale) n
  | listed (ticket : Ticket) (ids : List String) (awaited : n.awaits .searching ticket = true)
      (found : listProviders n.providers [] ids ≠ []) :
      Transition n (.answer ticket (.providers (.ok ids))) (.received .accepted)
        { n with
          phase := .peerList
          pending := none
          providers := listProviders n.providers [] ids
          error := none }
  | unlisted (ticket : Ticket) (ids : List String) (awaited : n.awaits .searching ticket = true)
      (notFound : listProviders n.providers [] ids = []) :
      Transition n (.answer ticket (.providers (.ok ids))) (.received .accepted)
        { n with phase := .notFound, pending := none, providers := [], error := some noProviders }
  | searchFailed (ticket : Ticket) (error : MarketError)
      (awaited : n.awaits .searching ticket = true) :
      Transition n (.answer ticket (.providers (.error error))) (.received .accepted)
        { n with phase := n.resume, pending := none, error := some error }
  | offered (ticket : Ticket) (record : FileRecord)
      (awaited : n.awaits .metadataLoading ticket = true) :
      Transition n (.answer ticket (.metadata (.ok record))) (.received .accepted)
        { n with
          phase := .confirming
          pending := none
          providers := setPrice ticket.peer (record.hashed n.hash).price n.providers
          metadata := some (record.hashed n.hash) }
  | metadataFailed (ticket : Ticket) (error : MarketError)
      (awaited : n.awaits .metadataLoading ticket = true) :
      Transition n (.answer ticket (.metadata (.error error))) (.received .accepted)
        { n with
          phase := .peerList
          pending := none
          chosen := none
          metadata := none
          error := some error }
  | transferred (ticket : Ticket) (saved : SavedFile)
      (awaited : n.awaits .transferring ticket = true) :
      Transition n (.answer ticket (.transfer (.ok saved))) (.received .accepted)
        { n with phase := .complete, pending := none, saved := some saved }
  | transferFailed (ticket : Ticket) (error : MarketError)
      (awaited : n.awaits .transferring ticket = true) :
      Transition n (.answer ticket (.transfer (.error error))) (.received .accepted)
        { n with phase := .failed, pending := none, error := some error }
  -- Wallets are told apart by the epoch alone.
  | walletStale (epoch : Nat) (result : Outcome Wallet) :
      Transition n (.wallet epoch result) (.received .stale) n
  | walletKnown (epoch : Nat) (wallet : Wallet) (isOpen : n.isOpen = true)
      (same : epoch = n.epoch) :
      Transition n (.wallet epoch (.ok wallet)) (.received .accepted)
        { n with walletPending := false, balance := some wallet.current, walletError := none }
  | walletFailed (epoch : Nat) (error : MarketError) (isOpen : n.isOpen = true)
      (same : epoch = n.epoch) :
      Transition n (.wallet epoch (.error error)) (.received .accepted)
        { n with walletPending := false, walletError := some error }


theorem awaits_eq_true_iff (n : Negotiation) (phase : Phase) (ticket : Ticket) :
    n.awaits phase ticket = true ↔
      n.isOpen = true ∧ n.phase = phase ∧ n.pending = some ticket := by
  simp [awaits, and_assoc]

theorem phase_of_awaits {n : Negotiation} {phase : Phase} {ticket : Ticket}
    (h : n.awaits phase ticket = true) : n.phase = phase :=
  ((awaits_eq_true_iff n phase ticket).1 h).2.1

theorem isOpen_of_requireOpen {n : Negotiation} (h : n.requireOpen = .ok ()) :
    n.isOpen = true := by
  by_contra hclosed
  simp [requireOpen, hclosed] at h

/-- A negotiation gives way to something new exactly when it is open and waits for no answer. -/
theorem requireIdle_eq_ok_iff (n : Negotiation) (what : String) :
    n.requireIdle what = .ok () ↔ n.isOpen = true ∧ n.phase.isBusy = false := by
  unfold requireIdle requireOpen
  cases n.isOpen <;> cases n.phase.isBusy <;> simp [bind, Except.bind, throw, throwThe,
    MonadExceptOf.throw, pure, Except.pure]

/-! ## Every event follows a rule -/

theorem isHash_iff {hash : String} (h : hash ≠ "") :
    IsHash hash ↔ hash.toList.all Char.isAlphanum = true := by
  simp [IsHash, h, List.all_eq_true]

/-- What a search does to a negotiation that gives way to it. -/
theorem submit_of_idle {n : Negotiation} (isOpen : n.isOpen = true) (idle : n.phase.isBusy = false)
    (unoffered : n.phase ≠ .confirming) (text : String) :
    n.submit text =
      if trim text = "" then n.fail blankHash
      else if (trim text).toList.all Char.isAlphanum then
        (n.sought (trim text), .ok (.providers ⟨n.epoch, n.seq + 1, trim text, none⟩))
      else (n.unsought (trim text), .error noProviders) := by
  unfold submit
  rw [(requireIdle_eq_ok_iff n "a search").2 ⟨isOpen, idle⟩]
  simp only [unoffered, if_false, String.isEmpty_iff]
  rfl

theorem transition_start (n : Negotiation) (hash : Option String) :
    Transition n (.start hash) (.made (n.start hash).2) (n.start hash).1 := by
  cases hash with
  | none => exact .start
  | some text =>
    -- The search runs on the negotiation just opened, which gives way to it.
    have hsubmit : submit { closed (n.epoch + 1) with isOpen := true, walletPending := true } text
        = _ := submit_of_idle (n := opened (n.epoch + 1)) rfl rfl (fun h => Phase.noConfusion h) text
    by_cases blank : trim text = ""
    · rw [if_pos blank] at hsubmit
      simp only [start, hsubmit, fail]
      exact .startBlank text blank
    · rw [if_neg blank] at hsubmit
      by_cases fit : IsHash (trim text)
      · rw [if_pos ((isHash_iff blank).1 fit)] at hsubmit
        simp only [start, hsubmit]
        exact .startSearch text fit
      · rw [if_neg (fun h => fit ((isHash_iff blank).2 h))] at hsubmit
        simp only [start, hsubmit]
        exact .startUnfit text fit

theorem transition_submit (n : Negotiation) (text : String) :
    Transition n (.move (.submit text)) (respond (n.submit text)).2
      (respond (n.submit text)).1 := by
  cases hidle : n.requireIdle "a search" with
  | error error =>
    have hsubmit : n.submit text = n.refuse error := by rw [submit, hidle]
    rw [hsubmit]
    exact .refused _ error
  | ok =>
    obtain ⟨isOpen, idle⟩ := (requireIdle_eq_ok_iff n _).1 hidle
    by_cases unoffered : n.phase = .confirming
    · unfold submit
      rw [hidle]
      simp only [unoffered, if_true]
      exact .refused _ _
    · rw [submit_of_idle isOpen idle unoffered]
      by_cases blank : trim text = ""
      · rw [if_pos blank]
        exact .submitBlank text isOpen idle unoffered blank
      · rw [if_neg blank]
        by_cases fit : IsHash (trim text)
        · rw [if_pos ((isHash_iff blank).1 fit)]
          exact .submitSearch text isOpen idle unoffered fit
        · rw [if_neg (fun h => fit ((isHash_iff blank).2 h))]
          exact .submitUnfit text isOpen idle unoffered fit

theorem transition_refreshPeers (n : Negotiation) :
    Transition n (.move .refreshPeers) (respond n.refreshPeers).2 (respond n.refreshPeers).1 := by
  unfold refreshPeers
  cases hidle : n.requireIdle "a search" with
  | error error => exact .refused _ error
  | ok =>
    obtain ⟨isOpen, -⟩ := (requireIdle_eq_ok_iff n _).1 hidle
    by_cases listed : n.phase = .peerList
    · simp only [canRefreshPeers, listed, beq_self_eq_true, Bool.not_true, Bool.false_eq_true,
        if_false]
      exact .refreshPeers isOpen listed
    · simp only [canRefreshPeers, beq_eq_false_iff_ne.2 listed, Bool.not_false, if_true]
      exact .refused _ _

theorem transition_selectPeer (n : Negotiation) (peer : String) :
    Transition n (.move (.selectPeer peer)) (respond (n.selectPeer peer)).2
      (respond (n.selectPeer peer)).1 := by
  unfold selectPeer
  cases hopen : n.requireOpen with
  | error error => exact .refused _ error
  | ok =>
    have isOpen := isOpen_of_requireOpen hopen
    dsimp only
    split
    · exact .refused _ _
    · rename_i hphase
      have listed : n.phase = .peerList ∨ n.phase = .metadataLoading := by
        rwa [not_and_or, not_ne_iff, not_ne_iff] at hphase
      split
      · exact .refused _ _
      · rename_i hknown
        have known : peer ∈ n.providers.map (·.peer) := by simpa using hknown
        exact .selectPeer peer isOpen listed known

theorem transition_decline (n : Negotiation) :
    Transition n (.move .decline) (n.make .decline).2 (n.make .decline).1 := by
  unfold make decline
  by_cases offered : n.phase = .confirming
  · simp only [offered, ne_eq, not_true_eq_false, if_false]
    exact .decline offered
  · simp only [ne_eq, offered, not_false_eq_true, if_true]
    exact .refused _ _

theorem transition_confirm (n : Negotiation) :
    Transition n (.move .confirm) (respond n.confirm).2 (respond n.confirm).1 := by
  unfold confirm
  cases hidle : n.requireIdle "a transfer" with
  | error error => exact .refused _ error
  | ok =>
    obtain ⟨isOpen, -⟩ := (requireIdle_eq_ok_iff n _).1 hidle
    dsimp only
    split
    · exact .refused _ _
    · rename_i hphase
      have offered : n.phase = .confirming ∨ n.phase = .failed := by
        rwa [not_and_or, not_ne_iff, not_ne_iff] at hphase
      split
      · rename_i record peer hrecord hpeer
        cases passed : BalanceGate.check n.balance record.price with
        | error error => exact .confirmRefused record error isOpen offered hrecord passed
        | ok gate => exact .confirm record peer gate isOpen offered hrecord hpeer passed
      · exact .refused _ _

theorem transition_refreshWallet (n : Negotiation) :
    Transition n (.move .refreshWallet) (respond n.refreshWallet).2
      (respond n.refreshWallet).1 := by
  unfold refreshWallet
  cases hopen : n.requireOpen with
  | error error => exact .refused _ error
  | ok =>
    have isOpen := isOpen_of_requireOpen hopen
    cases idle : n.walletPending with
    | true => exact .refused _ _
    | false => exact .refreshWallet isOpen idle

/-- An answer that is not waited for is stale and changes nothing. -/
theorem receive_of_not_awaits {n : Negotiation} {ticket : Ticket} {answer : Answer}
    (h : n.awaits answer.query.phase ticket = false) : n.receive ticket answer = (n, .stale) := by
  cases answer <;>
    simp_all [receive, peersLoaded, metadataLoaded, transferFinished, Answer.query, Query.phase]

theorem transition_receive (n : Negotiation) (ticket : Ticket) (answer : Answer) :
    Transition n (.answer ticket answer) (.received (n.receive ticket answer).2)
      (n.receive ticket answer).1 := by
  cases awaited : n.awaits answer.query.phase ticket with
  | false =>
    rw [receive_of_not_awaits awaited]
    exact .stale ticket answer awaited
  | true =>
    cases answer with
    | providers result =>
      have awaited : n.awaits .searching ticket = true := awaited
      simp only [receive, peersLoaded, awaited, Bool.not_true, Bool.false_eq_true, if_false]
      cases result with
      | error error => exact .searchFailed ticket error awaited
      | ok ids =>
        by_cases found : listProviders n.providers [] ids = []
        · simp only [found, List.isEmpty_nil, if_true]
          exact .unlisted ticket ids awaited found
        · simp only [List.isEmpty_iff, found, if_false]
          exact .listed ticket ids awaited found
    | metadata result =>
      have awaited : n.awaits .metadataLoading ticket = true := awaited
      simp only [receive, metadataLoaded, awaited, Bool.not_true, Bool.false_eq_true, if_false]
      cases result with
      | error error => exact .metadataFailed ticket error awaited
      | ok record => exact .offered ticket record awaited
    | transfer result =>
      have awaited : n.awaits .transferring ticket = true := awaited
      simp only [receive, transferFinished, awaited, Bool.not_true, Bool.false_eq_true, if_false]
      cases result with
      | error error => exact .transferFailed ticket error awaited
      | ok saved => exact .transferred ticket saved awaited

theorem transition_wallet (n : Negotiation) (epoch : Nat) (result : Outcome Wallet) :
    Transition n (.wallet epoch result) (.received (n.walletLoaded epoch result).2)
      (n.walletLoaded epoch result).1 := by
  by_cases taken : n.isOpen = true ∧ epoch = n.epoch
  · obtain ⟨isOpen, rfl⟩ := taken
    rw [walletLoaded, if_neg (by simp [isOpen])]
    cases result with
    | ok wallet => exact .walletKnown _ wallet isOpen rfl
    | error error => exact .walletFailed _ error isOpen rfl
  · have hstale : n.walletLoaded epoch result = (n, .stale) := by
      rw [walletLoaded, if_pos]
      simp only [Bool.or_eq_true, Bool.not_eq_true', bne_iff_ne]
      by_contra h
      exact taken (by simpa [not_or] using h)
    rw [hstale]
    exact .walletStale epoch result

/-- Every event follows a rule. -/
theorem transition_perform (n : Negotiation) (event : Event) :
    Transition n event (n.perform event).2 (n.perform event).1 := by
  cases event with
  | start hash => exact transition_start n hash
  | close => exact .close
  | move move =>
    cases move with
    | submit text => exact transition_submit n text
    | refreshPeers => exact transition_refreshPeers n
    | selectPeer peer => exact transition_selectPeer n peer
    | decline => exact transition_decline n
    | confirm => exact transition_confirm n
    | refreshWallet => exact transition_refreshWallet n
  | answer ticket answer => exact transition_receive n ticket answer
  | wallet epoch result => exact transition_wallet n epoch result

/-- A purchase is only ever requested by confirming an offer, and it is the offer at hand. -/
theorem Transition.download {n n' : Negotiation} {event : Event} {response : Response}
    (h : Transition n event response n') {ticket : Ticket} {price : Binary64} {record : FileRecord}
    (hrequest : .download ticket price record ∈ response.requests) :
    event = .move .confirm ∧ (n.phase = .confirming ∨ n.phase = .failed) ∧
      n.metadata = some record ∧ n.chosen = ticket.peer ∧
      ticket = ⟨n.epoch, n.seq + 1, n.hash, n.chosen⟩ ∧
      (∃ gate, BalanceGate.check n.balance record.price = .ok gate ∧ gate.price = price) ∧
      n'.isOpen = true ∧ n'.epoch = n.epoch ∧ n'.phase = .transferring ∧
      n'.pending = some ticket := by
  -- No other rule makes a request of this kind.
  cases h <;>
    simp only [Response.requests, List.mem_cons, List.not_mem_nil, or_false, reduceCtorEq,
      Request.download.injEq] at hrequest
  case confirm record peer gate isOpen offered hrecord hpeer passed =>
    obtain ⟨rfl, rfl, rfl⟩ := hrequest
    exact ⟨rfl, offered, hrecord, hpeer, by rw [hpeer], ⟨gate, passed, rfl⟩, isOpen, rfl, rfl, rfl⟩

end Negotiation

end FileMarket
