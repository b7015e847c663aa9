import FileMarket.Proofs.CommandLine.Offers

/-!
# How the command line comes to an offer

The task that buys a file looks up the providers of a hash, chooses one of them, and asks it for its
offer (`findProviders_run`, `choosePeer_run`, `requestOffer_run`). Each of these steps leads on under
one condition, and otherwise the task fails, and has told the node of no payment.
-/

set_option autoImplicit false

namespace FileMarket.CommandLine

open Text Negotiation

variable {σ α : Type}

namespace Client

variable (client : Client σ) (console : Console σ)

/-- A command is carried out with what follows from it. -/
theorem perform_run_of_dispatch {desk desk' : Desk} {command : Command} {world : World σ}
    (h : desk.dispatch client.node client.today console.world command = (desk', world)) :
    (client.perform desk command).run console = .ok desk' { console with world := world } := by
  rw [perform_run, h]

theorem printLine_run (line : String) : (printLine line : Program σ Unit).run console =
    .ok () (console.printing (line ++ "\n")) := rfl

/-- A task that fails at once has told the node nothing. -/
theorem failsUnpaid_of_error (node : Node σ) {program : Program σ α} {fault : Fault}
    (h : program.run console = .error fault console) : FailsUnpaid node program console :=
  .of_error h rfl (List.forall_mem_nil _)

/-! ## Providers -/

/-- What a task does with the answer to a lookup. -/
def showProviders (desk : Desk) : Program σ Desk := do
  if desk.negotiation.phase ≠ .peerList then failAs desk
  printLine (providerList desk.negotiation)
  return desk

theorem showProviders_run {desk : Desk} (h : desk.negotiation.phase = .peerList) :
    (showProviders desk).run console =
      .ok desk (console.printing (providerList desk.negotiation ++ "\n")) := by
  rw [showProviders, if_neg (not_not_intro h)]
  rfl

theorem showProviders_run_of_not_listed {desk : Desk} (h : desk.negotiation.phase ≠ .peerList) :
    ∃ fault, (showProviders desk).run console = .error fault console := by
  rw [showProviders, if_pos h]
  exact ⟨_, rfl⟩

/-- The lookup of the providers of a hash, at a desk that is open. -/
def lookUp (desk : Desk) (text : String) : Program σ Desk := do
  let desk ← client.perform desk (.openNegotiation (some text))
  showProviders desk

theorem findProviders_eq (text : String) :
    client.findProviders text = (do
      let desk ← client.openDesk .purchased
      client.lookUp desk text) := rfl

/-- What a lookup finds. -/
structure Found (replies : Replies) (hash : String) (ids : List String) : Prop where
  isHash : IsHash hash
  answer : replies [.wallet] (.findProviders hash) = .ok ids
  named : namedPeers ids ≠ []

/-- A lookup that finds peers leads to them, and any other one fails. -/
theorem lookUp_run (desk : Desk) (text : String) :
    (∃ ids desk' console', Found (client.node.replies console.world.server) (trim text) ids ∧
      (client.lookUp desk text).run console = .ok desk' console' ∧
      console'.world = console.world.told client.node [.wallet, .findProviders (trim text)] ∧
      console'.typed = console.typed ∧
      desk'.negotiation.AtPeers (trim text) (namedPeers ids) ((⟨none, true, none⟩ : Purse).take
        (client.node.replies console.world.server [] .wallet))) ∨
    (∀ ids, ¬ Found (client.node.replies console.world.server) (trim text) ids) ∧
      FailsUnpaid client.node (client.lookUp desk text) console := by
  by_cases fit : IsHash (trim text)
  · obtain ⟨desk', hdispatch, hpeers, hnone⟩ :=
      desk.dispatch_openNegotiation client.node client.today console.world fit
    have hperform := client.perform_run_of_dispatch console hdispatch
    by_cases found : ∃ ids, Found (client.node.replies console.world.server) (trim text) ids
    · obtain ⟨ids, found⟩ := found
      have hatPeers := hpeers ids found.answer found.named
      have hrun := (run_bind_of_ok hperform).trans (showProviders_run _ hatPeers.listed)
      exact Or.inl ⟨ids, desk', _, found, hrun, rfl, rfl, hatPeers⟩
    · have hphase := hnone fun ids hids => by_contra fun named => found ⟨ids, fit, hids, named⟩
      obtain ⟨fault, hfault⟩ := showProviders_run_of_not_listed
        { console with world := _ } hphase
      exact Or.inr ⟨not_exists.1 found, .after hperform rfl (by simp [Call.isPayment])
        (failsUnpaid_of_error _ client.node hfault)⟩
  · obtain ⟨desk', hdispatch, hphase⟩ :=
      desk.dispatch_openNegotiation_of_not_isHash client.node client.today console.world fit
    have hperform := client.perform_run_of_dispatch console hdispatch
    obtain ⟨fault, hfault⟩ := showProviders_run_of_not_listed { console with world := _ } hphase
    exact Or.inr ⟨fun ids found => fit found.isHash, .after hperform rfl
      (by simp [Call.isPayment]) (failsUnpaid_of_error _ client.node hfault)⟩

/-- The history of purchases is listed before a lookup. -/
theorem findProviders_run (text : String) :
    let replies := client.node.replies console.world.server
    (∃ ids desk console', (∃ records, replies [] (.list .purchased) = .ok records) ∧
      Found (replies.since [.list .purchased]) (trim text) ids ∧
      (client.findProviders text).run console = .ok desk console' ∧
      console'.world = console.world.told client.node (lookups (trim text)) ∧
      console'.typed = console.typed ∧
      desk.negotiation.AtPeers (trim text) (namedPeers ids)
        ((⟨none, true, none⟩ : Purse).take (replies [.list .purchased] .wallet))) ∨
    (∀ ids, (∃ records, replies [] (.list .purchased) = .ok records) →
      ¬ Found (replies.since [.list .purchased]) (trim text) ids) ∧
      FailsUnpaid client.node (client.findProviders text) console := by
  intro replies
  have hopen := client.openDesk_run .purchased console
  have hworld : (client.listedConsole .purchased console).world =
      console.world.told client.node [.list .purchased] := rfl
  have hcalls : ∀ call ∈ [Call.list .purchased], call.isPayment = false := by simp [Call.isPayment]
  cases hanswer : client.answerTo .purchased console with
  | error error =>
    rw [hanswer] at hopen
    refine Or.inr ⟨?_, .bind (.of_error hopen hworld hcalls) _⟩
    rintro ids ⟨records, hrecords⟩
    cases hrecords.symm.trans hanswer
  | ok records =>
    rw [hanswer] at hopen
    have hreplies : client.node.replies (client.listedConsole .purchased console).world.server =
        replies.since [.list .purchased] :=
      client.node.replies_after console.world.server [.list .purchased]
    have hlookUp := client.lookUp_run (client.listedConsole .purchased console)
      (.listing .purchased records) text
    rw [hreplies] at hlookUp
    rcases hlookUp with ⟨ids, desk, console', found, hrun, htold, htyped, hpeers⟩ | ⟨hnone, hfails⟩
    · refine Or.inl ⟨ids, desk, console', ⟨records, hanswer⟩, found, ?_, ?_, htyped, hpeers⟩
      · rw [findProviders_eq, run_bind_of_ok hopen, hrun]
      · rw [htold, hworld, World.told_told]
        rfl
    · exact Or.inr ⟨fun ids _ => hnone ids, .after hopen hworld hcalls hfails⟩

/-! ## The choice of a peer -/

/-- The provider that an answer names by its number. -/
def numbered (providers : List Provider) (answer : String) : Program σ String :=
  match readCount answer with
  | .error fault => throw (.notNumber fault)
  | .ok number => do
    if number = 0 then throw (.noProvider 0)
    match providers[number.toNat - 1]? with
    | some provider => return provider.peer
    | none => throw (.noProvider number.toNat)

theorem numbered_run (providers : List Provider) (answer : String) :
    (∃ number peer, readCount answer = .ok number ∧ number ≠ 0 ∧
      (providers.map (·.peer))[number.toNat - 1]? = some peer ∧
      (numbered providers answer).run console = .ok peer console) ∨
    (∀ number peer, readCount answer = .ok number → number ≠ 0 →
      (providers.map (·.peer))[number.toNat - 1]? ≠ some peer) ∧
      ∃ fault, (numbered providers answer).run console = .error fault console := by
  unfold numbered
  cases hcount : readCount answer with
  | error fault => exact Or.inr ⟨nofun, _, rfl⟩
  | ok number =>
    by_cases hzero : number = 0
    · refine Or.inr ⟨fun number' peer hcount' hpositive => ?_, .noProvider 0, ?_⟩
      · exact absurd (Except.ok.inj hcount' ▸ hzero) hpositive
      · dsimp only
        rw [if_pos hzero]
        rfl
    · cases hprovider : providers[number.toNat - 1]? with
      | none =>
        refine Or.inr ⟨fun number' peer hcount' _ => ?_, .noProvider number.toNat, ?_⟩
        · obtain rfl := Except.ok.inj hcount'
          simp [hprovider]
        · dsimp only
          rw [if_neg hzero, hprovider]
          rfl
      | some provider =>
        refine Or.inl ⟨number, provider.peer, rfl, hzero, by simp [hprovider], ?_⟩
        dsimp only
        rw [if_neg hzero, hprovider]
        rfl

theorem ask_run (question : String) : (ask question : Program σ String).run console =
    .ok (firstLine console.typed) (console.printing question).afterLine := rfl

/-- A number that is asked for picks a peer or none. -/
theorem ask_numbered_run (providers : List Provider) (many : providers.length ≠ 1)
    (question : String) :
    let program : Program σ String := do
      let answer ← ask question
      numbered providers answer
    (∃ peer console', program.run console = .ok peer console' ∧ console'.world = console.world ∧
      Picks (providers.map (·.peer)) console.typed none peer console'.typed) ∨
    (∀ peer rest, ¬ Picks (providers.map (·.peer)) console.typed none peer rest) ∧
      FailsUnpaid client.node program console := by
  intro program
  have hrun : program.run console = (numbered providers (firstLine console.typed)).run
      (console.printing question).afterLine := run_bind_of_ok (ask_run console question)
  have hmany : (providers.map (·.peer)).length ≠ 1 := by rwa [List.length_map]
  rcases numbered_run (console.printing question).afterLine providers (firstLine console.typed)
    with ⟨number, peer, hcount, hpositive, hfound, hnumbered⟩ | ⟨hnone, fault, hnumbered⟩
  · exact Or.inl ⟨peer, _, hrun.trans hnumbered, rfl,
      .numbered number peer hmany (readCount_eq_ok_iff.1 hcount) hpositive hfound⟩
  · refine Or.inr ⟨?_, .of_error (hrun.trans hnumbered) rfl (List.forall_mem_nil _)⟩
    intro peer rest hpicks
    cases hpicks with
    | only _ alone => exact hmany (congrArg List.length alone)
    | numbered number _ _ spelled positive found =>
      exact hnone number peer (readCount_eq_ok_iff.2 spelled) positive found

/-- A task goes on with the peer that is picked, and fails when there is none. -/
theorem choosePeer_run (desk : Desk) (given : Option String) :
    (∃ peer console', (choosePeer desk given).run console = .ok peer console' ∧
      console'.world = console.world ∧
      Picks (desk.negotiation.providers.map (·.peer)) console.typed given peer console'.typed) ∨
    (∀ peer rest, ¬ Picks (desk.negotiation.providers.map (·.peer)) console.typed given peer rest) ∧
      FailsUnpaid client.node (choosePeer desk given) console := by
  cases given with
  | some peer => exact Or.inl ⟨peer, console, rfl, rfl, .given peer⟩
  | none =>
    -- Unless there is just one provider, its number is asked for.
    unfold choosePeer
    match desk.negotiation.providers with
    | [provider] => exact Or.inl ⟨provider.peer, console, rfl, rfl, .only provider.peer rfl⟩
    | [] =>
      have hasked := client.ask_numbered_run console [] (by simp)
        ("Choose a provider [1-" ++ toString ([] : List Provider).length ++ "]: ")
      exact hasked
    | first :: second :: rest =>
      have hasked := client.ask_numbered_run console (first :: second :: rest) (by simp)
        ("Choose a provider [1-" ++ toString (first :: second :: rest).length ++ "]: ")
      exact hasked

/-! ## The offer -/

/-- What a task does when a peer was asked for its offer. -/
def checkOffer (desk : Desk) : Program σ Desk := do
  if desk.negotiation.phase ≠ .confirming then failAs desk
  if desk.negotiation.balance.isNone then client.perform desk .refreshWallet
  else return desk

theorem requestOffer_eq (desk : Desk) (peer : String) :
    client.requestOffer desk peer = (do
      let desk ← client.perform desk (.selectPeer peer)
      client.checkOffer desk) := rfl

theorem checkOffer_run_of_not_offered {desk : Desk} (h : desk.negotiation.phase ≠ .confirming) :
    ∃ fault, (client.checkOffer desk).run console = .error fault console := by
  rw [checkOffer, if_pos h]
  exact ⟨_, rfl⟩

/-- The calls that are made for an offer once the peers are known: when the balance is not known the
wallet is asked for once more. -/
def offerCalls (purse : Purse) (hash peer : String) : List Call :=
  .requestMetadata peer hash :: if purse.balance.isNone then [.wallet] else []

/-- None of these calls is a payment. -/
theorem unpaid_offerCalls (purse : Purse) (hash peer : String) :
    ∀ call ∈ offerCalls purse hash peer, call.isPayment = false := by
  intro call hcall
  rcases List.mem_cons.1 hcall with rfl | hcall
  · rfl
  · split at hcall
    · rw [List.mem_singleton.1 hcall]
      rfl
    · cases hcall

/-- What is known of the wallet then. -/
def purseAfter (purse : Purse) (again : Outcome Wallet) : Purse :=
  if purse.balance.isNone then purse.take again else purse

section Offers

variable {desk : Desk} {hash peer : String} {record : FileRecord} {purse : Purse}

theorem checkOffer_run (h : desk.negotiation.AtOffer hash peer record purse)
    (idle : purse.isAwaited = false) :
    ∃ desk', (client.checkOffer desk).run console =
        .ok desk' { console with
          world := console.world.told client.node
            (if purse.balance.isNone then [.wallet] else []) } ∧
      desk'.negotiation.AtOffer hash peer record
        (purseAfter purse (client.node.replies console.world.server [] .wallet)) := by
  unfold checkOffer purseAfter
  rw [if_neg (not_not_intro h.offered), h.balance]
  by_cases hnone : purse.balance.isNone = true
  · obtain ⟨desk', hdispatch, hoffer⟩ :=
      Desk.dispatch_refreshWallet client.node client.today console.world h idle
    rw [if_pos hnone, if_pos hnone, if_pos hnone]
    exact ⟨desk', client.perform_run_of_dispatch console hdispatch, hoffer⟩
  · rw [if_neg hnone, if_neg hnone, if_neg hnone]
    exact ⟨desk, rfl, h⟩

/-- A peer that is listed and makes an offer leads to it, and any other one fails the task. -/
theorem requestOffer_run {peers : List String} (h : desk.negotiation.AtPeers hash peers purse)
    (idle : purse.isAwaited = false) (peer : String) :
    let replies := client.node.replies console.world.server
    (∃ record desk' console', peer ∈ peers ∧
      replies [] (.requestMetadata peer hash) = .ok record ∧
      (client.requestOffer desk peer).run console = .ok desk' console' ∧
      console'.world = console.world.told client.node (offerCalls purse hash peer) ∧
      console'.typed = console.typed ∧
      desk'.negotiation.AtOffer hash peer record
        (purseAfter purse (replies [.requestMetadata peer hash] .wallet))) ∨
    (peer ∈ peers → ∀ record, replies [] (.requestMetadata peer hash) ≠ .ok record) ∧
      FailsUnpaid client.node (client.requestOffer desk peer) console := by
  intro replies
  rw [requestOffer_eq]
  by_cases known : peer ∈ peers
  · obtain ⟨desk', hdispatch, hoffer, hnone⟩ :=
      Desk.dispatch_selectPeer client.node client.today console.world h known
    have hperform := client.perform_run_of_dispatch console hdispatch
    cases hreply : replies [] (.requestMetadata peer hash) with
    | ok record =>
      obtain ⟨desk'', hcheck, hoffer'⟩ := client.checkOffer_run
        { console with world := console.world.told client.node [.requestMetadata peer hash] }
        (hoffer record hreply) idle
      refine Or.inl ⟨record, desk'', _, known, rfl, (run_bind_of_ok hperform).trans hcheck, ?_, rfl,
        hoffer'⟩
      exact World.told_told console.world client.node _ _
    | error error =>
      have hphase := hnone fun record hrecord => by cases hreply.symm.trans hrecord
      obtain ⟨fault, hfault⟩ := client.checkOffer_run_of_not_offered
        { console with world := _ } hphase
      exact Or.inr ⟨fun _ record => nofun, .after hperform rfl (by simp [Call.isPayment])
        (failsUnpaid_of_error _ client.node hfault)⟩
  · obtain ⟨desk', hdispatch, hphase⟩ :=
      Desk.dispatch_selectPeer_of_not_mem client.node client.today console.world h known
    have hperform := client.perform_run_of_dispatch console hdispatch
    obtain ⟨fault, hfault⟩ := client.checkOffer_run_of_not_offered
      { console with world := console.world } hphase
    exact Or.inr ⟨fun known' => absurd known' known, .of_error
      ((run_bind_of_ok hperform).trans hfault) rfl (List.forall_mem_nil _)⟩

end Offers

end Client

end FileMarket.CommandLine
