import FileMarket.Proofs.Desk.Parts
import FileMarket.Proofs.Negotiation.Commutation
import FileMarket.Proofs.Negotiation.Purchase

/-!
# Reports that commute

Jobs end in whatever order they like, so where two of them have nothing to do with each other, the
desk must not show which one ended first. `Report.topics` says what a report is about. One that is
about the table alone neither looks at the negotiation nor changes it (`receive_withNegotiation`),
and one that is not about the wallet does the same whatever is in the purse (`receive_withPurse`).
So two reports without a common topic commute, in every state of the desk (`answers_commute`).
-/

set_option autoImplicit false

namespace FileMarket

/-- What the end of a job may be about. -/
inductive Topic where
  /-- The grid, and the status and the notices that go with it. -/
  | table
  /-- The negotiation, apart from what it knows of the wallet. -/
  | purchase
  | wallet
deriving DecidableEq

/-- What a report is about. A purchase may add a row to the table. -/
def Report.topics : Report → List Topic
  | .loaded _ _ | .batchFinished _ _ _ => [.table]
  | .peersLoaded _ _ | .metadataLoaded _ _ => [.purchase]
  | .transferFinished _ _ => [.table, .purchase]
  | .walletLoaded _ _ => [.wallet]

/-- Whether two reports have nothing to do with each other: one is a wallet and the other is none,
or one is about the table alone and the other is something that the negotiation looked up. -/
def Report.Independent (one other : Report) : Prop :=
  ∀ topic ∈ one.topics, topic ∉ other.topics

instance (one other : Report) : Decidable (one.Independent other) :=
  inferInstanceAs (Decidable (∀ topic ∈ one.topics, topic ∉ other.topics))

theorem Report.Independent.symm {one other : Report} (h : one.Independent other) :
    other.Independent one :=
  fun topic hother hone => h topic hone hother

namespace Desk

/-- The desk after two reports, and the jobs that they start. -/
def receiveBoth (desk : Desk) (first second : Report) : Stepped :=
  let (desk, jobs) := desk.receive first
  let (desk, more) := desk.receive second
  (desk, jobs ++ more)

/-! ## Reports about the table -/

/-- A desk with another negotiation. -/
def withNegotiation (desk : Desk) (negotiation : Negotiation) : Desk :=
  { desk with negotiation := negotiation }

/-- A report about the table alone does the same whatever the negotiation is. -/
theorem receive_withNegotiation (desk : Desk) (negotiation : Negotiation) {report : Report}
    (h : report.topics = [.table]) :
    (desk.withNegotiation negotiation).receive report =
      ((desk.receive report).1.withNegotiation negotiation, (desk.receive report).2) := by
  cases report with
  | loaded token result =>
    have hgrid : (desk.withNegotiation negotiation).grid = desk.grid := rfl
    simp only [receive, loaded, hgrid]
    rcases desk.grid.finishLoad token result with ⟨grid, _ | _⟩ <;> rfl
  | batchFinished action origin results =>
    have hgrid : (desk.withNegotiation negotiation).grid = desk.grid := rfl
    simp only [receive, batchFinished, hgrid]
    by_cases hshown : desk.grid.current ≠ origin
    · rw [if_pos hshown, if_pos hshown]
      rfl
    · rw [if_neg hshown, if_neg hshown]
      rfl
  | _ => cases h

/-- Such a report leaves the negotiation as it is. -/
theorem negotiation_receive_of_table (desk : Desk) {report : Report}
    (h : report.topics = [.table]) : (desk.receive report).1.negotiation = desk.negotiation := by
  rw [(desk.receive_parts report).negotiation]
  cases report with
  | loaded | batchFinished => rfl
  | _ => cases h

/-- A report that is not about the table goes to the negotiation, and starts no job. -/
theorem receive_of_not_table (desk : Desk) {report : Report} (h : .table ∉ report.topics) :
    desk.receive report =
      (desk.withNegotiation (.after desk.negotiation (reportedToNegotiation report)), []) := by
  cases report with
  | walletLoaded | peersLoaded | metadataLoaded => rfl
  | _ => exact absurd List.mem_cons_self h

theorem receiveBoth_table (desk : Desk) {one other : Report} (hone : one.topics = [.table])
    (hother : .table ∉ other.topics) :
    desk.receiveBoth one other = desk.receiveBoth other one := by
  unfold receiveBoth
  simp only [receive_of_not_table _ hother, receive_withNegotiation _ _ hone,
    negotiation_receive_of_table _ hone, List.append_nil, List.nil_append]

/-! ## The wallet -/

/-- A desk with another purse. -/
def withPurse (desk : Desk) (purse : Negotiation.Purse) : Desk :=
  desk.withNegotiation (desk.negotiation.withPurse purse)

/-- The end of a transfer does the same whatever is in the purse. -/
theorem transferFinished_withPurse (desk : Desk) (purse : Negotiation.Purse) (ticket : Ticket)
    (result : Outcome SavedFile) :
    (desk.withPurse purse).transferFinished ticket result =
      (desk.transferFinished ticket result).withPurse purse := by
  have hframe := desk.negotiation.transferFinished_withPurse purse ticket result
  have hnegotiation : (desk.withPurse purse).negotiation = desk.negotiation.withPurse purse := rfl
  simp only [transferFinished, hnegotiation, hframe]
  rcases desk.negotiation.transferFinished ticket result with ⟨negotiation, _ | _⟩ <;> rfl

/-- A report that is not about the wallet does the same whatever is in the purse. -/
theorem receive_withPurse (desk : Desk) (purse : Negotiation.Purse) {report : Report}
    (h : .wallet ∉ report.topics) :
    (desk.withPurse purse).receive report =
      ((desk.receive report).1.withPurse purse, (desk.receive report).2) := by
  cases report with
  | loaded | batchFinished =>
    rw [withPurse, receive_withNegotiation _ _ rfl, withPurse, negotiation_receive_of_table _ rfl]
  | peersLoaded ticket result =>
    have hframe := desk.negotiation.peersLoaded_withPurse purse ticket result
    exact congrArg (fun step => (desk.withNegotiation step.1, [])) hframe
  | metadataLoaded ticket result =>
    have hframe := desk.negotiation.metadataLoaded_withPurse purse ticket result
    exact congrArg (fun step => (desk.withNegotiation step.1, [])) hframe
  | transferFinished ticket result =>
    exact congrArg (fun desk => (desk, [])) (desk.transferFinished_withPurse purse ticket result)
  | walletLoaded => exact absurd List.mem_cons_self h

/-- Such a report leaves the purse, and all that says which wallets are taken. -/
theorem receive_spares (desk : Desk) {report : Report} (h : .wallet ∉ report.topics) :
    (desk.receive report).1.negotiation.purse = desk.negotiation.purse ∧
      (desk.receive report).1.negotiation.isOpen = desk.negotiation.isOpen ∧
      (desk.receive report).1.negotiation.epoch = desk.negotiation.epoch := by
  rw [(desk.receive_parts report).negotiation]
  cases report with
  | loaded | batchFinished => exact ⟨rfl, rfl, rfl⟩
  | peersLoaded | metadataLoaded | transferFinished =>
    exact (Negotiation.transition_perform desk.negotiation _).spares rfl
  | walletLoaded => exact absurd List.mem_cons_self h

/-- A wallet is put into the purse in the epoch of its request, and does nothing else. -/
theorem receive_walletLoaded (desk : Desk) (epoch : Nat) (result : Outcome Wallet) :
    desk.receive (.walletLoaded epoch result) =
      (if desk.negotiation.isOpen = true ∧ epoch = desk.negotiation.epoch then
        desk.withPurse (desk.negotiation.purse.take result) else desk, []) := by
  rw [receive, Negotiation.walletLoaded_eq]
  split <;> rfl

theorem receiveBoth_wallet (desk : Desk) (epoch : Nat) (result : Outcome Wallet) {other : Report}
    (h : .wallet ∉ other.topics) : desk.receiveBoth (.walletLoaded epoch result) other =
      desk.receiveBoth other (.walletLoaded epoch result) := by
  obtain ⟨hpurse, hopen, hepoch⟩ := desk.receive_spares h
  unfold receiveBoth
  simp only [receive_walletLoaded, hpurse, hopen, hepoch, List.nil_append, List.append_nil]
  split
  · rw [receive_withPurse _ _ h]
  · rfl

/-! ## Two orders -/

/-- Two reports without a common topic leave the same desk and start the same jobs in either order,
whatever they bring, whether they are waited for, and in every state of the desk. A negotiation
itself cannot tell either whether an answer about the wallet came before or after a search, a
selection, a declined offer or an answer to one of them: it is left the same, and each of the two
gets the same response. -/
theorem answers_commute :
    (∀ (desk : Desk) (one other : Report), one.Independent other →
      desk.receiveBoth one other = desk.receiveBoth other one) ∧
    ∀ (n : Negotiation) (event : Negotiation.Event), event.sparesPurse = true →
      ∀ epoch result, n.Commutes event (.wallet epoch result) := by
  refine ⟨fun desk one other h => ?_, fun n event h => n.commutes_wallet h⟩
  cases one with
  | walletLoaded epoch result => exact desk.receiveBoth_wallet epoch result (h _ List.mem_cons_self)
  | loaded | batchFinished => exact desk.receiveBoth_table rfl (h _ List.mem_cons_self)
  | peersLoaded | metadataLoaded =>
    cases other with
    | walletLoaded epoch result =>
      exact (desk.receiveBoth_wallet epoch result (h.symm _ List.mem_cons_self)).symm
    | loaded | batchFinished =>
      exact (desk.receiveBoth_table rfl (h.symm _ List.mem_cons_self)).symm
    | _ => simp [Report.Independent, Report.topics] at h
  | transferFinished =>
    cases other with
    | walletLoaded epoch result =>
      exact (desk.receiveBoth_wallet epoch result (h.symm _ List.mem_cons_self)).symm
    | _ => simp [Report.Independent, Report.topics] at h

/-- A song is being paid for while the history of purchases is shown, and the wallet was asked for
again meanwhile. -/
def payingForSong : Desk :=
  (opened .purchased).1.withNegotiation
    (.after .new (.move .refreshWallet :: .move .confirm :: Negotiation.songRun))

/-- The song is saved and the balance is 480 whichever is reported first, and the offer of a song
can be declined before or after the balance is known again. -/
theorem song_answers_commute :
    let wallet : Outcome Wallet := .ok ⟨none, ⟨0x407E000000000000⟩, .zero⟩
    let saved : Report := .transferFinished ⟨1, 3, "abc123", some "p1"⟩
      (.ok ⟨"song.mp3", Negotiation.song.hashed "abc123"⟩)
    (Report.walletLoaded 1 wallet).Independent saved ∧
    payingForSong.receiveBoth (.walletLoaded 1 wallet) saved =
      payingForSong.receiveBoth saved (.walletLoaded 1 wallet) ∧
    (payingForSong.receiveBoth saved (.walletLoaded 1 wallet)).1.status = "Saved to song.mp3" ∧
    (payingForSong.receiveBoth saved (.walletLoaded 1 wallet)).1.negotiation.balance =
      some ⟨0x407E000000000000⟩ ∧
    (Negotiation.Event.move .decline).sparesPurse = true ∧
    (Negotiation.after .new Negotiation.songRun).Commutes (.move .decline) (.wallet 1 wallet) := by
  intro wallet saved
  have hindependent : (Report.walletLoaded 1 wallet).Independent saved := by decide
  exact ⟨hindependent, answers_commute.1 payingForSong _ _ hindependent, by decide, by decide, rfl,
    answers_commute.2 _ (.move .decline) rfl 1 wallet⟩

end Desk

end FileMarket
