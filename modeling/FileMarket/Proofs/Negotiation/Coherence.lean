import FileMarket.Proofs.Negotiation.Providers
import FileMarket.Proofs.Negotiation.Transition

/-!
# Coherence of a negotiation

The fields of a negotiation fit together: which of them are set is decided by the phase, and what
they hold is about one another (`Coherent`). Every rule keeps this (`Coherent.transition`), so it
holds after every run (`coherent_after`).
-/

set_option autoImplicit false

namespace FileMarket.Negotiation

open FileMarket.Text

/-- Peers stand trimmed in a list of providers, none is blank and none stands there twice. -/
def WellListed (providers : List Provider) : Prop :=
  (∀ p ∈ providers, trim p.peer = p.peer ∧ allBlank p.peer = false) ∧
    (providers.map (·.peer)).Nodup

/-- The fields of a negotiation fit together. -/
structure Coherent (n : Negotiation) : Prop where
  /-- Nothing but the epoch is left of a negotiation that is not open. -/
  eq_closed : n.isOpen = false → n = closed n.epoch
  pending_isSome : n.pending.isSome = true ↔
    n.phase ∈ [.searching, .metadataLoading, .transferring]
  /-- The ticket that is waited for is the last one issued, about the hash and the chosen peer. -/
  pending_eq : ∀ ticket, n.pending = some ticket →
    ticket = ⟨n.epoch, n.seq, n.hash, if n.phase = .searching then none else n.chosen⟩
  chosen_isSome : n.chosen.isSome = true ↔
    n.phase ∈ [.metadataLoading, .confirming, .transferring, .complete, .failed]
  chosen_mem : ∀ peer, n.chosen = some peer → peer ∈ n.providers.map (·.peer)
  metadata_isSome : n.metadata.isSome = true ↔
    n.phase ∈ [.confirming, .transferring, .complete, .failed]
  saved_isSome : n.saved.isSome = true ↔ n.phase = .complete
  wellListed : WellListed n.providers
  providers_eq_nil : n.phase ∈ [.idle, .notFound] → n.providers = []
  providers_ne_nil : n.phase ∈
    [.peerList, .metadataLoading, .confirming, .transferring, .complete, .failed] →
    n.providers ≠ []
  isHash : n.phase ∉ [.idle, .notFound] → IsHash n.hash
  error_isSome : n.phase ∈ [.failed, .notFound] → n.error.isSome = true
  /-- A lookup that fails goes back to a phase that the providers at hand fit. -/
  resume_of_searching : n.phase = .searching →
    n.resume = .idle ∧ n.providers = [] ∨ n.resume = .peerList ∧ n.providers ≠ []

@[simp]
theorem wellListed_nil : WellListed [] := ⟨by simp, List.nodup_nil⟩

theorem wellListed_listProviders (known : List Provider) (ids : List String) :
    WellListed (listProviders known [] ids) := by
  refine ⟨fun p hp => ?_, nodup_listProviders List.nodup_nil⟩
  rcases mem_listProviders hp with hp | ⟨id, -, hid, hne⟩
  · cases hp
  · rw [← hid] at hne ⊢
    exact ⟨trim_trim id, allBlank_trim hne⟩

theorem WellListed.setPrice {providers : List Provider} (h : WellListed providers)
    (peer : Option String) (price : Option Binary64) :
    WellListed (setPrice peer price providers) := by
  have hpeers := map_peer_setPrice peer price providers
  refine ⟨fun p hp => ?_, by rw [hpeers]; exact h.2⟩
  have hmem : p.peer ∈ providers.map (·.peer) := hpeers ▸ List.mem_map_of_mem hp
  obtain ⟨q, hq, hqp⟩ := List.mem_map.1 hmem
  rw [← hqp]
  exact h.1 q hq

namespace Coherent

variable {n n' : Negotiation}

theorem closed (epoch : Nat) : Coherent (closed epoch) := by
  constructor <;> simp [Negotiation.closed]

theorem opened (epoch : Nat) : Coherent (opened epoch) := by
  constructor <;> simp [Negotiation.opened, Negotiation.closed]

theorem isOpen (h : Coherent n) (begun : n.phase ≠ .idle) : n.isOpen = true := by
  by_contra hclosed
  rw [h.eq_closed (Bool.eq_false_iff.2 hclosed)] at begun
  exact begun rfl

theorem pending_eq_none (h : Coherent n) (idle : n.phase.isBusy = false) : n.pending = none := by
  rw [← Option.not_isSome_iff_eq_none, h.pending_isSome]
  intro hphase
  simp only [List.mem_cons, List.not_mem_nil, or_false] at hphase
  rcases hphase with hphase | hphase | hphase <;> rw [hphase] at idle <;> cases idle

theorem chosen_eq_none (h : Coherent n) (unchosen : n.phase ∉
    [.metadataLoading, .confirming, .transferring, .complete, .failed]) : n.chosen = none :=
  Option.not_isSome_iff_eq_none.1 fun hsome => unchosen (h.chosen_isSome.1 hsome)

theorem metadata_eq_none (h : Coherent n)
    (unoffered : n.phase ∉ [.confirming, .transferring, .complete, .failed]) :
    n.metadata = none :=
  Option.not_isSome_iff_eq_none.1 fun hsome => unoffered (h.metadata_isSome.1 hsome)

theorem saved_eq_none (h : Coherent n) (unsaved : n.phase ≠ .complete) : n.saved = none :=
  Option.not_isSome_iff_eq_none.1 fun hsome => unsaved (h.saved_isSome.1 hsome)

/-- A search leaves nothing of what was found before. -/
theorem sought (hash : String) (isOpen : n.isOpen = true) (fit : IsHash hash) :
    Coherent (n.sought hash) := by
  constructor <;> simp [Negotiation.sought, isOpen, fit]

theorem unsought (hash : String) (h : Coherent n) (isOpen : n.isOpen = true)
    (idle : n.phase.isBusy = false) : Coherent (n.unsought hash) := by
  have hpending := h.pending_eq_none idle
  constructor <;> simp [Negotiation.unsought, isOpen, hpending]

/-- An error that is remembered disturbs nothing. -/
theorem withError (h : Coherent n) (isOpen : n.isOpen = true) (error : MarketError) :
    Coherent { n with error := some error } :=
  { h with
    eq_closed := by simp [isOpen]
    error_isSome := fun _ => rfl }

end Coherent

open Coherent in
/-- Every rule keeps the fields of a negotiation together. -/
theorem Coherent.transition {n n' : Negotiation} {event : Event} {response : Response}
    (hn : Coherent n) (h : Transition n event response n') : Coherent n' := by
  -- Each rule names its phase before and after; the fields that the old phase decides are read
  -- off first, and the new fields then follow by computation.
  cases h with
  | start => exact opened _
  | startBlank text blank => exact (opened _).withError rfl _
  | startUnfit text unfit => exact (opened _).unsought _ rfl rfl
  | startSearch text fit => exact sought _ rfl fit
  | close => exact closed _
  | refused move error => exact hn
  | submitBlank text isOpen idle unoffered blank => exact hn.withError isOpen _
  | submitUnfit text isOpen idle unoffered unfit => exact hn.unsought _ isOpen idle
  | submitSearch text isOpen idle unoffered fit => exact sought _ isOpen fit
  | refreshPeers isOpen listed =>
    have hchosen := hn.chosen_eq_none (by simp [listed])
    have hmetadata := hn.metadata_eq_none (by simp [listed])
    have hsaved := hn.saved_eq_none (by simp [listed])
    have hhash := hn.isHash (by simp [listed])
    have hproviders := hn.providers_ne_nil (by simp [listed])
    constructor <;> simp [isOpen, hchosen, hmetadata, hsaved, hhash, hproviders, hn.wellListed]
  | selectPeer peer isOpen listed known =>
    -- The ticket now waited for replaces one of the same phase, if there was one.
    have hsaved := hn.saved_eq_none (by rcases listed with h | h <;> simp [h])
    have hhash := hn.isHash (by rcases listed with h | h <;> simp [h])
    have hproviders := hn.providers_ne_nil (by rcases listed with h | h <;> simp [h])
    constructor <;> simp_all [hn.wellListed]
  | decline offered =>
    have isOpen := hn.isOpen (by simp [offered])
    have hpending := hn.pending_eq_none (by simp [offered, Phase.isBusy])
    have hsaved := hn.saved_eq_none (by simp [offered])
    have hhash := hn.isHash (by simp [offered])
    have hproviders := hn.providers_ne_nil (by simp [offered])
    constructor <;> simp [isOpen, hpending, hsaved, hhash, hproviders, hn.wellListed]
  | confirmRefused record error isOpen offered hrecord refused => exact hn.withError isOpen _
  | confirm record peer gate isOpen offered hrecord hpeer passed =>
    have hsaved := hn.saved_eq_none (by rcases offered with h | h <;> simp [h])
    have hhash := hn.isHash (by rcases offered with h | h <;> simp [h])
    have hproviders := hn.providers_ne_nil (by rcases offered with h | h <;> simp [h])
    have hmem := hn.chosen_mem peer hpeer
    constructor <;> simp_all [hn.wellListed]
  | refreshWallet isOpen idle => exact { hn with eq_closed := by simp [isOpen] }
  | stale ticket answer unawaited => exact hn
  | listed ticket ids awaited found =>
    obtain ⟨isOpen, hphase, -⟩ := (awaits_eq_true_iff n _ _).1 awaited
    have hchosen := hn.chosen_eq_none (by simp [hphase])
    have hmetadata := hn.metadata_eq_none (by simp [hphase])
    have hsaved := hn.saved_eq_none (by simp [hphase])
    have hhash := hn.isHash (by simp [hphase])
    constructor <;>
      simp [isOpen, hchosen, hmetadata, hsaved, hhash, found, wellListed_listProviders]
  | unlisted ticket ids awaited notFound =>
    obtain ⟨isOpen, hphase, -⟩ := (awaits_eq_true_iff n _ _).1 awaited
    have hchosen := hn.chosen_eq_none (by simp [hphase])
    have hmetadata := hn.metadata_eq_none (by simp [hphase])
    have hsaved := hn.saved_eq_none (by simp [hphase])
    constructor <;> simp [isOpen, hchosen, hmetadata, hsaved]
  | searchFailed ticket error awaited =>
    obtain ⟨isOpen, hphase, -⟩ := (awaits_eq_true_iff n _ _).1 awaited
    have hchosen := hn.chosen_eq_none (by simp [hphase])
    have hmetadata := hn.metadata_eq_none (by simp [hphase])
    have hsaved := hn.saved_eq_none (by simp [hphase])
    have hhash := hn.isHash (by simp [hphase])
    -- The phase gone back to is the one that the providers at hand fit.
    rcases hn.resume_of_searching hphase with ⟨hresume, hproviders⟩ | ⟨hresume, hproviders⟩ <;>
      constructor <;>
      simp [isOpen, hresume, hproviders, hchosen, hmetadata, hsaved, hhash, hn.wellListed]
  | offered ticket record awaited =>
    obtain ⟨isOpen, hphase, -⟩ := (awaits_eq_true_iff n _ _).1 awaited
    have hchosen := hn.chosen_isSome.2 (by simp [hphase])
    have hsaved := hn.saved_eq_none (by simp [hphase])
    have hhash := hn.isHash (by simp [hphase])
    have hproviders := hn.providers_ne_nil (by simp [hphase])
    have hmem := hn.chosen_mem
    constructor <;> simp_all [hn.wellListed.setPrice]
  | metadataFailed ticket error awaited =>
    obtain ⟨isOpen, hphase, -⟩ := (awaits_eq_true_iff n _ _).1 awaited
    have hsaved := hn.saved_eq_none (by simp [hphase])
    have hhash := hn.isHash (by simp [hphase])
    have hproviders := hn.providers_ne_nil (by simp [hphase])
    constructor <;> simp [isOpen, hsaved, hhash, hproviders, hn.wellListed]
  | transferred ticket saved awaited =>
    obtain ⟨isOpen, hphase, -⟩ := (awaits_eq_true_iff n _ _).1 awaited
    have hchosen := hn.chosen_isSome.2 (by simp [hphase])
    have hmetadata := hn.metadata_isSome.2 (by simp [hphase])
    have hhash := hn.isHash (by simp [hphase])
    have hproviders := hn.providers_ne_nil (by simp [hphase])
    have hmem := hn.chosen_mem
    constructor <;> simp_all [hn.wellListed]
  | transferFailed ticket error awaited =>
    obtain ⟨isOpen, hphase, -⟩ := (awaits_eq_true_iff n _ _).1 awaited
    have hchosen := hn.chosen_isSome.2 (by simp [hphase])
    have hmetadata := hn.metadata_isSome.2 (by simp [hphase])
    have hsaved := hn.saved_eq_none (by simp [hphase])
    have hhash := hn.isHash (by simp [hphase])
    have hproviders := hn.providers_ne_nil (by simp [hphase])
    have hmem := hn.chosen_mem
    constructor <;> simp_all [hn.wellListed]
  | walletStale epoch result => exact hn
  | walletKnown epoch wallet isOpen same => exact { hn with eq_closed := by simp [isOpen] }
  | walletFailed epoch error isOpen same => exact { hn with eq_closed := by simp [isOpen] }

theorem Coherent.new : Coherent new := Coherent.closed 0

theorem Coherent.after {n : Negotiation} (h : Coherent n) (past : List Event) :
    Coherent (after n past) := by
  induction past with
  | nil => exact h
  | cons event past ih => exact ih.transition (transition_perform _ event)

/-- The fields of a negotiation fit together after every run. -/
theorem coherent_after (past : List Event) : Coherent (after new past) :=
  Coherent.new.after past

end FileMarket.Negotiation
