import FileMarket.Negotiation.Answer
import FileMarket.Proofs.Text.Blank
import Mathlib.Tactic

/-!
# The list of providers

What an answered lookup makes of the peers that the node names, and what an offered price changes
in the list. Every listed peer stands trimmed and once (`nodup_listProviders`), and is one of those
listed before or of those named (`mem_listProviders`). A lookup lists the peers that are named, in
their order, each with the price that is known of it (`listProviders_eq`).
-/

set_option autoImplicit false

namespace FileMarket.Negotiation

open FileMarket.Text

/-- A provider is listed for a reason: it was listed before, or the node names it. -/
theorem mem_listProviders {known listed : List Provider} {ids : List String} {p : Provider}
    (hp : p ∈ listProviders known listed ids) :
    p ∈ listed ∨ ∃ id ∈ ids, trim id = p.peer ∧ p.peer ≠ "" := by
  fun_induction listProviders known listed ids with
  | case1 listed => exact Or.inl hp
  | case2 listed id rest peer hskip ih =>
    rcases ih hp with hp | ⟨id', hid', h⟩
    · exact Or.inl hp
    · exact Or.inr ⟨id', List.mem_cons_of_mem id hid', h⟩
  | case3 listed id rest peer hkeep price ih =>
    rcases ih hp with hp | ⟨id', hid', h⟩
    · rcases List.mem_append.1 hp with hp | hp
      · exact Or.inl hp
      · rw [List.mem_singleton] at hp
        subst hp
        refine Or.inr ⟨id, List.mem_cons_self, rfl, fun hpeer => hkeep ?_⟩
        simp [show peer = "" from hpeer]
    · exact Or.inr ⟨id', List.mem_cons_of_mem id hid', h⟩

/-- No peer is listed twice. -/
theorem nodup_listProviders {known listed : List Provider} {ids : List String}
    (h : (listed.map (·.peer)).Nodup) :
    ((listProviders known listed ids).map (·.peer)).Nodup := by
  fun_induction listProviders known listed ids with
  | case1 listed => exact h
  | case2 listed id rest peer hskip ih => exact ih h
  | case3 listed id rest peer hkeep price ih =>
    apply ih
    rw [List.map_append, List.nodup_append]
    refine ⟨h, List.nodup_singleton _, ?_⟩
    rintro a ha b hb rfl
    rw [List.map_singleton, List.mem_singleton] at hb
    obtain ⟨p, hp, rfl⟩ := List.mem_map.1 ha
    refine hkeep ?_
    rw [Bool.or_eq_true, List.any_eq_true]
    exact Or.inr ⟨p, hp, beq_iff_eq.2 hb⟩

/-! ## The list as a whole -/

/-- The peers that ids name: without the blanks around an id and without blank ids, each peer where
it is named first. -/
def namedPeers (ids : List String) : List String := ((ids.map trim).filter (· ≠ "")).eraseDups

/-- The price that a list of providers knows of a peer. -/
def knownPrice (providers : List Provider) (peer : String) : Option Binary64 :=
  (providers.find? (·.peer == peer)).bind (·.price)

/-- A lookup goes on with the peers that are not listed yet. -/
theorem listProviders_eq_append (known listed : List Provider) (ids : List String) :
    listProviders known listed ids = listed ++
      ((ids.map trim).filter fun peer => peer ≠ "" ∧ peer ∉ listed.map (·.peer)).eraseDups.map
        fun peer => ⟨peer, knownPrice known peer⟩ := by
  fun_induction listProviders known listed ids with
  | case1 listed => simp
  | case2 listed id rest peer hskip ih =>
    have hdropped : ¬ (peer ≠ "" ∧ peer ∉ listed.map (·.peer)) := by
      rintro ⟨hne, hnew⟩
      rw [Bool.or_eq_true, List.any_eq_true, String.isEmpty_iff] at hskip
      rcases hskip with hempty | ⟨p, hp, heq⟩
      · exact hne hempty
      · exact hnew (List.mem_map.2 ⟨p, hp, beq_iff_eq.1 heq⟩)
    rw [ih, List.map_cons, List.filter_cons_of_neg (by simpa using hdropped)]
  | case3 listed id rest peer hkeep price ih =>
    have hkept : peer ≠ "" ∧ peer ∉ listed.map (·.peer) := by
      rw [Bool.or_eq_true, List.any_eq_true, String.isEmpty_iff, not_or] at hkeep
      refine ⟨hkeep.1, fun hmem => hkeep.2 ?_⟩
      obtain ⟨p, hp, heq⟩ := List.mem_map.1 hmem
      exact ⟨p, hp, beq_iff_eq.2 heq⟩
    rw [ih, List.map_cons, List.filter_cons_of_pos (by simpa using hkept), List.eraseDups_cons,
      List.map_cons, List.append_assoc, List.singleton_append, List.filter_filter]
    -- What is new beside the peer just listed is what was new before, without that peer.
    congr 4
    refine List.filter_congr fun x _ => ?_
    rw [Bool.eq_iff_iff]
    simp only [List.map_append, List.map_singleton, List.mem_append, List.mem_singleton,
      decide_eq_true_iff, Bool.and_eq_true, Bool.not_eq_true', beq_eq_false_iff_ne, not_or]
    exact ⟨fun ⟨hne, hnew, hother⟩ => ⟨hother, hne, hnew⟩,
      fun ⟨hother, hne, hnew⟩ => ⟨hne, hnew, hother⟩⟩

/-- A lookup lists the peers that are named, each with the price that was known of it. -/
theorem listProviders_eq (known : List Provider) (ids : List String) :
    listProviders known [] ids =
      (namedPeers ids).map fun peer => ⟨peer, knownPrice known peer⟩ := by
  rw [listProviders_eq_append, List.nil_append]
  simp [namedPeers]

theorem map_peer_listProviders (known : List Provider) (ids : List String) :
    (listProviders known [] ids).map (·.peer) = namedPeers ids := by
  rw [listProviders_eq, List.map_map]
  exact List.map_id _

theorem mem_namedPeers {ids : List String} {peer : String} :
    peer ∈ namedPeers ids ↔ peer ≠ "" ∧ ∃ id ∈ ids, trim id = peer := by
  rw [namedPeers, List.mem_eraseDups, List.mem_filter, List.mem_map, decide_eq_true_iff, and_comm]

/-- No peer is named exactly if all ids are blank. -/
theorem namedPeers_eq_nil_iff {ids : List String} :
    namedPeers ids = [] ↔ ∀ id ∈ ids, allBlank id = true := by
  simp only [List.eq_nil_iff_forall_not_mem, mem_namedPeers, not_and, not_exists]
  constructor
  · intro hnone id hid
    by_contra hblank
    refine hnone (trim id) (fun hempty => hblank ?_) id hid rfl
    exact allBlank_of_trim hempty
  · rintro hblank peer hne id hid rfl
    exact hne (trim_of_allBlank (hblank id hid))

/-- Of a peer that is not listed no price is known. -/
theorem knownPrice_of_not_mem {providers : List Provider} {peer : String}
    (h : peer ∉ providers.map (·.peer)) : knownPrice providers peer = none := by
  have hnone : providers.find? (·.peer == peer) = none := by
    refine List.find?_eq_none.2 fun p hp hpeer => h ?_
    exact List.mem_map.2 ⟨p, hp, beq_iff_eq.1 hpeer⟩
  rw [knownPrice, hnone]
  rfl

/-- The price known of a listed peer is the one that stands beside it. -/
theorem knownPrice_of_mem {providers : List Provider} (hnodup : (providers.map (·.peer)).Nodup)
    {p : Provider} (hp : p ∈ providers) : knownPrice providers p.peer = p.price := by
  cases hfound : providers.find? (·.peer == p.peer) with
  | none => exact absurd (beq_self_eq_true p.peer) (List.find?_eq_none.1 hfound p hp)
  | some q =>
    have hpeer : q.peer = p.peer := by simpa using List.find?_some hfound
    obtain rfl := List.inj_on_of_nodup_map hnodup (List.mem_of_find?_eq_some hfound) hp hpeer
    rw [knownPrice, hfound]
    rfl

/-! ## Prices -/

/-- A price that becomes known changes no peer. -/
@[simp]
theorem map_peer_setPrice (peer : Option String) (price : Option Binary64)
    (providers : List Provider) :
    (setPrice peer price providers).map (·.peer) = providers.map (·.peer) := by
  induction providers with
  | nil => rfl
  | cons p rest ih =>
    unfold setPrice
    split
    · rfl
    · simp only [List.map_cons, ih]

@[simp]
theorem setPrice_eq_nil_iff (peer : Option String) (price : Option Binary64)
    (providers : List Provider) : setPrice peer price providers = [] ↔ providers = [] := by
  rw [← List.map_eq_nil_iff (f := (·.peer)), map_peer_setPrice, List.map_eq_nil_iff]

/-- Of a price that becomes known only the entry of its peer changes. -/
theorem mem_setPrice {peer : Option String} {price : Option Binary64} {providers : List Provider}
    (hnodup : (providers.map (·.peer)).Nodup) {p : Provider}
    (hp : p ∈ setPrice peer price providers) :
    ∃ q ∈ providers, q.peer = p.peer ∧ p.price = if peer = some p.peer then price else q.price := by
  induction providers with
  | nil => cases hp
  | cons first rest ih =>
    rw [List.map_cons, List.nodup_cons] at hnodup
    unfold setPrice at hp
    split at hp
    · rename_i hfirst
      rcases List.mem_cons.1 hp with rfl | hrest
      · exact ⟨first, List.mem_cons_self, rfl, (if_pos hfirst).symm⟩
      · -- The peer stands in the list once, so no further entry is meant.
        refine ⟨p, List.mem_cons_of_mem first hrest, rfl, (if_neg fun hsame => hnodup.1 ?_).symm⟩
        rw [Option.some.inj (hfirst.symm.trans hsame)]
        exact List.mem_map_of_mem hrest
    · rename_i hfirst
      rcases List.mem_cons.1 hp with rfl | hrest
      · exact ⟨p, List.mem_cons_self, rfl, (if_neg hfirst).symm⟩
      · obtain ⟨q, hq, hprice⟩ := ih hnodup.2 hrest
        exact ⟨q, List.mem_cons_of_mem first hq, hprice⟩

end FileMarket.Negotiation
