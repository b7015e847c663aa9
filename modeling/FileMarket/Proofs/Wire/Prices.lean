import FileMarket.Proofs.Grid.Batches
import FileMarket.Proofs.Negotiation.Naming
import FileMarket.Proofs.Negotiation.Receipts
import FileMarket.Proofs.Wire.Counts

/-!
# The ways in for a price

A price comes in as a text that the user types or as an attribute of a record on the wire, and it is
looked at once more when a purchase is confirmed. Each of the three has a reader of its own, and all
of them take the same amounts: a text on the wire is the price that the same text would be if it were
typed (`amount?_text_iff`), and what either of them takes is accepted as it stands
(`validatePrice_of_amount?`, `validatePrice_of_parsePrice`). So no price is turned down at a later
door: a purchase of metadata from the wire is refused for its price only if there is none
(`Coherent.refusesPrice_iff`), and so is a batch that hosts files (`prepareBatch_host_refused_iff`).
A price is absent wherever nothing that is an amount is given for it.
-/

set_option autoImplicit false

namespace FileMarket

open Text Wire

/-! ## Texts and values -/

namespace Wire

/-- A text on the wire is the price that it would be if it were typed. -/
theorem amount?_text_iff {s : String} {x : Binary64} :
    amount? (.text s) = some x ↔ parsePrice s = .ok x := by
  rw [parsePrice_eq_ok_iff]
  exact Option.filter_eq_some_iff

/-- A text on the wire is no price if it cannot be typed as one. -/
theorem amount?_text_eq_none_iff {s : String} :
    amount? (.text s) = none ↔ ∀ x, parsePrice s ≠ .ok x := by
  simp only [Option.eq_none_iff_forall_ne_some, ne_eq, amount?_text_iff]

/-- A price that is read from a value is accepted as it stands. -/
theorem validatePrice_of_amount? {value : Json} {x : Binary64} (h : amount? value = some x) :
    validatePrice (some x) = .ok x :=
  validatePrice_eq_ok_iff_isAmount.2 ⟨rfl, isAmount_of_amount? h⟩

/-- So is one that is typed. -/
theorem validatePrice_of_parsePrice {text : String} {x : Binary64} (h : parsePrice text = .ok x) :
    validatePrice (some x) = .ok x :=
  validatePrice_of_amount? (amount?_text_iff.2 h)

/-! ## Records -/

theorem reads_price : Reads .price (·.price) amount? := by
  intro record given value
  cases given <;> first | rfl | (cases value <;> rfl)

/-- The price of a record that is read is that of the text that is written for it. -/
theorem price_as_typed {depth : Nat} {document : Document} {record : FileRecord}
    (hrecord : recordOfDocument depth document = .ok record) {s : String}
    (hprice : (.price, .text (some s)) ∈ document.attributes) (x : Binary64) :
    record.price = some x ↔ parsePrice s = .ok x := by
  obtain ⟨value, hvalue, hread⟩ := reads_price.exists_of_written hrecord hprice
  obtain rfl : Json.text s = value := Option.some.inj hvalue
  rw [hread]
  exact amount?_text_iff

end Wire

namespace FileRecord

/-- A record that was read from the wire, alone or in a listing. -/
def IsDecoded (record : FileRecord) : Prop :=
  ∃ depth document, recordOfDocument depth document = .ok record

theorem IsDecoded.isPortable {record : FileRecord} (h : record.IsDecoded) : record.IsPortable := by
  obtain ⟨depth, document, hrecord⟩ := h
  obtain ⟨values, -, -, rfl⟩ := exists_putAll_of_recordOfDocument hrecord
  exact isPortable_bare_empty.putAll values

/-- The price of such a record is accepted, if it has one. -/
theorem IsPortable.price_refused_iff {record : FileRecord} (h : record.IsPortable) :
    (∀ x, validatePrice record.price ≠ .ok x) ↔ record.price = none := by
  rw [Option.eq_none_iff_forall_ne_some]
  refine forall_congr' fun x => not_congr ?_
  rw [validatePrice_eq_ok_iff_isAmount]
  exact and_iff_left_of_imp (h.price x)

end FileRecord

/-! ## Purchases -/

namespace Negotiation

/-- Confirming is refused for the price of what is on offer. -/
def RefusesPrice (n : Negotiation) : Prop :=
  ∃ error, n.confirm.2 = .error error ∧ error.IsPriceRefusal

/-- Confirming without an offer has nothing to do with a price. -/
theorem not_isPriceRefusal_of_not_offered {n : Negotiation} {error : MarketError}
    (unoffered : ¬ n.IsOffered) (h : n.confirm.2 = .error error) : ¬ error.IsPriceRefusal := by
  intro hrefusal
  obtain ⟨detail, rfl⟩ := hrefusal.exists_validation
  have hphase : n.phase ≠ .confirming ∧ n.phase ≠ .failed := not_or.1 unoffered
  -- The gate is not asked, and what refuses before it never calls the input bad.
  unfold confirm at h
  cases hidle : n.requireIdle "a transfer" with
  | error error =>
    obtain rfl : error = .validation detail := by
      rw [hidle] at h
      exact Except.error.inj h
    unfold requireIdle requireOpen at hidle
    cases hopen : n.isOpen <;> cases hbusy : n.phase.isBusy <;> rw [hopen, hbusy] at hidle <;>
      cases hidle
  | ok =>
    rw [hidle] at h
    dsimp only at h
    rw [if_pos hphase] at h
    cases h

/-- Confirming is refused for the price exactly if there is an offer whose price is not accepted. -/
theorem Coherent.refusesPrice_iff {n : Negotiation} (h : Coherent n) :
    n.RefusesPrice ↔ n.IsOffered ∧
      ∃ record, n.metadata = some record ∧ ∀ x, validatePrice record.price ≠ .ok x := by
  by_cases offered : n.IsOffered
  · obtain ⟨record, peer, isOpen, hrecord, hpeer⟩ := h.exists_offer offered
    simp only [RefusesPrice, confirm_eq_error_iff isOpen offered hrecord hpeer,
      BalanceGate.check_refuses_price_iff, hrecord, offered, true_and, Option.some.injEq,
      exists_eq_left']
  · constructor
    · rintro ⟨error, herror, hrefusal⟩
      exact absurd hrefusal (not_isPriceRefusal_of_not_offered offered herror)
    · rintro ⟨hoffered, -⟩
      exact absurd hoffered offered

/-- Events in which every record that a peer gives was read from the wire. -/
def OverWire (past : List Event) : Prop :=
  ∀ ticket record, .answer ticket (.metadata (.ok record)) ∈ past → record.IsDecoded

theorem mem_of_mem_history {n : Negotiation} {past : List Event} {entry : Entry}
    (h : entry ∈ history n past) : entry.event ∈ past := by
  induction past with
  | nil => cases h
  | cons event past ih =>
    rcases List.mem_cons.1 h with rfl | h
    · exact List.mem_cons_self
    · exact List.mem_cons_of_mem event (ih h)

/-- An offer has the price of a record that was read from the wire. -/
theorem OverWire.exists_decoded {past : List Event} (h : OverWire past) {record : FileRecord}
    (hrecord : (after new past).metadata = some record) :
    ∃ answer : FileRecord, answer.IsDecoded ∧ answer.price = record.price := by
  obtain ⟨⟨event, response⟩, hentry, asked, answer, hanswer, -, -, rfl⟩ :=
    exists_answer_of_offer past hrecord
  have hevent : event = .answer asked (.metadata (.ok answer)) := by
    unfold Entry.metadata? at hanswer
    split at hanswer
    · rename_i heq
      cases heq
      cases hanswer
      rfl
    · cases hanswer
  refine ⟨answer, h asked answer ?_, (FileRecord.hashed_price answer _).symm⟩
  rw [← hevent]
  exact mem_of_mem_history hentry

end Negotiation

/-! ## Batches -/

namespace Grid

variable {grid : Grid} {priceText : Option String}

/-- A batch that hosts files, which may be hosted, is refused exactly if no price can be read from
the text: one that a record on the wire would not have either. -/
theorem prepareBatch_host_refused_iff (hcheck : grid.checkAction .host = .ok ()) :
    (∃ error, grid.prepareBatch .host priceText = .error error) ↔
      amount? (.text (priceText.getD "")) = none := by
  rw [amount?_text_eq_none_iff]
  constructor
  · rintro ⟨error, herror⟩ x hprice
    have hread := batchPrice_host_eq_ok_iff.2 ⟨x, hprice, rfl⟩
    have hprepared := prepareBatch_eq_ok_iff.2 ⟨rfl, hcheck, some x, hread, rfl⟩
    rw [hprepared] at herror
    cases herror
  · intro hnever
    cases hbatch : grid.prepareBatch .host priceText with
    | error error => exact ⟨error, rfl⟩
    | ok batch =>
      obtain ⟨-, -, price, hprice, -⟩ := prepareBatch_eq_ok_iff.1 hbatch
      obtain ⟨x, hread, -⟩ := batchPrice_host_eq_ok_iff.1 hprice
      exact absurd hread (hnever x)

/-- All files of such a batch have the price that is read, and it is accepted for each. -/
theorem prices_of_prepareBatch_host {batch : PendingBatch}
    (h : grid.prepareBatch .host priceText = .ok batch) :
    ∃ x, amount? (.text (priceText.getD "")) = some x ∧ validatePrice batch.price = .ok x ∧
      ∀ record ∈ batch.records, validatePrice record.price = .ok x := by
  obtain ⟨-, -, price, hprice, rfl⟩ := prepareBatch_eq_ok_iff.1 h
  obtain ⟨x, hread, rfl⟩ := batchPrice_host_eq_ok_iff.1 hprice
  refine ⟨x, amount?_text_iff.2 hread, validatePrice_of_parsePrice hread, ?_⟩
  intro record hrecord
  obtain ⟨selected, -, rfl⟩ := List.mem_map.1 hrecord
  exact validatePrice_of_parsePrice hread

end Grid

/-! ## All of them -/

/-- All ways in for a price agree. A text that is written as the price of a record is read as the
price that it is when it is typed; what is read from a value or from a typed text is accepted as it
stands. So, in every run in which the records come over the wire, confirming is refused for the price
exactly while there is an offer without one, and a batch that hosts files which may be hosted is
refused exactly if its text gives no price, while the price of a batch that is not refused is accepted
for each of its files. -/
theorem price_entrances_agree :
    -- What is typed and what is written on the wire.
    (∀ s x, amount? (.text s) = some x ↔ parsePrice s = .ok x) ∧
    (∀ depth document record, recordOfDocument depth document = .ok record →
      ∀ s, (.price, .text (some s)) ∈ document.attributes →
        ∀ x, record.price = some x ↔ parsePrice s = .ok x) ∧
    -- What is accepted as it stands.
    (∀ value x, amount? value = some x → validatePrice (some x) = .ok x) ∧
    (∀ text x, parsePrice text = .ok x → validatePrice (some x) = .ok x) ∧
    -- What is refused for its price.
    (∀ past, Negotiation.OverWire past →
      ((Negotiation.new.after past).RefusesPrice ↔ (Negotiation.new.after past).IsOffered ∧
        ∃ record, (Negotiation.new.after past).metadata = some record ∧ record.price = none)) ∧
    (∀ (grid : Grid) priceText, grid.checkAction .host = .ok () →
      ((∃ error, grid.prepareBatch .host priceText = .error error) ↔
        amount? (.text (priceText.getD "")) = none) ∧
      ∀ batch, grid.prepareBatch .host priceText = .ok batch →
        ∃ x, amount? (.text (priceText.getD "")) = some x ∧ validatePrice batch.price = .ok x ∧
          ∀ record ∈ batch.records, validatePrice record.price = .ok x) := by
  refine ⟨fun s x => amount?_text_iff, ?_, fun value x => validatePrice_of_amount?,
    fun text x => validatePrice_of_parsePrice, ?_, ?_⟩
  · intro depth document record hrecord s hprice
    exact price_as_typed hrecord hprice
  · intro past hwire
    rw [(Negotiation.Coherent.new.after past).refusesPrice_iff]
    refine and_congr_right fun _ => exists_congr fun record => and_congr_right fun hrecord => ?_
    -- The offer has the price that its record was read with.
    obtain ⟨answer, hdecoded, hprice⟩ := hwire.exists_decoded hrecord
    rw [← hprice]
    exact hdecoded.isPortable.price_refused_iff
  · intro grid priceText hcheck
    exact ⟨Grid.prepareBatch_host_refused_iff hcheck, fun _ => Grid.prices_of_prepareBatch_host⟩

/-- A song on the wire with a text for its price. -/
def songPricedAs (text : String) : Document :=
  .object [("hash", .text (some "abc123")), ("price", .text (some text))] true

/-- A run up to the offer of a song that has no price. -/
def unpricedRun : List Negotiation.Event :=
  [.answer ⟨1, 2, "abc123", some "p1"⟩ (.metadata (.ok (.bare "abc123" ""))),
    .move (.selectPeer "p1"),
    .answer ⟨1, 1, "abc123", none⟩ (.providers (.ok ["p1"])),
    .start (some "abc123")]

/-- A price too great to be held is none: a song that has it cannot be bought and stored files cannot
be hosted for it. A zero with a minus is a price, on the wire as if it were typed. -/
theorem entrances_of_extreme_prices :
    recordOfDocument Document.maxDepth (songPricedAs " -0e0 ") =
      .ok { FileRecord.bare "abc123" "" with price := some .negativeZero } ∧
    parsePrice " -0e0 " = .ok .negativeZero ∧
    validatePrice (some .negativeZero) = .ok .negativeZero ∧
    recordOfDocument Document.maxDepth (songPricedAs "1e999") = .ok (.bare "abc123" "") ∧
    Negotiation.OverWire unpricedRun ∧ (Negotiation.new.after unpricedRun).RefusesPrice ∧
    (Grid.after (.new .storing) Grid.selectedRun).checkAction .host = .ok () ∧
    ∃ error, (Grid.after (.new .storing) Grid.selectedRun).prepareBatch .host (some "1e999") =
      .error error := by
  obtain ⟨-, hwritten, -, haccepted, hpurchase, hbatch⟩ := price_entrances_agree
  have hfree : recordOfDocument Document.maxDepth (songPricedAs " -0e0 ") =
      .ok { FileRecord.bare "abc123" "" with price := some .negativeZero } := by decide
  have htyped : parsePrice " -0e0 " = .ok .negativeZero :=
    (hwritten _ _ _ hfree " -0e0 " (List.mem_cons_of_mem _ List.mem_cons_self) _).1 rfl
  have hunpriced : recordOfDocument Document.maxDepth (songPricedAs "1e999") =
      .ok (.bare "abc123" "") := by decide
  have hwire : Negotiation.OverWire unpricedRun := by
    intro ticket record hmem
    simp only [unpricedRun, List.mem_cons, Negotiation.Event.answer.injEq, Answer.metadata.injEq,
      Except.ok.injEq, reduceCtorEq, and_false, List.not_mem_nil, or_false] at hmem
    obtain ⟨-, rfl⟩ := hmem
    exact ⟨_, _, hunpriced⟩
  have hcheck : (Grid.after (.new .storing) Grid.selectedRun).checkAction .host = .ok () := by
    decide
  refine ⟨hfree, htyped, haccepted _ _ htyped, hunpriced, hwire, ?_, hcheck, ?_⟩
  · exact (hpurchase unpricedRun hwire).2 ⟨.inl (by decide), .bare "abc123" "", by decide, rfl⟩
  · exact (hbatch _ (some "1e999") hcheck).1.2 (by decide)

end FileMarket
