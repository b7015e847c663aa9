import FileMarket.Proofs.Grid.Consistency
import FileMarket.Proofs.Grid.Preparation

/-!
# The files of a batch

A batch is for the selected files: none of them is left out, none is there twice, and no other is
there (`PendingBatch.Covers`). A selection is a set of hashes and a batch a list of records, so this
rests on two facts about the grid. Every selected hash is that of a record, which holds in every
run, and no two records have the same hash, which every row that is added keeps
(`nodup_upsert`).
-/

set_option autoImplicit false

namespace FileMarket

/-! ## The hashes of records -/

namespace FileRecord

/-- The hashes of records, in their order. -/
def hashes (records : List FileRecord) : List String := records.map (·.hash)

@[simp]
theorem hashes_map_priced (records : List FileRecord) (price : Option Binary64) :
    hashes (records.map (·.priced price)) = hashes records := by
  unfold hashes
  rw [List.map_map]
  exact List.map_congr_left fun record _ => hash_priced record price

/-- Without a price to set, records stay as they are. -/
theorem map_priced_none (records : List FileRecord) : records.map (·.priced none) = records :=
  List.map_id records

end FileRecord

open FileRecord

namespace Grid

/-- Whatever row is added, no hash comes to stand twice. -/
theorem nodup_upsert (record : FileRecord) {records : List FileRecord}
    (hnodup : (hashes records).Nodup) : (hashes (upsert record records)).Nodup := by
  induction records with
  | nil => exact List.nodup_singleton record.hash
  | cons first rest ih =>
    have hfirst : first.hash ∉ hashes rest := (List.nodup_cons.1 hnodup).1
    have hrest : (hashes rest).Nodup := (List.nodup_cons.1 hnodup).2
    unfold upsert
    split
    · -- The row takes the place of the one with its hash.
      rename_i hsame
      rw [hsame] at hfirst
      exact List.nodup_cons.2 ⟨hfirst, hrest⟩
    · rename_i hother
      refine List.nodup_cons.2 ⟨fun hmem => ?_, ih hrest⟩
      obtain ⟨row, hrow, hhash⟩ := List.mem_map.1 hmem
      rcases eq_or_mem_of_mem_upsert hrow with rfl | hrow
      · exact hother hhash.symm
      · exact hfirst (List.mem_map.2 ⟨row, hrow, hhash⟩)

/-! ## The selected records -/

section Selected

variable {grid : Grid}

/-- The hashes of the selected records are the selected hashes. -/
theorem Consistent.mem_hashes_selected (h : Consistent grid) (hash : String) :
    hash ∈ hashes grid.selected ↔ grid.selection.contains hash = true := by
  constructor
  · intro hmem
    obtain ⟨record, hselected, rfl⟩ := List.mem_map.1 hmem
    exact (List.mem_filter.1 hselected).2
  · intro hcontains
    obtain ⟨record, hrecord, rfl⟩ := h.selected hash hcontains
    exact List.mem_map_of_mem (List.mem_filter.2 ⟨hrecord, hcontains⟩)

theorem nodup_hashes_selected (hnodup : (hashes grid.records).Nodup) :
    (hashes grid.selected).Nodup :=
  (List.filter_sublist.map _).nodup hnodup

/-- As many records are selected as hashes. -/
theorem Consistent.length_selected (h : Consistent grid) (hnodup : (hashes grid.records).Nodup) :
    grid.selected.length = grid.selection.size := by
  have hmem : ∀ hash, hash ∈ hashes grid.selected ↔ hash ∈ grid.selection.hashes.toList := by
    intro hash
    rw [h.mem_hashes_selected, Selection.contains, HashSet.contains_iff_mem]
  have hperm : (hashes grid.selected).Perm grid.selection.hashes.toList :=
    (List.perm_ext_iff_of_nodup (nodup_hashes_selected hnodup)
      (HashSet.nodup_toList grid.selection.hashes)).2 hmem
  rw [← List.length_map, ← hashes, hperm.length_eq]
  rfl

end Selected

end Grid

/-! ## Batches -/

/-- A batch is for the selected records of a grid, each once and in the order of the grid, whether
the filters hide them or not. Hosting sets the price that it reads from a text; otherwise the
records are as they are in the grid. -/
structure PendingBatch.Covers (batch : PendingBatch) (grid : Grid) (action : Action)
    (priceText : Option String) : Prop where
  action_eq : batch.action = action
  origin_eq : batch.origin = grid.current
  hosted : action = .host → ∃ amount, parsePrice (priceText.getD "") = .ok amount ∧
    batch.price = some amount ∧
    batch.records = grid.selected.map fun record => { record with price := some amount }
  unpriced : action ≠ .host → batch.price = none ∧ batch.records = grid.selected
  mem_iff : ∀ hash, hash ∈ hashes batch.records ↔ grid.selection.contains hash = true
  nodup : (hashes batch.records).Nodup
  length_eq : batch.records.length = grid.selection.size
  ne_nil : batch.records ≠ []
  files : batch.receipt.files = batch.records
  funds : batch.receipt.funds = none

/-- No other action sets a price. -/
theorem Grid.batchPrice_of_ne_host {action : Action} (hother : action ≠ .host)
    {priceText : Option String} {price : Option Binary64}
    (h : batchPrice action priceText = .ok price) : price = none := by
  cases action with
  | host => exact absurd rfl hother
  | download | share | delete | info => exact (Except.ok.inj h).symm

/-- A batch of a consistent grid without repeated hashes is for the selected records. -/
theorem Grid.Consistent.covers {grid : Grid} (h : Consistent grid)
    (hnodup : (hashes grid.records).Nodup) {action : Action} {priceText : Option String}
    {batch : PendingBatch} (hbatch : grid.prepareBatch action priceText = .ok batch) :
    batch.Covers grid action priceText := by
  obtain ⟨-, hcheck, price, hprice, rfl⟩ := prepareBatch_eq_ok_iff.1 hbatch
  obtain ⟨-, hselection, -⟩ := checkAction_eq_ok_iff.1 hcheck
  have hlength := h.length_selected hnodup
  exact {
    action_eq := rfl
    origin_eq := rfl
    hosted := by
      rintro rfl
      obtain ⟨amount, hamount, rfl⟩ := batchPrice_host_eq_ok_iff.1 hprice
      exact ⟨amount, hamount, rfl, rfl⟩
    unpriced := by
      intro hother
      obtain rfl := batchPrice_of_ne_host hother hprice
      exact ⟨rfl, map_priced_none grid.selected⟩
    mem_iff := by
      intro hash
      rw [hashes_map_priced]
      exact h.mem_hashes_selected hash
    nodup := by
      rw [hashes_map_priced]
      exact nodup_hashes_selected hnodup
    length_eq := by rw [List.length_map, hlength]
    ne_nil := by
      -- Something is selected, and every selected hash is that of a record.
      obtain ⟨hash, hhash⟩ := HashSet.isEmpty_eq_false_iff.1 hselection
      obtain ⟨record, hrecord, -⟩ := List.mem_map.1 ((h.mem_hashes_selected hash).2 hhash)
      rw [ne_eq, List.map_eq_nil_iff]
      exact List.ne_nil_of_mem hrecord
    files := rfl
    funds := rfl }

/-- In every run of a grid that comes to records without repeated hashes, every batch that can be
prepared is for the selected records, all of them and each once; and whatever row is added, no hash
is repeated. -/
theorem Grid.batch_covers_selection (target : Section) (past : List Event)
    (hnodup : (hashes (after (new target) past).records).Nodup) :
    (∀ action priceText batch,
      (after (new target) past).prepareBatch action priceText = .ok batch →
      batch.Covers (after (new target) past) action priceText) ∧
    ∀ record, (hashes (after (new target) (.append record :: past)).records).Nodup :=
  ⟨fun _ _ _ hbatch => ((Consistent.new target).after past).covers hnodup hbatch,
    fun record => nodup_upsert record hnodup⟩

namespace Grid

/-- A run in which two of three stored files are selected. -/
def selectedRun : List Event :=
  [.toggleRow "f3", .toggleRow "f1",
    .finishLoad ⟨.storing, 1⟩
      (.ok [.bare "f1" "song.mp3", .bare "f2" "film.mkv", .bare "f3" "text.txt"]),
    .reload]

/-- The selected files at a price of 7. -/
def hostedFiles : List FileRecord :=
  [{ FileRecord.bare "f1" "song.mp3" with price := some ⟨0x401C000000000000⟩ },
    { FileRecord.bare "f3" "text.txt" with price := some ⟨0x401C000000000000⟩ }]

/-- The batch that hosts them. -/
def hostedBatch : PendingBatch :=
  ⟨.host, .storing, hostedFiles, some ⟨0x401C000000000000⟩, .batch .host hostedFiles⟩

theorem hostedBatch_covers :
    (hashes (after (new .storing) selectedRun).records).Nodup ∧
    (after (new .storing) selectedRun).prepareBatch .host (some " 7 ") = .ok hostedBatch ∧
    hostedBatch.Covers (after (new .storing) selectedRun) .host (some " 7 ") := by
  have hnodup : (hashes (after (new .storing) selectedRun).records).Nodup := by decide
  have hbatch : (after (new .storing) selectedRun).prepareBatch .host (some " 7 ") =
      .ok hostedBatch := by decide
  exact ⟨hnodup, hbatch, (batch_covers_selection .storing selectedRun hnodup).1 _ _ _ hbatch⟩

end Grid

end FileMarket
