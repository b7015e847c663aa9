import FileMarket.Proofs.CommandLine.Opening
import FileMarket.Proofs.Grid.Preparation
import FileMarket.Proofs.Selection

/-!
# Rows that are selected by their hashes

A task selects the rows it is given one by one. A row that is selected already stays so, so rows may
be given in any order and more than once (`Client.selectRows_run_of_listed`), and one that is not
listed ends the run (`Client.selectRows_run_of_unlisted`). A change that is prepared then is for the
records `chosen`: those with one of the hashes, in the order of the listing.
-/

set_option autoImplicit false

namespace FileMarket

/-! ## What is asked for -/

/-- The records that are asked for by their hashes, in the order of the listing, as a batch sends
them. -/
def chosen (records : List FileRecord) (hashes : List String) (price : Option Binary64) :
    List FileRecord :=
  (records.filter (·.hash ∈ hashes)).map (·.priced price)

section Chosen

variable {records : List FileRecord} {hashes : List String} (price : Option Binary64)

theorem map_hash_chosen : (chosen records hashes price).map (·.hash) =
    (records.map (·.hash)).filter (· ∈ hashes) := by
  rw [chosen, List.map_map, List.filter_map]
  exact List.map_congr_left fun record _ => record.hash_priced price

/-- Where all hashes are in the listing and the listing has no hash twice, there is one record for
each hash that is asked for. -/
theorem chosen_hashes_perm (hdistinct : (records.map (·.hash)).Nodup)
    (hlisted : ∀ hash ∈ hashes, ∃ record ∈ records, record.hash = hash) :
    ((chosen records hashes price).map (·.hash)).Perm hashes.dedup := by
  rw [map_hash_chosen, List.perm_ext_iff_of_nodup (hdistinct.filter _) hashes.nodup_dedup]
  intro hash
  rw [List.mem_filter, decide_eq_true_iff, List.mem_dedup, List.mem_map]
  exact and_iff_right_of_imp (hlisted hash)

/-- A single hash chooses one record. -/
theorem exists_chosen_eq_singleton {hash : String} (hdistinct : (records.map (·.hash)).Nodup)
    (hlisted : ∀ x ∈ [hash], ∃ record ∈ records, record.hash = x) :
    ∃ record ∈ records, record.hash = hash ∧
      chosen records [hash] price = [record.priced price] := by
  -- The hashes chosen are the one that is asked for, so one record passes the filter.
  have hperm := chosen_hashes_perm price hdistinct hlisted
  rw [List.dedup_eq_self.2 (List.nodup_singleton hash), List.perm_singleton, chosen,
    List.map_map] at hperm
  obtain ⟨record, hfilter, hhash⟩ := List.map_eq_singleton_iff.1 hperm
  have hmem := (List.mem_filter.1 (hfilter ▸ List.mem_singleton_self record)).1
  refine ⟨record, hmem, ?_, ?_⟩
  · rw [← hhash]
    exact (record.hash_priced price).symm
  · rw [chosen, hfilter]
    rfl

end Chosen

/-! ## Selecting rows -/

/-- The desk that shows a listing, with some rows selected. -/
def Desk.selecting (shown : Section) (records : List FileRecord) (set : HashSet) : Desk :=
  { listing shown records with
    grid := { (listing shown records).grid with selection := ⟨set, none⟩ } }

@[simp]
theorem Desk.contains_selecting (shown : Section) (records : List FileRecord) (set : HashSet)
    (hash : String) :
    (selecting shown records set).grid.selection.contains hash = set.contains hash := rfl

/-- A row that is not selected is put into the selection if it is listed. -/
theorem Desk.handle_toggleRow_selecting (today : Date) (shown : Section) (records : List FileRecord)
    {set : HashSet} {hash : String} (hunselected : set.contains hash = false) :
    (selecting shown records set).handle today (.toggleRow hash) =
      if records.any (·.hash == hash) then (selecting shown records (set.insert hash), [])
      else (selecting shown records set).refuse
        (.notFound ("No file " ++ hash ++ " in " ++ shown.label)) := by
  show putGrid _ (if records.any (·.hash == hash) then
    .ok { (selecting shown records set).grid with
      selection := if set.contains hash then _ else _ } else _) = _
  rw [hunselected]
  cases records.any (·.hash == hash) <;> rfl

/-- A button for a change prepares a batch. -/
theorem Desk.handle_requestBatch_selecting (today : Date) {action : Action}
    (hmutation : action.isMutation = true) (shown : Section) (records : List FileRecord)
    (set : HashSet) (price : Option String) :
    (selecting shown records set).handle today (.requestBatch action price) =
      (selecting shown records set).prepareBatch action price := by
  cases action with
  | download | info => cases hmutation
  | host | share | delete => rfl

/-- The rows that are selected one by one are those asked for. -/
theorem Desk.selected_selecting (shown : Section) (records : List FileRecord)
    (hashes : List String) :
    (selecting shown records (hashes.foldl .insert .empty)).grid.selected =
      records.filter (·.hash ∈ hashes) := by
  refine List.filter_congr fun record _ => ?_
  rw [Bool.eq_iff_iff, decide_eq_true_iff, contains_selecting, HashSet.contains_foldl_insert]
  exact or_iff_left Bool.false_ne_true

/-- A change of selected rows is prepared if the section offers it, something is asked for, and the
price can be read. -/
theorem Desk.prepareBatch_selecting_eq_ok_iff {shown : Section} (records : List FileRecord)
    {hashes : List String} {action : Action} {priceText : Option String} {batch : PendingBatch}
    (hmutation : action.isMutation = true) :
    (selecting shown records (hashes.foldl .insert .empty)).grid.prepareBatch action priceText =
        .ok batch ↔
      (shown.layout.allows action = true ∧ hashes ≠ []) ∧
        ∃ price, Grid.batchPrice action priceText = .ok price ∧
          batch = ⟨action, shown, chosen records hashes price, price,
            .batch action (chosen records hashes price)⟩ := by
  have hempty : (hashes.foldl HashSet.insert .empty).isEmpty = false ↔ hashes ≠ [] := by
    rw [HashSet.isEmpty_eq_false_iff, ← List.isEmpty_eq_false_iff,
      List.isEmpty_eq_false_iff_exists_mem]
    refine exists_congr fun hash => ?_
    rw [HashSet.contains_foldl_insert]
    exact or_iff_left Bool.false_ne_true
  have hsingle : action.needsSingle = false := by
    cases action with
    | download | info => cases hmutation
    | host | share | delete => rfl
  rw [Grid.prepareBatch_eq_ok_iff, Grid.checkAction_eq_ok_iff, selected_selecting]
  constructor
  · rintro ⟨-, ⟨hallowed, hselected, -⟩, hbatch⟩
    exact ⟨⟨hallowed, hempty.1 hselected⟩, hbatch⟩
  · rintro ⟨⟨hallowed, hhashes⟩, hbatch⟩
    refine ⟨hmutation, ⟨hallowed, hempty.2 hhashes, fun h => ?_⟩, hbatch⟩
    rw [hsingle] at h
    cases h

namespace CommandLine

variable {σ : Type} (client : Client σ) (console : Console σ)

namespace Client

section Rows

variable {shown : Section} {records : List FileRecord} {set : HashSet}

/-- A row that is listed is selected, and stays selected if it was. -/
theorem selectRows_run_cons {hash : String} (hlisted : ∃ record ∈ records, record.hash = hash)
    (rest : List String) :
    (client.selectRows (Desk.selecting shown records set) (hash :: rest)).run console =
      (client.selectRows (Desk.selecting shown records (set.insert hash)) rest).run console := by
  rw [selectRows]
  -- A row is toggled only if it is not selected, so a toggle never takes it out again.
  cases hselected : set.contains hash with
  | true =>
    rw [Desk.contains_selecting, if_pos hselected, HashSet.insert_of_contains hselected]
  | false =>
    have hany : records.any (·.hash == hash) = true := by simpa using hlisted
    have htoggle := Desk.handle_toggleRow_selecting client.today shown records hselected
    rw [if_pos hany] at htoggle
    have hinserted : (set.insert hash).contains hash = true := HashSet.contains_insert.2 (.inl rfl)
    rw [Desk.contains_selecting, if_neg (by simp [hselected]),
      run_bind_of_ok (client.perform_run_of_idle console htoggle), Desk.contains_selecting,
      if_pos hinserted]

/-- A row that is not listed ends the run. -/
theorem selectRows_run_unlisted {hash : String} (hlisted : ¬ ∃ record ∈ records, record.hash = hash)
    (hset : set.contains hash = false) (rest : List String) :
    ∃ fault, (client.selectRows (Desk.selecting shown records set) (hash :: rest)).run console =
      .error fault console := by
  have hany : ¬ records.any (·.hash == hash) = true := by simpa using hlisted
  have htoggle := Desk.handle_toggleRow_selecting client.today shown records hset
  rw [if_neg hany] at htoggle
  have hunselected : ¬ (Desk.selecting shown records set).grid.selection.contains hash = true := by
    simp [hset]
  rw [selectRows, if_neg hunselected,
    run_bind_of_ok (client.perform_run_of_idle console htoggle)]
  exact ⟨_, congrFun (if_neg hunselected) console⟩

/-- Rows that are all listed are selected. -/
theorem selectRows_run_of_listed {hashes : List String}
    (hlisted : ∀ hash ∈ hashes, ∃ record ∈ records, record.hash = hash) :
    (client.selectRows (Desk.selecting shown records set) hashes).run console =
      .ok (.selecting shown records (hashes.foldl .insert set)) console := by
  induction hashes generalizing set with
  | nil => rfl
  | cons hash hashes ih =>
    obtain ⟨hfirst, hrest⟩ := List.forall_mem_cons.1 hlisted
    rw [client.selectRows_run_cons console hfirst]
    exact ih hrest

/-- If a row is not listed the run ends at the first such row. -/
theorem selectRows_run_of_unlisted {hashes : List String}
    (hset : ∀ hash, set.contains hash = true → ∃ record ∈ records, record.hash = hash)
    (hunlisted : ¬ ∀ hash ∈ hashes, ∃ record ∈ records, record.hash = hash) :
    ∃ fault, (client.selectRows (Desk.selecting shown records set) hashes).run console =
      .error fault console := by
  -- All that is selected on the way is listed, so the row that ends the run is not yet selected.
  induction hashes generalizing set with
  | nil => exact absurd (fun _ hmem => by cases hmem) hunlisted
  | cons hash hashes ih =>
    by_cases hfirst : ∃ record ∈ records, record.hash = hash
    · rw [client.selectRows_run_cons console hfirst]
      refine ih ?_ fun hrest => hunlisted (List.forall_mem_cons.2 ⟨hfirst, hrest⟩)
      intro x hx
      rcases HashSet.contains_insert.1 hx with rfl | hx
      · exact hfirst
      · exact hset x hx
    · exact client.selectRows_run_unlisted console hfirst
        (Bool.eq_false_iff.2 fun hselected => hfirst (hset hash hselected)) hashes

end Rows

end Client

end CommandLine

end FileMarket
