import FileMarket.Proofs.Desk.Office
import FileMarket.Proofs.Desk.Parts

/-!
# Idle grids

When no load is under way and no error shows, the rows should be those of a listing. A load is begun
when a section is shown, and a grid comes to rest after that in two ways: a listing is taken, or a
purchase is added while the load is under way, which then becomes stale without another in its place
(`Fetched.step`). So an idle grid has been listed, except in the history of purchases when a purchase
got ahead of the load (`listed_or_displaced`); then no rows show but the purchases made since
(`purchase_displaces_load`).
-/

set_option autoImplicit false

namespace FileMarket

/-! ## Events that keep the rows -/

namespace Grid

/-- No load is under way, and no error shows. -/
structure IsIdle (grid : Grid) : Prop where
  loading : grid.loading = none
  error : grid.error = none

/-- Whether an event leaves section, rows and error alone, whatever it does besides. -/
def Event.keepsRows : Event → Bool
  | .switchTo _ | .finishLoad _ _ | .append _ | .clearError => false
  | _ => true

/-- Two grids with the same rows of the same section, the second idle only if the first is. -/
structure SameRows (grid grid' : Grid) : Prop where
  records : grid'.records = grid.records
  current : grid'.current = grid.current
  idle : grid'.IsIdle → grid.IsIdle

theorem SameRows.refl (grid : Grid) : SameRows grid grid := ⟨rfl, rfl, id⟩

theorem Transition.sameRows {grid grid' : Grid} {event : Event} {response : Response}
    (hn : Transition grid event response grid') (hkeeps : event.keepsRows = true) :
    SameRows grid grid' := by
  cases hn with
  | switchTo | loaded | loadFailed | append | clearError => cases hkeeps
  | refresh | reload => exact ⟨rfl, rfl, fun hidle => by cases hidle.loading⟩
  | stale | withheld | setFilter | clearFilters | setSort | clickColumn | toggleRow | toggleAll
  | clearSelection | prepared | shown | targeted | refused =>
    exact ⟨rfl, rfl, fun hidle => ⟨hidle.loading, hidle.error⟩⟩

theorem sameRows_after {grid : Grid} {events : List Event}
    (hkeeps : ∀ event ∈ events, event.keepsRows = true) : SameRows grid (after grid events) := by
  induction events with
  | nil => exact .refl grid
  | cons event past ih =>
    obtain ⟨hevent, hpast⟩ := List.forall_mem_cons.1 hkeeps
    have hlast := (transition_perform (after grid past) event).sameRows hevent
    have hearlier := ih hpast
    exact ⟨hlast.records.trans hearlier.records, hlast.current.trans hearlier.current,
      fun hidle => hearlier.idle (hlast.idle hidle)⟩

end Grid

/-- Only a move to a section does more than keep the rows. -/
theorem Command.keepsRows {command : Command} (h : ∀ target, command ≠ .showSection target)
    (today : Date) : ∀ event ∈ command.gridEvents today, event.keepsRows = true := by
  cases command with
  | showSection target => exact absurd rfl (h target)
  | _ => simp [gridEvents, Grid.Event.keepsRows]

namespace Office

/-! ## What a history shows -/

namespace Entry

variable {σ : Type}

/-- Whether an entry shows a section anew. -/
def showsAnew : Entry σ → Bool
  | ⟨_, .command _ (.showSection _)⟩ => true
  | _ => false

/-- The report that an entry hands in. -/
def report? : Entry σ → Option Report
  | ⟨office, .advance _ place⟩ => office.underway[place]?.bind JobState.report?
  | ⟨_, .command _ _⟩ => none

/-- The section whose listing an entry takes. -/
def listed? (entry : Entry σ) : Option Section :=
  match entry.report? with
  | some (.loaded token (.ok records)) =>
    if (entry.before.desk.grid.finishLoad token (.ok records)).2 = .accepted then some token.target
    else none
  | _ => none

/-- The purchase that an entry adds to the rows. -/
def purchased? (entry : Entry σ) : Option FileRecord :=
  match entry.report? with
  | some (.transferFinished ticket (.ok saved)) =>
    if entry.before.desk.negotiation.awaits .transferring ticket ∧
        entry.before.desk.grid.current = .purchased then some saved.record
    else none
  | _ => none

/-- Whether an entry adds a purchase while a load is under way, which becomes stale by it. -/
def displaces (entry : Entry σ) : Bool :=
  entry.purchased?.isSome && entry.before.desk.grid.isLoading

end Entry

variable {σ : Type}

/-- The entries since a section was last shown, or since the beginning. -/
def sinceShown (past : List (Entry σ)) : List (Entry σ) :=
  past.takeWhile fun entry => !entry.showsAnew

theorem sinceShown_cons {entry : Entry σ} (h : entry.showsAnew = false) (past : List (Entry σ)) :
    sinceShown (entry :: past) = entry :: sinceShown past := by
  simp [sinceShown, h]

/-! ## The invariant -/

/-- What an office knows of the section that it shows. -/
structure Fetched (office : Office σ) (past : List (Entry σ)) : Prop where
  consistent : office.desk.grid.Consistent
  listed : office.desk.grid.IsIdle →
    (∃ entry ∈ sinceShown past, entry.listed? = some office.desk.grid.current) ∨
      office.desk.grid.current = .purchased ∧ ∃ entry ∈ sinceShown past, entry.displaces = true
  rows : (∀ entry ∈ sinceShown past, entry.listed? = none) →
    ∀ record ∈ office.desk.grid.records, ∃ entry ∈ sinceShown past, entry.purchased? = some record

namespace Fetched

variable {office office' : Office σ} {past : List (Entry σ)} {entry : Entry σ}

/-- What has been listed or displaced since the section was shown remains so. -/
theorem listed_cons (h : Fetched office past) (hsince : entry.showsAnew = false)
    (hidle : office.desk.grid.IsIdle) :
    (∃ earlier ∈ sinceShown (entry :: past),
      earlier.listed? = some office.desk.grid.current) ∨
    office.desk.grid.current = .purchased ∧
      ∃ earlier ∈ sinceShown (entry :: past), earlier.displaces = true := by
  rw [sinceShown_cons hsince]
  exact (h.listed hidle).imp List.exists_mem_cons_of_exists
    (And.imp_right List.exists_mem_cons_of_exists)

/-- So do the purchases. -/
theorem rows_cons (h : Fetched office past) (hsince : entry.showsAnew = false)
    (hunlisted : ∀ earlier ∈ sinceShown (entry :: past), earlier.listed? = none)
    {record : FileRecord} (hrecord : record ∈ office.desk.grid.records) :
    ∃ earlier ∈ sinceShown (entry :: past), earlier.purchased? = some record := by
  rw [sinceShown_cons hsince] at hunlisted ⊢
  exact List.exists_mem_cons_of_exists
    (h.rows (List.forall_mem_cons.1 hunlisted).2 record hrecord)

/-- An entry that keeps the rows. -/
theorem keep (h : Fetched office past) (hsince : entry.showsAnew = false)
    (hconsistent : office'.desk.grid.Consistent)
    (hrows : Grid.SameRows office.desk.grid office'.desk.grid) :
    Fetched office' (entry :: past) where
  consistent := hconsistent
  listed hidle := by
    rw [hrows.current]
    exact h.listed_cons hsince (hrows.idle hidle)
  rows hunlisted record hrecord := by
    rw [hrows.records] at hrecord
    exact h.rows_cons hsince hunlisted hrecord

/-- An entry that adds a purchase to the rows. -/
theorem append (h : Fetched office past) (hbefore : entry.before = office)
    (hsince : entry.showsAnew = false) {record : FileRecord}
    (hpurchased : entry.purchased? = some record) (hcurrent : office.desk.grid.current = .purchased)
    (hconsistent : office'.desk.grid.Consistent)
    (hgrid : office'.desk.grid = office.desk.grid.append record) :
    Fetched office' (entry :: past) where
  consistent := hconsistent
  listed hidle := by
    rw [hgrid] at hidle ⊢
    -- The load that was under way is displaced; without one, the grid was idle before.
    cases hloading : office.desk.grid.loading with
    | some token =>
      refine Or.inr ⟨hcurrent, entry, ?_, ?_⟩
      · rw [sinceShown_cons hsince]
        exact List.mem_cons_self
      · simp [Entry.displaces, hpurchased, hbefore, Grid.isLoading, hloading]
    | none => exact h.listed_cons hsince ⟨hloading, hidle.error⟩
  rows hunlisted row hrow := by
    rw [hgrid] at hrow
    rcases Grid.eq_or_mem_of_mem_upsert hrow with rfl | hrow
    · rw [sinceShown_cons hsince]
      exact ⟨entry, List.mem_cons_self, hpurchased⟩
    · exact h.rows_cons hsince hunlisted hrow

/-- An entry that offers the outcome of a load. -/
theorem loaded (h : Fetched office past) (hbefore : entry.before = office)
    (hsince : entry.showsAnew = false) {token : LoadToken} {result : Outcome (List FileRecord)}
    (hreport : entry.report? = some (.loaded token result))
    (hconsistent : office'.desk.grid.Consistent)
    (hgrid : office'.desk.grid = (office.desk.grid.finishLoad token result).1) :
    Fetched office' (entry :: past) := by
  have hrule := Grid.transition_finishLoad office.desk.grid token result
  cases hfinish : office.desk.grid.finishLoad token result with
  | mk grid reception =>
    rw [hfinish] at hrule hgrid
    cases hrule with
    | stale => exact h.keep hsince hconsistent (by rw [hgrid]; exact .refl _)
    | loaded _ records awaited =>
      -- The load that was waited for is one of the section that shows.
      have hlisted : entry.listed? = some office.desk.grid.current := by
        unfold Entry.listed?
        rw [hreport]
        dsimp only
        rw [hbefore, hfinish, if_pos rfl, h.consistent.loading token awaited]
      refine ⟨hconsistent, fun _ => .inl ?_, fun hunlisted => ?_⟩
      · rw [sinceShown_cons hsince, hgrid]
        exact ⟨entry, List.mem_cons_self, hlisted⟩
      · rw [sinceShown_cons hsince] at hunlisted
        rw [hunlisted entry List.mem_cons_self] at hlisted
        cases hlisted
    | loadFailed _ error awaited =>
      refine ⟨hconsistent, fun hidle => ?_, fun hunlisted record hrecord => ?_⟩
      · rw [hgrid] at hidle
        cases hidle.error
      · rw [hgrid] at hrecord
        exact h.rows_cons hsince hunlisted hrecord

end Fetched

/-! ## All runs -/

theorem report?_advance {office : Office σ} {early late : List JobState} {report : Report}
    (today : Date) (found : office.underway = early ++ .ended report :: late) :
    (⟨office, .advance today early.length⟩ : Entry σ).report? = some report := by
  unfold Entry.report?
  dsimp only
  rw [getElem?_underway found]
  rfl

/-- Every rule keeps what an office knows of its section. -/
theorem Fetched.step {node : Node σ} {office office' : Office σ} {past : List (Entry σ)}
    {event : Event} (h : Fetched office past) (hstep : Step node office event office') :
    Fetched office' (⟨office, event⟩ :: past) := by
  cases hstep with
  | command today command =>
    have hgrid := (office.desk.handle_parts today command).grid
    have hconsistent := h.consistent.after (command.gridEvents today)
    rw [← hgrid] at hconsistent
    by_cases hmove : ∃ target, command = .showSection target
    -- A move leaves no rows and begins a load.
    · obtain ⟨target, rfl⟩ := hmove
      refine ⟨hconsistent, fun hidle => ?_, fun _ record hrecord => ?_⟩
      · cases hidle.loading
      · cases hrecord
    -- No other command is about rows or loads that have ended.
    · have hcommand : ∀ target, command ≠ .showSection target :=
        fun target heq => hmove ⟨target, heq⟩
      refine h.keep ?_ hconsistent ?_
      · cases command with
        | showSection target => exact absurd rfl (hcommand target)
        | _ => rfl
      · rw [hgrid]
        exact Grid.sameRows_after (command.keepsRows hcommand today)
  | advance | nothing => exact h.keep rfl h.consistent (.refl _)
  | report today early late report found =>
    have hgrid := (office.desk.receive_parts report).grid
    have hconsistent := h.consistent.after (office.desk.reportedToGrid report)
    rw [← hgrid] at hconsistent
    have hreport := report?_advance today found
    cases report with
    | loaded token result => exact h.loaded rfl rfl hreport hconsistent hgrid
    | transferFinished ticket result =>
      cases result with
      | error error => exact h.keep rfl hconsistent (by rw [hgrid]; exact .refl _)
      | ok saved =>
        unfold Desk.reportedToGrid at hgrid
        dsimp only at hgrid
        split at hgrid
        · rename_i hadded
          have hpurchased : Entry.purchased? ⟨office, .advance today early.length⟩ =
              some saved.record := by
            unfold Entry.purchased?
            rw [hreport]
            exact if_pos hadded
          exact h.append rfl rfl hpurchased hadded.2 hconsistent hgrid
        · exact h.keep rfl hconsistent (by rw [hgrid]; exact .refl _)
    | batchFinished action origin results =>
      refine h.keep rfl hconsistent ?_
      rw [hgrid]
      apply Grid.sameRows_after
      unfold Desk.reportedToGrid
      dsimp only
      split <;> simp [Grid.Event.keepsRows]
    | walletLoaded | peersLoaded | metadataLoaded => exact h.keep rfl hconsistent (.refl _)

theorem fetched_history (node : Node σ) (target : Section) (world : World σ) (past : List Event) :
    Fetched (after node (opened target world) past)
      (history node (opened target world) past) := by
  induction past with
  | nil =>
    refine ⟨(Grid.Consistent.new target).after [.switchTo target], fun hidle => ?_,
      fun _ record hrecord => ?_⟩
    · cases hidle.loading
    · cases hrecord
  | cons event past ih => exact ih.step (step_perform node _ event)

/-- In every run, a load is under way, or an error shows, or a listing of the section that shows has
been taken since it was shown, or the section is the history of purchases and a purchase was added
since while a load was under way. Where no listing was taken, nothing shows but the purchases made
since. -/
theorem listed_or_displaced (node : Node σ) (target : Section) (world : World σ)
    (past : List Event) :
    ((after node (opened target world) past).desk.grid.isLoading = true ∨
      (after node (opened target world) past).desk.grid.error ≠ none ∨
      (∃ entry ∈ sinceShown (history node (opened target world) past),
        entry.listed? = some (after node (opened target world) past).desk.grid.current) ∨
      (after node (opened target world) past).desk.grid.current = .purchased ∧
        ∃ entry ∈ sinceShown (history node (opened target world) past),
          entry.displaces = true) ∧
    ((∀ entry ∈ sinceShown (history node (opened target world) past), entry.listed? = none) →
      ∀ record ∈ (after node (opened target world) past).desk.grid.records,
        ∃ entry ∈ sinceShown (history node (opened target world) past),
          entry.purchased? = some record) := by
  have h := fetched_history node target world past
  refine ⟨?_, h.rows⟩
  cases hloading : (after node (opened target world) past).desk.grid.loading with
  | some token => exact .inl (by rw [Grid.isLoading, hloading]; rfl)
  | none =>
    by_cases herror : (after node (opened target world) past).desk.grid.error = none
    · exact .inr (.inr (h.listed ⟨hloading, herror⟩))
    · exact .inr (.inl herror)

/-- A node with one purchase in its history that sells one more song. -/
def songShop : Node Unit := fun call _ => match call with
  | .list _ => (.ok [.bare "f00d" "older.mp3"], ())
  | .findProviders _ => (.ok ["p1"], ())
  | .requestMetadata _ _ =>
    (.ok { FileRecord.bare "abc123" "song.mp3" with price := some .zero }, ())
  | .download _ _ _ => (.ok ⟨none, none, [1]⟩, ())
  | .wallet => (.ok ⟨none, .zero, .zero⟩, ())
  | .add _ _ | .delete _ _ => (.error (.transport "refused"), ())

/-- The song is bought before the history of purchases has been listed; the listing comes last. -/
def hastyPurchase : List Event :=
  [.advance default 0, .advance default 0] ++
    List.replicate 5 (.advance default 1) ++
      [.command default .confirmPurchase, .advance default 1, .advance default 1,
        .command default (.selectPeer "p1"), .advance default 1, .advance default 1,
        .advance default 1, .advance default 1, .command default (.openNegotiation (some "abc123"))]

/-- A purchase that gets ahead of the first load: all jobs have ended, no load is under way and no
error shows, but no listing was taken, and the older purchase does not show. -/
theorem purchase_displaces_load :
    let office := after songShop (opened .purchased ⟨(), .absent ""⟩) hastyPurchase
    let past := history songShop (opened .purchased ⟨(), .absent ""⟩) hastyPurchase
    office.desk.grid.isLoading = false ∧ office.desk.grid.error = none ∧
      office.underway.length = 0 ∧ office.desk.grid.records.map (·.hash) = ["abc123"] ∧
      ¬ ∃ entry ∈ sinceShown past, entry.listed? = some office.desk.grid.current := by
  intro office past
  refine ⟨?_, ?_, ?_, ?_, ?_⟩
  all_goals decide +kernel

end Office

end FileMarket
