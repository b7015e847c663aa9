import FileMarket.Proofs.Desk.Entries
import FileMarket.Proofs.Grid.Loads

/-!
# Listing a changed section again

A batch changes one section of the node: that of the files it deletes, or the one that files are
hosted or shared in, whichever section it was begun from. When it has ended, the section that it
was begun from is listed again if it still shows, and then every load begun before is superseded.
Nothing else is looked at (`relisted_where_begun`). So where the section that was changed is
another one and shows by then, no load is begun, and a listing from before the change can still
come in (`hosted_file_not_listed`).
-/

set_option autoImplicit false

namespace FileMarket

/-- The section that an action changes, used in a given section. -/
def Action.changed? (action : Action) (origin : Section) : Option Section :=
  match action with
  | .delete => some origin
  | .host => some .hosting
  | .share => some .sharing
  | .download | .info => none

/-- The calls of a batch change this section. -/
theorem Action.changed?_of_mem_calls {action : Action} {origin : Section}
    {records : List FileRecord} {call : Call} (h : call ∈ action.calls origin records) :
    call.changed? = action.changed? origin := by
  cases action with
  | download | info => cases h
  | host | share | delete =>
    obtain ⟨record, -, rfl⟩ := List.mem_map.1 h
    rfl

namespace Grid

/-! ## Superseded loads -/

/-- A load that was begun before and is not waited for any more. -/
structure Superseded (token : LoadToken) (grid : Grid) : Prop where
  begun : token.generation ≤ grid.generation
  unawaited : grid.loading ≠ some token

namespace Superseded

variable {token : LoadToken} {grid grid' : Grid}

/-- No rule brings a superseded load back: the next one has a number of its own. -/
theorem transition {event : Event} {response : Response} (h : Superseded token grid)
    (hn : Transition grid event response grid') : Superseded token grid' := by
  have hbegun := h.begun
  rcases hn.loads with ⟨next, -, hnext, hgeneration, hloading⟩ | ⟨-, hgeneration, hloading⟩
  · refine ⟨by omega, ?_⟩
    intro hsame
    obtain rfl := Option.some.inj (hloading.symm.trans hsame)
    omega
  · refine ⟨hbegun.trans hgeneration, ?_⟩
    intro hsame
    exact h.unawaited (hloading token hsame)

theorem after (h : Superseded token grid) (late : List Event) :
    Superseded token (after grid late) := by
  induction late with
  | nil => exact h
  | cons event late ih => exact ih.transition (transition_perform _ event)

/-- Beginning a load where the grid is supersedes all that were begun before. -/
theorem reload (hbegun : token.generation ≤ grid.generation) :
    Superseded token grid.reload.1 where
  begun := Nat.le_succ_of_le hbegun
  unawaited := by
    intro hsame
    obtain rfl := Option.some.inj hsame
    exact absurd hbegun (Nat.not_succ_le_self _)

end Superseded

end Grid

namespace Office

variable {σ : Type}

/-! ## Loads in a history -/

/-- The load whose outcome an entry takes. -/
def Entry.taken? (entry : Entry σ) : Option LoadToken :=
  match entry.report? with
  | some (.loaded token result) =>
    if (entry.before.desk.grid.finishLoad token result).2 = .accepted then some token else none
  | _ => none

/-- The loads begun in a history, with the one that the office begins with; the latest first. -/
def begun (target : Section) (past : List (Entry σ)) : List LoadToken :=
  Grid.issued (Grid.history (.new target) (onGrid past ++ [.switchTo target]))

/-- Only the outcome of the load under way is taken. -/
theorem loading_of_taken? {entry : Entry σ} {token : LoadToken} (h : entry.taken? = some token) :
    entry.before.desk.grid.loading = some token := by
  unfold Entry.taken? at h
  split at h
  · rename_i token' result _
    split at h
    · rename_i haccepted
      obtain rfl := Option.some.inj h
      exact (Grid.finishLoad_accepted_iff _ token' result).1
        (congrArg Grid.Response.received haccepted)
    · cases h
  · cases h

section Runs

variable (node : Node σ) (target : Section) (world : World σ) (past : List Event)

/-- The grid of an office has come to its section by a move. -/
theorem grid_after_opened : (after node (opened target world) past).desk.grid =
    Grid.after (.new target)
      (onGrid (history node (opened target world) past) ++ [.switchTo target]) := by
  rw [grid_after, Grid.after_append]
  rfl

/-- No load that was begun is ahead of the grid. -/
theorem generation_le_of_mem_begun {token : LoadToken}
    (h : token ∈ begun target (history node (opened target world) past)) :
    token.generation ≤ (after node (opened target world) past).desk.grid.generation := by
  rw [grid_after_opened]
  exact (Grid.awaiting_history target _).issued_le token h

/-- A load that is under way is of the section that shows. -/
theorem target_of_loading {token : LoadToken}
    (h : (after node (opened target world) past).desk.grid.loading = some token) :
    token.target = (after node (opened target world) past).desk.grid.current := by
  rw [grid_after_opened] at h ⊢
  rw [((Grid.Consistent.new target).after _).loading token h]

end Runs

/-- The end of a batch as the grid sees it: the section that the batch was begun from is listed
again if it shows, else nothing happens. -/
theorem grid_batchFinished (node : Node σ) {office : Office σ} {today : Date} {place : Nat}
    {action : Action} {origin : Section} {results : BatchResults}
    (hreport : (⟨office, .advance today place⟩ : Entry σ).report? =
      some (.batchFinished action origin results)) :
    (office.perform node (.advance today place)).desk.grid =
      if office.desk.grid.current = origin then office.desk.grid.clearSelection.reload.1
      else office.desk.grid := by
  rw [grid_perform]
  unfold Entry.onGrid
  rw [hreport]
  show Grid.after office.desk.grid (if office.desk.grid.current = origin then _ else _) = _
  split <;> rfl

/-- A load from before the end of a batch is only taken after it if it was under way then, with a
section on display that the batch was not begun from. -/
theorem shown_ne_of_taken? (node : Node σ) (target : Section) (world : World σ)
    {early late : List Event} {today : Date} {place : Nat} {action : Action} {origin : Section}
    {results : BatchResults}
    (hreport : (⟨after node (opened target world) early, .advance today place⟩ : Entry σ).report? =
      some (.batchFinished action origin results)) {entry : Entry σ}
    (hentry : entry ∈
      history node (after node (opened target world) (.advance today place :: early)) late)
    {token : LoadToken} (hload : token ∈ begun target (history node (opened target world) early))
    (htaken : entry.taken? = some token) :
    (after node (opened target world) early).desk.grid.current ≠ origin ∧
      (after node (opened target world) early).desk.grid.loading = some token := by
  have hbegun := generation_le_of_mem_begun node target world early hload
  obtain ⟨before, hbefore⟩ := exists_before_of_mem_history hentry
  have hloading := loading_of_taken? htaken
  rw [hbefore, grid_after] at hloading
  -- A load that was superseded by the end of the batch would not be taken.
  have hawaited : ¬ Grid.Superseded token
      (after node (opened target world) (.advance today place :: early)).desk.grid :=
    fun hsuperseded => (hsuperseded.after _).unawaited hloading
  rw [after, grid_batchFinished node hreport] at hawaited
  by_cases hshown : (after node (opened target world) early).desk.grid.current = origin
  · rw [if_pos hshown] at hawaited
    exact absurd (.reload hbegun) hawaited
  · rw [if_neg hshown] at hawaited
    refine ⟨hshown, ?_⟩
    by_contra hunawaited
    exact hawaited ⟨hbegun, hunawaited⟩

/-- What comes of the listings of a section once the end of a batch that has changed it is handed
in: the office before and after that, the action and where it was begun, the loads begun before, and
what is done from then on. -/
structure Relisted (office office' : Office σ) (action : Action) (origin changed : Section)
    (loads : List LoadToken) (late : List (Entry σ)) : Prop where
  /-- An outcome of a load from before is only taken if files were hosted or shared from another
  section, and the section that was changed shows and is being listed at the time. -/
  outdated : ∀ entry ∈ late, ∀ token ∈ loads, token.target = changed → entry.taken? = some token →
    action ≠ .delete ∧ origin ≠ changed ∧ office.desk.grid.current = changed ∧
      office.desk.grid.loading = some token
  /-- Where the batch was begun from the section that it has changed, this is listed anew if it
  shows. -/
  anew : office.desk.grid.current = changed → origin = changed →
    ∃ token, token.target = changed ∧ token ∉ loads ∧ office'.desk.grid.loading = some token ∧
      .started (.load token) ∈ office'.underway
  /-- Where it was begun from another section, the one that shows is left as it is. -/
  elsewhere : office.desk.grid.current = changed → origin ≠ changed →
    office'.desk.grid = office.desk.grid

/-- In every run, when the end of a batch that has changed a section is handed in, no listing of the
section from before is taken any more, and if the section shows, it is listed anew; with the one
exception of a section that shows although the batch was begun from another one: it is not listed
anew, and a listing of it that is under way is still taken. -/
theorem relisted_where_begun (node : Node σ) (target : Section) (world : World σ)
    (early late : List Event) (today : Date) (place : Nat) (action : Action)
    (origin changed : Section) (results : BatchResults)
    (hreport : (⟨after node (opened target world) early, .advance today place⟩ : Entry σ).report? =
      some (.batchFinished action origin results))
    (hchanged : action.changed? origin = some changed) :
    Relisted (after node (opened target world) early)
      (after node (opened target world) (.advance today place :: early)) action origin changed
      (begun target (history node (opened target world) early))
      (history node (after node (opened target world) (.advance today place :: early)) late) := by
  have hgrid := grid_batchFinished node hreport
  constructor
  · intro entry hentry token hload htarget htaken
    obtain ⟨hshown, hunderway⟩ := shown_ne_of_taken? node target world hreport hentry hload htaken
    -- What is under way is of the section that shows.
    have hcurrent := (target_of_loading node target world early hunderway).symm.trans htarget
    have horigin : origin ≠ changed := fun hsame => hshown (hcurrent.trans hsame.symm)
    refine ⟨?_, horigin, hcurrent, hunderway⟩
    rintro rfl
    exact horigin (Option.some.inj hchanged)
  · intro hcurrent horigin
    have hshown := hcurrent.trans horigin.symm
    rw [if_pos hshown] at hgrid
    refine ⟨_, hcurrent, ?_, congrArg Grid.loading hgrid, ?_⟩
    · intro hload
      exact absurd (generation_le_of_mem_begun node target world early hload)
        (Nat.not_succ_le_self _)
    · apply started_mem_underway_perform
      unfold Entry.stepped
      dsimp only
      rw [hreport]
      show _ ∈ (Desk.batchFinished _ action origin results).2
      unfold Desk.batchFinished
      rw [if_neg (not_not_intro hshown)]
      exact List.mem_singleton_self _
  · intro hcurrent horigin
    have hshown : (after node (opened target world) early).desk.grid.current ≠ origin :=
      fun hsame => horigin (hsame.symm.trans hcurrent)
    rw [if_neg hshown] at hgrid
    exact hgrid

/-- A node with one file, which it lists everywhere but among the hosted ones until it is hosted. -/
def hosting : Node Bool := fun call hosted => match call with
  | .list .hosting => (.ok (if hosted then [.bare "a1" "song.mp3"] else []), hosted)
  | .list _ => (.ok [.bare "a1" "song.mp3"], hosted)
  | .add _ _ => (.ok none, true)
  | .delete _ _ => (.ok none, false)
  | .findProviders _ | .requestMetadata _ _ | .download _ _ _ | .wallet =>
    (.error (.transport "refused"), hosted)

/-- The hosted file is deleted where it is listed; the end of the batch is still to be handed in. -/
def deletedHere : List Event :=
  [.advance default 0, .advance default 0, .advance default 0, .command default .confirmBatch,
    .command default (.requestBatch .delete none), .command default (.toggleRow "a1"),
    .advance default 0, .advance default 0]

theorem deleted_file_relisted :
    (⟨after hosting (opened .hosting ⟨true, .absent ""⟩) deletedHere, .advance default 0⟩ :
        Entry Bool).report? = some (.batchFinished .delete .hosting [("a1", .ok none)]) ∧
      ∃ token : LoadToken, token.target = .hosting ∧
        token ∉ begun .hosting (history hosting (opened .hosting ⟨true, .absent ""⟩) deletedHere) ∧
        (after hosting (opened .hosting ⟨true, .absent ""⟩)
          (.advance default 0 :: deletedHere)).desk.grid.loading = some token := by
  have hreport : (⟨after hosting (opened .hosting ⟨true, .absent ""⟩) deletedHere,
      .advance default 0⟩ : Entry Bool).report? =
        some (.batchFinished .delete .hosting [("a1", .ok none)]) := rfl
  have h := relisted_where_begun hosting .hosting ⟨true, .absent ""⟩ deletedHere [] default 0
    .delete .hosting .hosting _ hreport rfl
  obtain ⟨token, htarget, hnew, hloading, -⟩ := h.anew (by decide +kernel) rfl
  exact ⟨hreport, token, htarget, hnew, hloading⟩

/-- The stored file is to be hosted. Before the call is made the user moves to the hosted files, and
these are listed; what is still to be handed in is the end of the batch, and then the listing. -/
def hostedElsewhere : List Event :=
  [.advance default 0, .advance default 0, .advance default 0, .advance default 1,
    .command default (.showSection .hosting), .command default .confirmBatch,
    .command default (.requestBatch .host (some "7")), .command default (.toggleRow "a1"),
    .advance default 0, .advance default 0]

/-- The listing that was begun before the end of the batch is taken after it. Handed in before, it
leaves no load under way after the end of the batch, although the hosted files show; nothing is left
to be done, and the file that is hosted by now does not show. -/
theorem hosted_file_not_listed :
    let start := opened .storing ⟨false, .absent ""⟩
    let office := after hosting start hostedElsewhere
    let finished := after hosting start (.advance default 0 :: hostedElsewhere)
    let listed := after hosting start (.advance default 1 :: hostedElsewhere)
    let done := after hosting start (.advance default 0 :: .advance default 1 :: hostedElsewhere)
    (⟨office, .advance default 0⟩ : Entry Bool).report? matches
        some (.batchFinished .host .storing _) ∧
      ⟨.hosting, 2⟩ ∈ begun .storing (history hosting start hostedElsewhere) ∧
      (⟨finished, .advance default 0⟩ : Entry Bool).taken? = some ⟨.hosting, 2⟩ ∧
      (⟨listed, .advance default 0⟩ : Entry Bool).report? matches
        some (.batchFinished .host .storing _) ∧
      listed.desk.grid.current = .hosting ∧ done.desk.grid.isLoading = false ∧
      done.underway.length = 0 ∧ done.world.server = true ∧ done.desk.grid.records.length = 0 := by
  intro start office finished listed done
  refine ⟨?_, ?_, ?_, ?_, ?_, ?_, ?_, ?_, ?_⟩
  all_goals decide +kernel

end Office

end FileMarket
