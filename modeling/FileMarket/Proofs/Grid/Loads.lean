import FileMarket.Proofs.Grid.Consistency

/-!
# Loads of a grid

Which outcomes of loads a grid takes, and which rows it shows. The load that is waited for is the
last one begun, for as long as no outcome was taken and no row was added since (`Awaiting`). So the
records are those of the listing taken last since the grid moved to its section, with the rows added
since then put in by hash (`Sourced`). `loads_in_order` puts this together.
-/

set_option autoImplicit false

namespace FileMarket.Grid

/-! ## What a history shows -/

/-- The token of the load that an entry begins. -/
def Entry.issued? : Entry → Option LoadToken
  | ⟨_, .issued token⟩ => some token
  | _ => none

/-- Whether an entry ends the wait for a load: an outcome is taken, or a row is added that a load
under way does not know. -/
def Entry.settles : Entry → Bool
  | ⟨.finishLoad _ _, .received .accepted⟩ => true
  | ⟨.append _, .done⟩ => true
  | _ => false

/-- The tokens issued, the latest first. -/
def issued (past : List Entry) : List LoadToken := past.filterMap Entry.issued?

/-- The entries since a token was last issued. -/
def sinceIssue (past : List Entry) : List Entry := past.takeWhile fun entry => entry.issued?.isNone

/-- The records with one put in the place of the first with its hash, or else at the end. -/
def place (record : FileRecord) (records : List FileRecord) : List FileRecord :=
  match records.findIdx? fun r => r.hash = record.hash with
  | some i => records.set i record
  | none => records ++ [record]

/-- The records that a history leads to: none after a move, those of a listing that is taken, and a
row that is added is put in its place. -/
def shown : List Entry → List FileRecord
  | [] => []
  | ⟨.switchTo _, .issued _⟩ :: _ => []
  | ⟨.finishLoad _ (.ok records), .received .accepted⟩ :: _ => records
  | ⟨.append record, .done⟩ :: past => place record (shown past)
  | _ :: past => shown past

/-- The token of the listing that shows, if any was taken since the last move. -/
def source? : List Entry → Option LoadToken
  | [] => none
  | ⟨.switchTo _, .issued _⟩ :: _ => none
  | ⟨.finishLoad token (.ok _), .received .accepted⟩ :: _ => some token
  | _ :: past => source? past

/-- Adding a row puts it in its place. -/
theorem upsert_eq_place (record : FileRecord) (records : List FileRecord) :
    upsert record records = place record records := by
  induction records with
  | nil => rfl
  | cons r rest ih =>
    unfold upsert place
    by_cases hhash : r.hash = record.hash
    · rw [if_pos hhash, List.findIdx?_cons, if_pos (decide_eq_true hhash)]
      rfl
    · rw [if_neg hhash, ih, List.findIdx?_cons, if_neg (by simpa using hhash)]
      unfold place
      cases rest.findIdx? fun r => r.hash = record.hash with
      | none => rfl
      | some i => rfl

/-! ## Which outcomes are taken -/

/-- Every rule begins the next load, or leaves no load to wait for but one waited for before. -/
theorem Transition.loads {grid grid' : Grid} {event : Event} {response : Response}
    (h : Transition grid event response grid') :
    (∃ token, Entry.issued? ⟨event, response⟩ = some token ∧
      token.generation = grid.generation + 1 ∧ grid'.generation = grid.generation + 1 ∧
      grid'.loading = some token) ∨
    Entry.issued? ⟨event, response⟩ = none ∧ grid.generation ≤ grid'.generation ∧
      ∀ token, grid'.loading = some token → grid.loading = some token := by
  cases h with
  | switchTo target => exact .inl ⟨_, rfl, rfl, rfl, rfl⟩
  | refresh idle => exact .inl ⟨_, rfl, rfl, rfl, rfl⟩
  | reload => exact .inl ⟨_, rfl, rfl, rfl, rfl⟩
  | loaded | loadFailed =>
    exact .inr ⟨rfl, Nat.le_refl _, fun token hloading => by cases hloading⟩
  | append record => exact .inr ⟨rfl, Nat.le_succ _, fun token hloading => by cases hloading⟩
  | withheld | stale | setFilter | clearFilters | setSort | clickColumn | toggleRow | toggleAll
  | clearSelection | clearError | prepared | shown | targeted | refused =>
    exact .inr ⟨rfl, Nat.le_refl _, fun token hloading => hloading⟩

/-- What the tokens issued so far have to do with the grid. -/
structure Awaiting (grid : Grid) (past : List Entry) : Prop where
  loading_iff : ∀ token, grid.loading = some token ↔
    past.findSome? Entry.issued? = some token ∧ ∀ entry ∈ sinceIssue past, entry.settles = false
  /-- No token is ahead of the counter that the next one is made from. -/
  issued_le : ∀ token ∈ issued past, token.generation ≤ grid.generation
  increasing : (issued past).Pairwise fun late early => early.generation < late.generation

namespace Awaiting

variable {grid grid' : Grid} {past : List Entry} {entry : Entry}

/-- An entry that begins a load. -/
theorem issue (h : Awaiting grid past) {token : LoadToken} (hissued : entry.issued? = some token)
    (hnext : token.generation = grid.generation + 1)
    (hgeneration : grid'.generation = grid.generation + 1) (hloading : grid'.loading = some token) :
    Awaiting grid' (entry :: past) where
  loading_iff token' := by
    -- Nothing has happened since the token was issued.
    have hsince : sinceIssue (entry :: past) = [] := by
      simp [sinceIssue, hissued]
    rw [hloading, hsince, List.findSome?_cons, hissued]
    constructor
    · intro heq
      exact ⟨heq, fun _ hmem => by cases hmem⟩
    · exact fun h => h.1
  issued_le token' hmem := by
    rw [issued, List.filterMap_cons_some hissued] at hmem
    rcases List.mem_cons.1 hmem with rfl | hmem
    · omega
    · have hle := h.issued_le token' hmem
      omega
  increasing := by
    rw [issued, List.filterMap_cons_some hissued]
    refine List.pairwise_cons.2 ⟨fun early hmem => ?_, h.increasing⟩
    have hle := h.issued_le early hmem
    omega

/-- An entry that begins no load leaves the tokens issued as they are. -/
theorem unissued (h : Awaiting grid past) (hissued : entry.issued? = none)
    (hgeneration : grid.generation ≤ grid'.generation)
    (hloading : ∀ token, grid'.loading = some token ↔
      grid.loading = some token ∧ entry.settles = false) :
    Awaiting grid' (entry :: past) where
  loading_iff token := by
    have hsince : sinceIssue (entry :: past) = entry :: sinceIssue past := by
      simp [sinceIssue, hissued]
    rw [hloading, h.loading_iff, hsince, List.findSome?_cons, hissued, List.forall_mem_cons]
    constructor
    · rintro ⟨⟨hlast, hrest⟩, hentry⟩
      exact ⟨hlast, hentry, hrest⟩
    · rintro ⟨hlast, hentry, hrest⟩
      exact ⟨⟨hlast, hrest⟩, hentry⟩
  issued_le token hmem := by
    rw [issued, List.filterMap_cons_none hissued] at hmem
    exact (h.issued_le token hmem).trans hgeneration
  increasing := by
    rw [issued, List.filterMap_cons_none hissued]
    exact h.increasing

/-- An entry that touches no load. -/
theorem keep (h : Awaiting grid past) (hissued : entry.issued? = none)
    (hsettles : entry.settles = false) (hgeneration : grid'.generation = grid.generation)
    (hloading : grid'.loading = grid.loading) : Awaiting grid' (entry :: past) := by
  refine h.unissued hissued hgeneration.ge fun token => ?_
  rw [hloading, hsettles]
  exact (and_iff_left rfl).symm

/-- An entry after which no load is waited for. -/
theorem settle (h : Awaiting grid past) (hissued : entry.issued? = none)
    (hsettles : entry.settles = true) (hgeneration : grid.generation ≤ grid'.generation)
    (hloading : grid'.loading = none) : Awaiting grid' (entry :: past) := by
  refine h.unissued hissued hgeneration fun token => ?_
  rw [hloading, hsettles]
  constructor
  · intro heq
    cases heq
  · rintro ⟨-, heq⟩
    cases heq

/-- Every rule keeps what tokens have to do with the grid. -/
theorem transition {event : Event} {response : Response} (h : Awaiting grid past)
    (hn : Transition grid event response grid') : Awaiting grid' (⟨event, response⟩ :: past) := by
  cases hn with
  | switchTo target => exact h.issue rfl rfl rfl rfl
  | refresh idle => exact h.issue rfl rfl rfl rfl
  | reload => exact h.issue rfl rfl rfl rfl
  | loaded token records awaited => exact h.settle rfl rfl (Nat.le_refl _) rfl
  | loadFailed token error awaited => exact h.settle rfl rfl (Nat.le_refl _) rfl
  | append record => exact h.settle rfl rfl (Nat.le_succ _) rfl
  | refused event error =>
    refine h.keep rfl ?_ rfl rfl
    cases event <;> rfl
  | withheld | stale | setFilter | clearFilters | setSort | clickColumn | toggleRow | toggleAll
  | clearSelection | clearError | prepared | shown | targeted =>
    exact h.keep rfl rfl rfl rfl

end Awaiting

/-! ## Where the records come from -/

/-- A listing with a token was taken, of the load begun last at that time. -/
def Taken (past : List Entry) (token : LoadToken) : Prop :=
  ∃ late records early,
    past = late ++ ⟨.finishLoad token (.ok records), .received .accepted⟩ :: early ∧
      early.findSome? Entry.issued? = some token

theorem Taken.cons {past : List Entry} {token : LoadToken} (h : Taken past token) (entry : Entry) :
    Taken (entry :: past) token := by
  obtain ⟨late, records, early, rfl, hlast⟩ := h
  exact ⟨entry :: late, records, early, rfl, hlast⟩

/-- The records are those that the history leads to, from a listing of the section shown. -/
structure Sourced (grid : Grid) (past : List Entry) : Prop where
  records : grid.records = shown past
  source : ∀ token, source? past = some token → token.target = grid.current ∧ Taken past token

namespace Sourced

variable {grid grid' : Grid} {past : List Entry} {entry : Entry}

/-- An entry that takes no listing and is no move. -/
theorem keep (h : Sourced grid past) (hrecords : grid'.records = shown (entry :: past))
    (hsource : source? (entry :: past) = source? past) (hcurrent : grid'.current = grid.current) :
    Sourced grid' (entry :: past) where
  records := hrecords
  source := by
    intro token htoken
    rw [hsource] at htoken
    obtain ⟨htarget, htaken⟩ := h.source token htoken
    exact ⟨htarget.trans hcurrent.symm, htaken.cons entry⟩

/-- Every rule keeps the records sourced; a listing that is taken is one of the section, for the
load waited for is. -/
theorem transition {event : Event} {response : Response} (h : Sourced grid past)
    (hconsistent : Consistent grid) (hawaiting : Awaiting grid past)
    (hn : Transition grid event response grid') : Sourced grid' (⟨event, response⟩ :: past) := by
  cases hn with
  | switchTo target =>
    refine ⟨rfl, ?_⟩
    intro token hsource
    cases hsource
  | loaded token records awaited =>
    refine ⟨rfl, ?_⟩
    intro token' hsource
    obtain rfl := Option.some.inj hsource
    refine ⟨by rw [hconsistent.loading token awaited], [], records, past, rfl, ?_⟩
    exact ((hawaiting.loading_iff token).1 awaited).1
  | append record =>
    refine h.keep ?_ rfl rfl
    show upsert record grid.records = place record (shown past)
    rw [upsert_eq_place, h.records]
  | stale token result unawaited =>
    cases result with
    | ok records => exact h.keep h.records rfl rfl
    | error error => exact h.keep h.records rfl rfl
  | refused event error =>
    rcases event with _ | _ | _ | ⟨token, _ | _⟩ | _ | _ | _ | _ | _ | _ | _ | _ | _ | _ | _ | _ <;>
      exact h.keep h.records rfl rfl
  | refresh | withheld | reload | loadFailed | setFilter | clearFilters | setSort | clickColumn
  | toggleRow | toggleAll | clearSelection | clearError | prepared | shown | targeted =>
    exact h.keep h.records rfl rfl

end Sourced

/-! ## All runs -/

theorem awaiting_history (target : Section) (past : List Event) :
    Awaiting (after (new target) past) (history (new target) past) := by
  induction past with
  | nil =>
    refine ⟨fun token => ?_, fun token hmem => (by cases hmem), List.Pairwise.nil⟩
    constructor
    · intro hloading
      cases hloading
    · rintro ⟨hlast, -⟩
      cases hlast
  | cons event past ih => exact ih.transition (transition_perform _ event)

theorem sourced_history (target : Section) (past : List Event) :
    Sourced (after (new target) past) (history (new target) past) := by
  induction past with
  | nil => exact ⟨rfl, fun token hsource => by cases hsource⟩
  | cons event past ih =>
    exact ih.transition ((Consistent.new target).after past) (awaiting_history target past)
      (transition_perform _ event)

/-- An outcome is taken exactly if its load is the one under way. -/
theorem finishLoad_accepted_iff (grid : Grid) (token : LoadToken)
    (result : Outcome (List FileRecord)) :
    (grid.perform (.finishLoad token result)).2 = .received .accepted ↔
      grid.loading = some token := by
  have hrule := transition_finishLoad grid token result
  show Response.received (grid.finishLoad token result).2 = .received .accepted ↔ _
  generalize grid.finishLoad token result = step at hrule ⊢
  obtain ⟨grid', reception⟩ := step
  cases hrule with
  | loaded _ records awaited => exact ⟨fun _ => awaited, fun _ => rfl⟩
  | loadFailed _ error awaited => exact ⟨fun _ => awaited, fun _ => rfl⟩
  | stale _ _ unawaited =>
    constructor
    · intro heq
      cases heq
    · intro awaited
      exact absurd awaited unawaited

/-- In every run of a grid, the outcome of a load is taken if and only if its token is the last one
issued, and since then no outcome was taken and no row was added; otherwise it is stale and changes
nothing. Tokens are issued with strictly increasing numbers. The records are those that the history
leads to: none after a move to a section, then the listings taken, and the rows added since, put in
by hash. The listing that shows was requested for the section shown, and no other load had begun
when it was taken. -/
theorem loads_in_order (target : Section) (past : List Event) :
    (∀ (token : LoadToken) (result : Outcome (List FileRecord)),
      (response (new target) past (.finishLoad token result) = .received .accepted ↔
        (history (new target) past).findSome? Entry.issued? = some token ∧
          ∀ entry ∈ sinceIssue (history (new target) past), entry.settles = false) ∧
      (response (new target) past (.finishLoad token result) ≠ .received .accepted →
        response (new target) past (.finishLoad token result) = .received .stale ∧
          after (new target) (.finishLoad token result :: past) = after (new target) past)) ∧
    (issued (history (new target) past)).Pairwise
      (fun late early => early.generation < late.generation) ∧
    (after (new target) past).records = shown (history (new target) past) ∧
    ∀ token, source? (history (new target) past) = some token →
      token.target = (after (new target) past).current ∧
        Taken (history (new target) past) token := by
  have hawaiting := awaiting_history target past
  have hsourced := sourced_history target past
  refine ⟨fun token result => ⟨?_, fun hrejected => ?_⟩, hawaiting.increasing, hsourced.records,
    hsourced.source⟩
  · exact (finishLoad_accepted_iff _ token result).trans (hawaiting.loading_iff token)
  · have hunawaited : (after (new target) past).loading ≠ some token := fun awaited =>
      hrejected ((finishLoad_accepted_iff _ token result).2 awaited)
    have hstale : (after (new target) past).finishLoad token result =
        (after (new target) past, .stale) := if_pos hunawaited
    constructor
    · show Response.received ((after (new target) past).finishLoad token result).2 = _
      rw [hstale]
    · show ((after (new target) past).finishLoad token result).1 = _
      rw [hstale]

end FileMarket.Grid
