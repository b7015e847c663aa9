import FileMarket.Desk.Drive
import Mathlib.Tactic

/-!
# The office

The office is the desk with the jobs that it has started, each as far as it has come, and the world
that they act on. Two kinds of events make up a run: the user gives a command, or one of the jobs
takes its next step. Jobs take turns in any order. A batch makes one call a step, so everything else
can come between its calls, and so it is with the steps of a save; a job that has ended waits at its
place until its report is handed in.

`Step node office event office'` lists what can come of an event (`step_perform`). Driving the desk
until nothing is left is one of the runs (`Reaches.drive`).
-/

set_option autoImplicit false

namespace FileMarket

/-! ## Jobs under way -/

/-- How far a job has come. -/
inductive JobState where
  /-- It has made no call yet. -/
  | started (job : Job)
  /-- A batch: what its records were answered with so far, and the records that are left. -/
  | sending (action : Action) (origin : Section) (results : BatchResults) (left : List FileRecord)
  /-- Its payload is still to be saved. -/
  | arrived (arrival : Arrival)
  /-- Its report is still to be handed in. -/
  | ended (report : Report)

/-- A job that has made all its calls. -/
def Progress.state : Progress → JobState
  | .ended report => .ended report
  | .arrived arrival => .arrived arrival

/-- The desk, the jobs under way, and the world. -/
structure Office (σ : Type) where
  desk : Desk
  underway : List JobState
  world : World σ

variable {σ : Type} (node : Node σ)

/-- The first step of a job. A batch makes its calls one by one, any other job makes its only
call. -/
def Job.begin (job : Job) (server : σ) : JobState × σ :=
  match job with
  | .batch action origin records => (.sending action origin [] records, server)
  | .load _ | .request _ => ((job.call node server).1.state, (job.call node server).2)

/-- The next step of a job. -/
def JobState.advance (today : Date) (world : World σ) : JobState → JobState × World σ
  | .started job =>
    let (state, server) := job.begin node world.server
    (state, { world with server := server })
  | .sending action origin results [] => (.ended (.batchFinished action origin results), world)
  | .sending action origin results (record :: left) =>
    let (result, server) := mutate node action origin record world.server
    (.sending action origin (results ++ [(record.hash, result)]) left,
      { world with server := server })
  | .arrived arrival =>
    let (progress, directory) := arrival.step today world.directory
    (progress.state, { world with directory := directory })
  | .ended report => (.ended report, world)

/-- The report of a job that has ended. -/
def JobState.report? : JobState → Option Report
  | .ended report => some report
  | _ => none

theorem JobState.report?_eq_some_iff {state : JobState} {report : Report} :
    state.report? = some report ↔ state = .ended report := by
  cases state <;> simp [report?]

namespace Office

/-! ## Runs -/

/-- What can happen in an office: the user gives a command, or the job at a place goes on. -/
inductive Event where
  | command (today : Date) (command : Command)
  | advance (today : Date) (place : Nat)

/-- The office that begins with a section. -/
def opened (target : Section) (world : World σ) : Office σ where
  desk := (Desk.opened target).1
  underway := (Desk.opened target).2.map .started
  world := world

/-- The office after an event. -/
def perform (office : Office σ) : Event → Office σ
  | .command today command =>
    let (desk, jobs) := office.desk.handle today command
    { office with desk := desk, underway := office.underway ++ jobs.map .started }
  | .advance today place => match office.underway[place]? with
    | none => office
    | some state => match state.report? with
      | some report =>
        let (desk, jobs) := office.desk.receive report
        { office with
          desk := desk
          underway := office.underway.eraseIdx place ++ jobs.map .started }
      | none =>
        let (state, world) := state.advance node today office.world
        { office with underway := office.underway.set place state, world := world }

/-- The office after a run of events, the latest event first. -/
def after (office : Office σ) : List Event → Office σ
  | [] => office
  | event :: past => (after office past).perform node event

/-- An event and the office that it found. -/
structure Entry (σ : Type) where
  before : Office σ
  event : Event

/-- The record of a run, the latest entry first. -/
def history (office : Office σ) : List Event → List (Entry σ)
  | [] => []
  | event :: past => ⟨after node office past, event⟩ :: history office past

theorem after_append (office : Office σ) (late early : List Event) :
    after node office (late ++ early) = after node (after node office early) late := by
  induction late with
  | nil => rfl
  | cons event late ih => simp only [List.cons_append, after, ih]

/-! ## The rules -/

section Places

variable {node} {office : Office σ} {early late : List JobState}

theorem getElem?_underway {state : JobState} (found : office.underway = early ++ state :: late) :
    office.underway[early.length]? = some state := by
  rw [found, List.getElem?_append_right (Nat.le_refl _), Nat.sub_self]
  rfl

/-- What stands at a place stands between what comes before and behind it. -/
theorem exists_append_of_getElem? {place : Nat} {state : JobState}
    (h : office.underway[place]? = some state) :
    ∃ early late, office.underway = early ++ state :: late ∧ early.length = place := by
  obtain ⟨hlt, hstate⟩ := List.getElem?_eq_some_iff.1 h
  refine ⟨office.underway.take place, office.underway.drop (place + 1), ?_, ?_⟩
  · rw [← hstate, List.getElem_cons_drop, List.take_append_drop]
  · rw [List.length_take]
    omega

theorem perform_advance {state : JobState} (today : Date)
    (found : office.underway = early ++ state :: late) (running : state.report? = none) :
    office.perform node (.advance today early.length) =
      { office with
        underway := early ++ (state.advance node today office.world).1 :: late
        world := (state.advance node today office.world).2 } := by
  simp only [perform, getElem?_underway found, running]
  rw [found, List.set_append_right _ _ (Nat.le_refl _), Nat.sub_self]
  rfl

theorem perform_report {report : Report} (today : Date)
    (found : office.underway = early ++ .ended report :: late) :
    office.perform node (.advance today early.length) =
      { office with
        desk := (office.desk.receive report).1
        underway := early ++ late ++ (office.desk.receive report).2.map .started } := by
  simp only [perform, getElem?_underway found, JobState.report?]
  rw [found, List.eraseIdx_append_of_length_le (Nat.le_refl _), Nat.sub_self]
  rfl

end Places

/-- What can come of an event. -/
inductive Step (office : Office σ) : Event → Office σ → Prop
  | command (today : Date) (command : Command) :
      Step office (.command today command)
        { office with
          desk := (office.desk.handle today command).1
          underway := office.underway ++ (office.desk.handle today command).2.map .started }
  -- A job goes on, or hands in its report, or there is none at the place.
  | advance (today : Date) (early late : List JobState) (state : JobState)
      (found : office.underway = early ++ state :: late) :
      Step office (.advance today early.length)
        { office with
          underway := early ++ (state.advance node today office.world).1 :: late
          world := (state.advance node today office.world).2 }
  | report (today : Date) (early late : List JobState) (report : Report)
      (found : office.underway = early ++ .ended report :: late) :
      Step office (.advance today early.length)
        { office with
          desk := (office.desk.receive report).1
          underway := early ++ late ++ (office.desk.receive report).2.map .started }
  | nothing (today : Date) (place : Nat) : Step office (.advance today place) office

/-- Every event follows a rule. -/
theorem step_perform (office : Office σ) (event : Event) :
    Step node office event (office.perform node event) := by
  cases event with
  | command today command => exact .command today command
  | advance today place =>
    cases hplace : office.underway[place]? with
    | none =>
      have hperform : office.perform node (.advance today place) = office := by
        simp only [perform, hplace]
      rw [hperform]
      exact .nothing today place
    | some state =>
      obtain ⟨early, late, found, rfl⟩ := exists_append_of_getElem? hplace
      cases hreport : state.report? with
      | none =>
        rw [perform_advance today found hreport]
        exact .advance today _ _ state found
      | some report =>
        rw [JobState.report?_eq_some_iff.1 hreport] at found
        rw [perform_report today found]
        exact .report today _ _ report found

/-! ## Driving the desk -/

/-- A run leads from one office to another. -/
def Reaches (office office' : Office σ) : Prop := ∃ run, after node office run = office'

namespace Reaches

variable {node} {office office' office'' : Office σ}

theorem refl (office : Office σ) : Reaches node office office := ⟨[], rfl⟩

theorem trans (h : Reaches node office office') (h' : Reaches node office' office'') :
    Reaches node office office'' := by
  obtain ⟨early, rfl⟩ := h
  obtain ⟨late, rfl⟩ := h'
  exact ⟨late ++ early, after_append node office late early⟩

variable (desk : Desk) (early late : List JobState) (world : World σ)

/-- A job that has not ended goes on. -/
theorem advance (today : Date) (state : JobState) (running : state.report? = none) :
    Reaches node ⟨desk, early ++ state :: late, world⟩
      ⟨desk, early ++ (state.advance node today world).1 :: late,
        (state.advance node today world).2⟩ :=
  ⟨[.advance today early.length], perform_advance today rfl running⟩

/-- A job that has ended hands in its report. -/
theorem report (today : Date) (report : Report) :
    Reaches node ⟨desk, early ++ .ended report :: late, world⟩
      ⟨(desk.receive report).1, early ++ late ++ (desk.receive report).2.map .started, world⟩ :=
  ⟨[.advance today early.length], perform_report today rfl⟩

/-- A batch goes on to its end. -/
theorem send (today : Date) (action : Action) (origin : Section) (left : List FileRecord)
    (results : BatchResults) :
    Reaches node ⟨desk, early ++ .sending action origin results left :: late, world⟩
      ⟨desk, early ++ .ended (.batchFinished action origin
          (results ++ (mutateAll node action origin left world.server).1)) :: late,
        { world with server := (mutateAll node action origin left world.server).2 }⟩ := by
  induction left generalizing results world with
  | nil =>
    have hend : Reaches node _ _ :=
      advance desk early late world today (.sending action origin results []) rfl
    simpa only [mutateAll, JobState.advance, List.append_nil] using hend
  | cons record left ih =>
    have hcall : Reaches node _ _ :=
      advance desk early late world today (.sending action origin results (record :: left)) rfl
    have hrest := ih { world with server := (mutate node action origin record world.server).2 }
      (results ++ [(record.hash, (mutate node action origin record world.server).1)])
    rw [List.append_assoc] at hrest
    exact hcall.trans hrest

/-- A job that was just started makes its calls. -/
theorem call (today : Date) (job : Job) :
    Reaches node ⟨desk, early ++ .started job :: late, world⟩
      ⟨desk, early ++ (job.call node world.server).1.state :: late,
        { world with server := (job.call node world.server).2 }⟩ := by
  have hbegin : Reaches node _ _ := advance desk early late world today (.started job) rfl
  cases job with
  | load token => exact hbegin
  | request request => exact hbegin
  | batch action origin records =>
    exact hbegin.trans (send desk early late world today action origin records [])

/-- A job under way has a place. -/
theorem exists_place {state : JobState} {underway rest : List JobState}
    (h : underway.Perm (state :: rest)) :
    ∃ early late, underway = early ++ state :: late ∧ (early ++ late).Perm rest := by
  obtain ⟨early, late, rfl⟩ := List.append_of_mem (h.mem_iff.2 List.mem_cons_self)
  exact ⟨early, late, rfl, (List.perm_middle.symm.trans h).cons_inv⟩

variable (node) in
/-- Driving the desk until nothing is left is a run. -/
theorem drive (today : Date) (jobs : List Job) (arrived : List Arrival)
    (underway : List JobState) (h : underway.Perm (jobs.map .started ++ arrived.map .arrived)) :
    Reaches node ⟨desk, underway, world⟩
      ⟨(desk.drive node today world jobs arrived).1, [],
        (desk.drive node today world jobs arrived).2⟩ := by
  fun_induction Desk.drive node today desk world jobs arrived generalizing underway with
  | case1 desk world =>
    rw [List.Perm.eq_nil h]
    exact refl _
  | case2 desk world arrival arrived report' directory hstep next ih =>
    obtain ⟨early, late, rfl, hrest⟩ := exists_place h
    have hsaved : Reaches node _ _ := advance desk early late world today (.arrived arrival) rfl
    simp only [JobState.advance, hstep] at hsaved
    refine hsaved.trans ((report desk early late _ today report').trans (ih _ ?_))
    exact (hrest.append_right _).trans List.perm_append_comm
  | case3 desk world arrival arrived arrival' directory hstep ih =>
    obtain ⟨early, late, rfl, hrest⟩ := exists_place h
    have hsaved : Reaches node _ _ := advance desk early late world today (.arrived arrival) rfl
    simp only [JobState.advance, hstep] at hsaved
    refine hsaved.trans (ih _ ?_)
    -- The payload goes to the end of the line.
    refine List.perm_middle.trans ((hrest.cons _).trans ?_)
    rw [List.map_append, List.map_singleton]
    exact (List.perm_append_singleton _ _).symm
  | case4 desk world job jobs arrived report' server hcall next ih =>
    rw [List.map_cons, List.cons_append] at h
    obtain ⟨early, late, rfl, hrest⟩ := exists_place h
    have hcalled : Reaches node _ _ := call desk early late world today job
    rw [hcall] at hcalled
    refine hcalled.trans ((report desk early late _ today report').trans (ih _ ?_))
    -- The jobs that the report starts come after those already waiting.
    rw [List.map_append, List.append_assoc (jobs.map _)]
    refine (hrest.append_right _).trans ?_
    rw [List.append_assoc]
    exact List.perm_append_comm.append_left _
  | case5 desk world job jobs arrived arrival server hcall ih =>
    rw [List.map_cons, List.cons_append] at h
    obtain ⟨early, late, rfl, hrest⟩ := exists_place h
    have hcalled : Reaches node _ _ := call desk early late world today job
    rw [hcall] at hcalled
    refine hcalled.trans (ih _ ?_)
    refine List.perm_middle.trans ((hrest.cons _).trans ?_)
    rw [List.map_append, List.map_singleton, ← List.append_assoc]
    exact (List.perm_append_singleton _ _).symm

end Reaches

end Office

end FileMarket
