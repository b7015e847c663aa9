import FileMarket.CommandLine.Tasks
import Mathlib.Tactic

/-!
# How the tasks of the command line begin

Every task that works on a section lists it first (`openDesk_run`), and what it does next at the
desk starts no job until something is sent to the node (`perform_run_of_idle`). The lemmas about
`Program` take a run apart at the point where one program follows another.
-/

set_option autoImplicit false

namespace FileMarket

/-- The desk that shows a listing of a section, with nothing done to it yet. -/
def Desk.listing (target : Section) (records : List FileRecord) : Desk where
  grid := { Grid.new target with records := records, generation := 1 }
  negotiation := .new
  pending := none
  batchRunning := false
  info := none
  status := Desk.fileCount records.length ++ " in " ++ target.label
  notices := []

/-- The first listing of a section is always waited for. -/
theorem Desk.opened_loaded (target : Section) (result : Outcome (List FileRecord)) :
    (opened target).1.loaded ⟨target, 1⟩ result = match result with
      | .ok records => listing target records
      | .error error => { listing target [] with
          grid := { Grid.new target with generation := 1, error := some error }
          status := "Failed to load " ++ target.label ++ ": " ++ error.message } := by
  have hawaited : (opened target).1.grid.loading = some ⟨target, 1⟩ := rfl
  unfold loaded Grid.finishLoad
  rw [if_neg (not_not_intro hawaited)]
  cases result <;> rfl

section Driving

variable {σ : Type} (node : Node σ) (today : Date) (desk : Desk) (world : World σ)

theorem Desk.drive_nil : desk.drive node today world [] [] = (desk, world) := by
  rw [Desk.drive]

/-- A job whose calls end it is carried out first. -/
theorem Desk.drive_of_ended {job : Job} {report : Report} {server : σ}
    (h : job.call node world.server = (.ended report, server)) (jobs : List Job)
    (arrived : List Arrival) :
    desk.drive node today world (job :: jobs) arrived =
      (desk.receive report).1.drive node today { world with server := server }
        (jobs ++ (desk.receive report).2) arrived := by
  rw [Desk.drive]
  split
  · rename_i report' server' hcalled
    obtain ⟨hreport, rfl⟩ := Prod.mk.inj (hcalled.symm.trans h)
    cases hreport
    rfl
  · rename_i arrival server' hcalled
    cases hcalled.symm.trans h

end Driving

namespace CommandLine

variable {σ α β : Type}

/-! ## Programs one after the other -/

theorem run_bind_of_ok {program : Program σ α} {next : α → Program σ β}
    {console console' : Console σ} {value : α} (h : program.run console = .ok value console') :
    (program >>= next).run console = (next value).run console' := by
  show EStateM.bind program next console = _
  unfold EStateM.bind
  rw [show program console = _ from h]
  rfl

theorem run_bind_of_error {program : Program σ α} {next : α → Program σ β}
    {console console' : Console σ} {fault : Fault}
    (h : program.run console = .error fault console') :
    (program >>= next).run console = .error fault console' := by
  show EStateM.bind program next console = _
  unfold EStateM.bind
  rw [show program console = _ from h]

theorem run_bind_congr {program program' : Program σ α} {console : Console σ}
    (h : program.run console = program'.run console) (next : α → Program σ β) :
    (program >>= next).run console = (program' >>= next).run console := by
  cases hrun : program'.run console with
  | ok value console' => rw [run_bind_of_ok (h.trans hrun), run_bind_of_ok hrun]
  | error fault console' => rw [run_bind_of_error (h.trans hrun), run_bind_of_error hrun]

theorem run_guard {c : Prop} [Decidable c] {fault : Fault} {next : Program σ α}
    {console : Console σ} :
    (do if c then throw fault
        next : Program σ α).run console =
      if c then .error fault console else next.run console := by
  split_ifs <;> rfl

/-- The world that a program leaves, whether it succeeds or fails. -/
def worldAfter (program : Program σ α) (console : Console σ) : World σ :=
  match program.run console with
  | .ok _ console | .error _ console => console.world

theorem worldAfter_of_ok {program : Program σ α} {console console' : Console σ} {value : α}
    (h : program.run console = .ok value console') :
    worldAfter program console = console'.world := by
  rw [worldAfter, h]

theorem worldAfter_of_error {program : Program σ α} {console console' : Console σ}
    {fault : Fault} (h : program.run console = .error fault console') :
    worldAfter program console = console'.world := by
  rw [worldAfter, h]

theorem worldAfter_bind {program : Program σ α} {next : α → Program σ β}
    {console console' : Console σ} {value : α} (h : program.run console = .ok value console') :
    worldAfter (program >>= next) console = worldAfter (next value) console' := by
  rw [worldAfter, worldAfter, run_bind_of_ok h]

theorem worldAfter_bind_of_error {program : Program σ α} {next : α → Program σ β}
    {console console' : Console σ} {fault : Fault}
    (h : program.run console = .error fault console') :
    worldAfter (program >>= next) console = console'.world :=
  worldAfter_of_error (run_bind_of_error h)

/-- A console on which a text has been printed. -/
def Console.printing (console : Console σ) (text : String) : Console σ :=
  { console with printed := console.printed ++ text }

/-- A console whose node is in another state. -/
def Console.withServer (console : Console σ) (server : σ) : Console σ :=
  { console with world := { console.world with server := server } }

namespace Client

variable (client : Client σ) (target : Section) (console : Console σ)

/-! ## The listing -/

/-- What the node answers when a section is listed. -/
def answerTo : Outcome (List FileRecord) := (client.node (.list target) console.world.server).1

/-- The console after a section was listed. -/
def listedConsole : Console σ :=
  console.withServer (client.node (.list target) console.world.server).2

/-- A desk is worked at if its section could be listed. -/
def checked (target : Section) (desk : Desk) : Program σ Desk :=
  match desk.grid.error with
  | some error => throw (.notLoaded target error)
  | none => return desk

/-- A task begins with one call, the listing of its section. If the call succeeds the desk shows the
listing, and otherwise the task fails. -/
theorem openDesk_run :
    (client.openDesk target).run console =
      match client.answerTo target console with
      | .ok records => .ok (.listing target records) (client.listedConsole target console)
      | .error error => .error (.notLoaded target error) (client.listedConsole target console) := by
  have hcall : (Job.load ⟨target, 1⟩).call client.node console.world.server =
      (.ended (.loaded ⟨target, 1⟩ (client.answerTo target console)),
        (client.node (.list target) console.world.server).2) := rfl
  have hdrive := (Desk.opened target).1.drive_of_ended client.node client.today console.world hcall
    [] []
  rw [Desk.receive, Desk.opened_loaded, List.append_nil, Desk.drive_nil] at hdrive
  let driven := (Desk.opened target).1.drive client.node client.today console.world
    [.load ⟨target, 1⟩] []
  have hrun : (client.openDesk target).run console =
      (checked target driven.1).run { console with world := driven.2 } := rfl
  rw [hrun, show driven = _ from hdrive]
  cases client.answerTo target console <;> rfl

/-- A command, carried out with all that follows from it. -/
theorem perform_run (desk : Desk) (command : Command) :
    (client.perform desk command).run console =
      .ok (desk.dispatch client.node client.today console.world command).1
        { console with
          world := (desk.dispatch client.node client.today console.world command).2 } :=
  rfl

/-- A command that starts no job changes the desk alone. -/
theorem perform_run_of_idle {desk desk' : Desk} {command : Command}
    (h : desk.handle client.today command = (desk', [])) :
    (client.perform desk command).run console = .ok desk' console := by
  have hdispatch : desk.dispatch client.node client.today console.world command =
      (desk', console.world) := by
    unfold Desk.dispatch
    rw [h]
    exact Desk.drive_nil client.node client.today desk' console.world
  rw [perform_run, hdispatch]

end Client

end CommandLine

end FileMarket
