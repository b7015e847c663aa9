import FileMarket.Desk.Report
import FileMarket.Storage.Save

/-!
# Running the desk

The jobs of the desk carried out against a node and a download directory. Jobs end in
the order in which they were started, except that payloads are saved only when no
other job is left. Several payloads are saved side by side: each in its turn takes one
step. Every job ends once, only a batch starts a further one, and every save comes to
its end, so a run comes to an end.
-/

namespace FileMarket

/-- What the jobs act on: the node's state and the download directory. -/
structure World (σ : Type) where
  server : σ
  directory : Directory

/-- A payload that has arrived, and how far it is saved. -/
structure Arrival where
  ticket : Ticket
  price : Binary64
  record : FileRecord
  payload : Payload
  saving : Save

namespace Arrival

/-- A payload whose save begins. -/
def start (ticket : Ticket) (price : Binary64) (record : FileRecord) (payload : Payload) :
    Arrival where
  ticket := ticket
  price := price
  record := record
  payload := payload
  saving := .start (payloadName payload.fileName record.name record.extension) payload.data

/-- The record of a purchase: the price paid, the day, and the size of the payload when
the provider gave none. -/
def purchased (arrival : Arrival) (today : Date) : FileRecord :=
  { arrival.record with
    price := some arrival.price
    date := some today
    size := arrival.record.size.or (some (UInt64.ofNat arrival.payload.data.length)) }

/-- Carries the save to its end with nothing in between. -/
def save (arrival : Arrival) (today : Date) (directory : Directory) :
    Outcome SavedFile × Directory :=
  let (directory, saved) := directory.finish arrival.saving
  (saved.map fun path => ⟨path, arrival.purchased today⟩, directory)

end Arrival

section

variable {σ : Type} (node : Node σ)

/-- Carries out a batch action on one record. -/
def mutate (action : Action) (origin : Section) (record : FileRecord) (server : σ) :
    Outcome (Option String) × σ :=
  match action with
  | .delete => node (.delete origin record.hash) server
  | .host => node (.add .hosting record) server
  | .share => node (.add .sharing record) server
  | .download | .info => (.error (.unavailable (action.label ++ " is not a batch")), server)

/-- Carries out a batch record by record. A failure does not stop it. -/
def mutateAll (action : Action) (origin : Section) : List FileRecord → σ → BatchResults × σ
  | [], server => ([], server)
  | record :: rest, server =>
    let (result, server) := mutate node action origin record server
    let (results, server) := mutateAll action origin rest server
    ((record.hash, result) :: results, server)

/-- Where a job stands once its calls have been made: it has ended, or its payload is
still to be saved. -/
inductive Progress where
  | ended (report : Report)
  | arrived (arrival : Arrival)

/-- One step of the save of a payload. The first one also makes the directory. -/
def Arrival.step (arrival : Arrival) (today : Date) (directory : Directory) :
    Progress × Directory :=
  let (saving, entries) := arrival.saving.step directory.entries
  let directory := { directory with isMade := true, entries := entries }
  match saving.result? with
  | none => (.arrived { arrival with saving := saving }, directory)
  | some result =>
    let saved := (directory.answer result).map fun path => ⟨path, arrival.purchased today⟩
    (.ended (.transferFinished arrival.ticket saved), directory)

/-- Makes the calls of a job. -/
def Job.call (job : Job) (server : σ) : Progress × σ :=
  match job with
  | .load token =>
    let (result, server) := node (.list token.target) server
    (.ended (.loaded token result), server)
  | .batch action origin records =>
    let (results, server) := mutateAll node action origin records server
    (.ended (.batchFinished action origin results), server)
  | .request (.wallet epoch) =>
    let (result, server) := node .wallet server
    (.ended (.walletLoaded epoch result), server)
  | .request (.providers ticket) =>
    let (result, server) := node (.findProviders ticket.hash) server
    (.ended (.peersLoaded ticket result), server)
  | .request (.metadata ticket) =>
    let (result, server) := node (.requestMetadata (ticket.peer.getD "") ticket.hash) server
    (.ended (.metadataLoaded ticket result), server)
  | .request (.download ticket price record) =>
    match node (.download (ticket.peer.getD "") ticket.hash price) server with
    | (.ok payload, server) => (.arrived (.start ticket price record payload), server)
    | (.error error, server) => (.ended (.transferFinished ticket (.error error)), server)

/-- Ends a job at once. -/
def Job.run (job : Job) (today : Date) (world : World σ) : Report × World σ :=
  match job.call node world.server with
  | (.ended report, server) => (report, { world with server := server })
  | (.arrived arrival, server) =>
    let (result, directory) := arrival.save today world.directory
    (.transferFinished arrival.ticket result, ⟨server, directory⟩)

/-- What the save of a payload may still cost: its stages and its report. -/
def Arrival.weight (arrival : Arrival) : Nat := arrival.saving.stage + 1

/-- What a job may still cost: one for its end, and what is needed beyond that for the
load that a batch starts or for the payload that a download leaves to be saved. -/
def Job.weight : Job → Nat
  | .batch _ _ _ => 2
  | .request (.download _ _ _) => 6
  | _ => 1

/-- The weight of several jobs. -/
def totalWeight : List Job → Nat
  | [] => 0
  | job :: jobs => job.weight + totalWeight jobs

/-- The weight of several payloads. -/
def arrivedWeight : List Arrival → Nat
  | [] => 0
  | arrival :: arrived => arrival.weight + arrivedWeight arrived

/-- The entries that the saves of several payloads have not found yet. -/
def arrivedUntested (entries : Entries) : List Arrival → Nat
  | [] => 0
  | arrival :: arrived => arrival.saving.untested entries + arrivedUntested entries arrived

theorem totalWeight_append (jobs more : List Job) :
    totalWeight (jobs ++ more) = totalWeight jobs + totalWeight more := by
  induction jobs with
  | nil => simp [totalWeight]
  | cons job jobs ih => simp [totalWeight, ih, Nat.add_assoc]

theorem arrivedWeight_append_singleton (arrived : List Arrival) (arrival : Arrival) :
    arrivedWeight (arrived ++ [arrival]) = arrivedWeight arrived + arrival.weight := by
  induction arrived with
  | nil => simp [arrivedWeight]
  | cons first arrived ih => simp [arrivedWeight, ih, Nat.add_assoc]

theorem arrivedUntested_append_singleton (entries : Entries) (arrived : List Arrival)
    (arrival : Arrival) : arrivedUntested entries (arrived ++ [arrival]) =
      arrivedUntested entries arrived + arrival.saving.untested entries := by
  induction arrived with
  | nil => simp [arrivedUntested]
  | cons first arrived ih => simp [arrivedUntested, ih, Nat.add_assoc]

/-- What is left of a job once its calls have been made. -/
def Progress.weight : Progress → Nat
  | .ended (.batchFinished _ _ _) => 1
  | .ended _ => 0
  | .arrived arrival => arrival.weight

theorem Job.call_weight (job : Job) (server : σ) :
    (job.call node server).1.weight < job.weight := by
  match job with
  | .load _ | .batch _ _ _ => simp [Job.call, Job.weight, Progress.weight]
  | .request (.wallet _) | .request (.providers _) | .request (.metadata _) =>
    simp [Job.call, Job.weight, Progress.weight]
  | .request (.download _ _ _) =>
    simp only [Job.call, Job.weight]
    split
    · exact Nat.lt_succ_self 5
    · exact Nat.succ_pos 5

theorem Desk.receive_weight (desk : Desk) (report : Report) :
    totalWeight (desk.receive report).2 ≤ (Progress.ended report).weight := by
  cases report with
  | batchFinished =>
    simp only [Desk.receive, Desk.batchFinished, Progress.weight]
    split <;> simp [totalWeight, Job.weight]
  | _ => simp [Desk.receive, totalWeight]

/-- A payload that is saved ends with the report of its transfer. -/
theorem Arrival.weight_of_step_ended {arrival : Arrival} {today : Date}
    {directory directory' : Directory} {report : Report}
    (h : arrival.step today directory = (.ended report, directory')) :
    (Progress.ended report).weight = 0 := by
  unfold step at h
  dsimp only at h
  split at h
  · cases h
  · cases h
    rfl

/-- A payload that is not saved yet has come nearer to it. -/
theorem Arrival.nearer_of_step_arrived {arrival arrival' : Arrival} {today : Date}
    {directory directory' : Directory}
    (h : arrival.step today directory = (.arrived arrival', directory')) :
    arrival'.weight < arrival.weight ∨
      directory'.entries = directory.entries ∧ arrival'.weight = arrival.weight ∧
        arrival'.saving.untested directory'.entries < arrival.saving.untested directory.entries := by
  have hrunning : arrival.saving.result? = none := by
    cases hresult : arrival.saving.result? with
    | none => rfl
    | some result =>
      have hstep := arrival.saving.step_of_result? hresult directory.entries
      simp [step, hstep, hresult] at h
  have hnearer := arrival.saving.step_nearer directory.entries hrunning
  unfold step at h
  dsimp only at h
  split at h
  · cases h
    rcases hnearer with hstage | ⟨hentries, hstage, huntested⟩
    · exact Or.inl (Nat.succ_lt_succ hstage)
    · refine Or.inr ⟨hentries, congrArg (· + 1) hstage, ?_⟩
      rw [hentries]
      exact huntested
  · cases h

/-- Carries out jobs and all that follows from them, until nothing is left. -/
def Desk.drive (today : Date) (desk : Desk) (world : World σ) (jobs : List Job)
    (arrived : List Arrival) : Desk × World σ :=
  match jobs, arrived with
  | [], [] => (desk, world)
  | [], arrival :: arrived =>
    match _stepped : arrival.step today world.directory with
    | (.ended report, directory) =>
      let next := desk.receive report
      drive today next.1 { world with directory := directory } next.2 arrived
    | (.arrived arrival, directory) =>
      drive today desk { world with directory := directory } [] (arrived ++ [arrival])
  | job :: jobs, arrived =>
    match _called : job.call node world.server with
    | (.ended report, server) =>
      let next := desk.receive report
      drive today next.1 { world with server := server } (jobs ++ next.2) arrived
    | (.arrived arrival, server) =>
      drive today desk { world with server := server } jobs (arrived ++ [arrival])
termination_by (totalWeight jobs + arrivedWeight arrived,
  arrivedUntested world.directory.entries arrived)
decreasing_by
  · have hreceive := desk.receive_weight report
    rw [Arrival.weight_of_step_ended _stepped] at hreceive
    apply Prod.Lex.left
    simp only [totalWeight, arrivedWeight, Arrival.weight]
    omega
  · rcases Arrival.nearer_of_step_arrived _stepped with hweight | ⟨hentries, hweight, huntested⟩
    · apply Prod.Lex.left
      simp only [arrivedWeight_append_singleton, arrivedWeight]
      omega
    · rw [arrivedWeight_append_singleton, arrivedUntested_append_singleton, hweight,
        Nat.add_comm (arrivedWeight _)]
      apply Prod.Lex.right
      simp only [hentries, arrivedUntested] at huntested ⊢
      omega
  · have hreceive := desk.receive_weight report
    have hcall := job.call_weight node world.server
    rw [_called] at hcall
    apply Prod.Lex.left
    simp only [totalWeight_append, totalWeight] at *
    omega
  · have hcall := job.call_weight node world.server
    rw [_called] at hcall
    apply Prod.Lex.left
    simp only [arrivedWeight_append_singleton, totalWeight, Progress.weight] at *
    omega

/-- Carries out a command and all that follows from it. -/
def Desk.dispatch (today : Date) (desk : Desk) (world : World σ) (command : Command) :
    Desk × World σ :=
  let (desk, jobs) := desk.handle today command
  desk.drive node today world jobs []

end

end FileMarket
