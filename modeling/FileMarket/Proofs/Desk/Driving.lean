import FileMarket.Proofs.CommandLine.Opening
import FileMarket.Proofs.Storage.Save

/-!
# Jobs that are driven to their end

Calls are replied to one after the other, each in the state that the earlier ones left
(`Node.replies`). A job whose call ends it is reported at once (`Desk.drive_of_answered`). A payload
that has arrived and is the only one is saved with nothing in between (`Desk.drive_arrived`),
although its save is driven step by step: each step leaves the same save to be carried to its end
(`Arrival.save_step`).
-/

set_option autoImplicit false

namespace FileMarket

/-! ## Replies -/

section Replies

variable {σ : Type}

/-- The state of a node after some calls, the first one first. -/
def Node.after (node : Node σ) (server : σ) (calls : List Call) : σ :=
  calls.foldl (fun server call => (node call server).2) server

/-- What every call would be replied to after any earlier ones. -/
abbrev Replies := List Call → (call : Call) → Outcome call.Answer

/-- The replies of a node. -/
def Node.replies (node : Node σ) (server : σ) : Replies :=
  fun earlier call => (node call (node.after server earlier)).1

theorem Node.after_append (node : Node σ) (server : σ) (earlier later : List Call) :
    node.after server (earlier ++ later) = node.after (node.after server earlier) later :=
  List.foldl_append

/-- The replies that remain after some calls. -/
def Replies.since (replies : Replies) (past : List Call) : Replies :=
  fun earlier call => replies (past ++ earlier) call

theorem Replies.since_nil (replies : Replies) (past : List Call) (call : Call) :
    replies.since past [] call = replies past call := by
  unfold Replies.since
  rw [List.append_nil]

theorem Node.replies_after (node : Node σ) (server : σ) (past : List Call) :
    node.replies (node.after server past) = (node.replies server).since past := by
  funext earlier call
  show (node call (node.after (node.after server past) earlier)).1 =
    (node call (node.after server (past ++ earlier))).1
  rw [Node.after_append]

/-- A world whose node was told some calls. -/
def World.told (world : World σ) (node : Node σ) (calls : List Call) : World σ :=
  { world with server := node.after world.server calls }

theorem World.told_told (world : World σ) (node : Node σ) (earlier later : List Call) :
    (world.told node earlier).told node later = world.told node (earlier ++ later) := by
  unfold World.told
  rw [Node.after_append]

end Replies

/-! ## Payloads -/

namespace Arrival

variable {arrival arrival' : Arrival} {today : Date} {directory directory' : Directory}

/-- The save of a payload comes to its end in the directory. -/
theorem exists_result? (arrival : Arrival) (directory : Directory) : ∃ result,
    (arrival.saving.run (directory.entries.length + 4) directory.entries).1.result? = some result :=
  Save.exists_result?_run_length arrival.saving directory.entries

/-- However many steps it takes, the end of a save is what it is with nothing in between. -/
theorem save_of_run {n : Nat} {result : Except FileFault String}
    (h : (arrival.saving.run n directory.entries).1.result? = some result) :
    arrival.save today directory =
      ((directory.answer result).map fun path => ⟨path, arrival.purchased today⟩,
        { directory with
          isMade := true
          entries := (arrival.saving.run n directory.entries).2 }) := by
  obtain ⟨result', hresult⟩ := arrival.exists_result? directory
  have hrun := Save.run_unique hresult h
  unfold save Directory.finish
  simp only [hrun, h]

/-- A step that ends a save is the save carried to its end. -/
theorem save_of_step_ended {report : Report}
    (h : arrival.step today directory = (.ended report, directory')) :
    report = .transferFinished arrival.ticket (arrival.save today directory).1 ∧
      directory' = (arrival.save today directory).2 := by
  unfold step at h
  dsimp only at h
  split at h
  · cases h
  · rename_i result hresult
    rw [save_of_run (show (arrival.saving.run 1 directory.entries).1.result? = some result from
      hresult)]
    cases h
    exact ⟨rfl, rfl⟩

/-- A step that does not end a save leaves the same save to be carried to its end. -/
theorem save_step (h : arrival.step today directory = (.arrived arrival', directory')) :
    arrival'.save today directory' = arrival.save today directory ∧
      arrival'.ticket = arrival.ticket := by
  unfold step at h
  dsimp only at h
  split at h
  · cases h
    obtain ⟨result, hresult⟩ := Arrival.exists_result?
      { arrival with saving := (arrival.saving.step directory.entries).1 }
      ⟨directory.path, true, (arrival.saving.step directory.entries).2⟩
    have hresult' : (arrival.saving.run
        ((arrival.saving.step directory.entries).2.length + 4 + 1) directory.entries).1.result? =
          some result := hresult
    rw [save_of_run hresult, save_of_run hresult']
    exact ⟨rfl, rfl⟩
  · cases h

/-- A payload is saved in the directory, and the file goes into the record of the purchase. -/
theorem save_eq (arrival : Arrival) (today : Date) (directory : Directory) :
    arrival.save today directory =
      ((directory.finish arrival.saving).2.map fun path => ⟨path, arrival.purchased today⟩,
        (directory.finish arrival.saving).1) :=
  rfl

end Arrival

section Driving

variable {σ : Type} (node : Node σ) (today : Date)

/-- Where a payment stands once it was replied to: its payload is to be saved, or it has ended. -/
def Progress.paid (ticket : Ticket) (price : Binary64) (record : FileRecord) :
    Outcome Payload → Progress
  | .ok payload => .arrived (.start ticket price record payload)
  | .error error => .ended (.transferFinished ticket (.error error))

theorem Job.call_download (ticket : Ticket) (price : Binary64) (record : FileRecord) (server : σ) :
    (Job.request (.download ticket price record)).call node server =
      (.paid ticket price record
          (node.replies server [] (.download (ticket.peer.getD "") ticket.hash price)),
        node.after server [.download (ticket.peer.getD "") ticket.hash price]) := by
  rcases hreply : node (.download (ticket.peer.getD "") ticket.hash price) server with
    ⟨error | payload, server'⟩ <;>
  simp only [Job.call, Node.replies, Node.after, List.foldl_nil, List.foldl_cons, hreply,
    Progress.paid]

/-- A job whose call ends it is reported at once. -/
theorem Desk.drive_of_answered (desk : Desk) (world : World σ) {job : Job} {report : Report}
    {server : σ} (h : job.call node world.server = (.ended report, server))
    (hnone : (desk.receive report).2 = []) (jobs : List Job) :
    desk.drive node today world (job :: jobs) [] =
      (desk.receive report).1.drive node today { world with server := server } jobs [] := by
  rw [Desk.drive_of_ended node today desk world h, hnone, List.append_nil]

/-- A job whose call brings a payload leaves the payload to be saved. -/
theorem Desk.drive_of_arrived (desk : Desk) (world : World σ) {job : Job} {arrival : Arrival}
    {server : σ} (h : job.call node world.server = (.arrived arrival, server)) (jobs : List Job)
    (arrived : List Arrival) :
    desk.drive node today world (job :: jobs) arrived =
      desk.drive node today { world with server := server } jobs (arrived ++ [arrival]) := by
  rw [Desk.drive]
  split
  · rename_i report server' hcalled
    cases hcalled.symm.trans h
  · rename_i arrival' server' hcalled
    cases hcalled.symm.trans h
    rfl

/-- A payload that is alone is saved with nothing in between. -/
theorem Desk.drive_arrived (desk : Desk) (world : World σ) (arrival : Arrival) :
    desk.drive node today world [] [arrival] =
      ((desk.receive
          (.transferFinished arrival.ticket (arrival.save today world.directory).1)).1,
        { world with directory := (arrival.save today world.directory).2 }) := by
  rw [Desk.drive]
  split
  · rename_i report directory hstep
    obtain ⟨rfl, rfl⟩ := Arrival.save_of_step_ended hstep
    exact Desk.drive_nil node today _ _
  · -- Each step brings the save nearer to its end, by its stage or by the entries left to test.
    rename_i arrival' directory hstep
    obtain ⟨hsave, hticket⟩ := Arrival.save_step hstep
    rw [List.nil_append, Desk.drive_arrived desk _ arrival', hticket, hsave]
termination_by (arrival.weight, arrival.saving.untested world.directory.entries)
decreasing_by
  rename_i hstep
  rcases Arrival.nearer_of_step_arrived hstep with hweight | ⟨-, hweight, huntested⟩
  · exact Prod.Lex.left _ _ hweight
  · rw [hweight]
    exact Prod.Lex.right _ huntested

end Driving

end FileMarket
