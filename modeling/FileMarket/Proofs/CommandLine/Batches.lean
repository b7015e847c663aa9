import FileMarket.CommandLine.Run
import FileMarket.Proofs.CommandLine.Selecting
import FileMarket.Proofs.Desk.Batches

/-!
# Batches of the command line

A task that changes a collection lists its section, selects rows, prepares a batch, and sends it
when the user agrees. Each of these steps can end the task, and up to the last one the node is told
nothing but to list the section. So a task does all that it is asked for or nothing
(`batch_all_or_nothing`): it is `Cleared`, and makes one change for each file that it names, or
there is no change at all.
-/

set_option autoImplicit false

namespace FileMarket

open Text

section Driving

variable {σ : Type} (node : Node σ)

/-- The calls of a batch are made one after the other, whatever they are answered with. -/
theorem mutateAll_logged (action : Action) (origin : Section) (records : List FileRecord)
    (server : σ × List Call) :
    (mutateAll node.logged action origin records server).2.2 =
      server.2 ++ action.calls origin records := by
  induction records generalizing server with
  | nil => rw [action.calls_nil, List.append_nil]; rfl
  | cons record records ih =>
    rw [action.calls_cons, ← List.append_assoc, ← mutate_logged node action origin record server]
    exact ih _

/-- A batch of the section that is shown is followed by one listing of the section. -/
theorem Desk.drive_batch_logged (today : Date) (desk : Desk) (world : World (σ × List Call))
    (action : Action) (origin : Section) (records : List FileRecord)
    (hshown : desk.grid.current = origin) :
    (desk.drive node.logged today world [.batch action origin records] []).2.server.2 =
      world.server.2 ++ action.calls origin records ++ [.list origin] := by
  rcases hmade : mutateAll node.logged action origin records world.server with ⟨results, server⟩
  have hcalls := mutateAll_logged node action origin records world.server
  rw [hmade] at hcalls
  have hbatch : (Job.batch action origin records).call node.logged world.server =
      (.ended (.batchFinished action origin results), server) := by
    simp only [Job.call, hmade]
  -- The end of the batch starts a listing, and the end of the listing starts nothing.
  obtain ⟨token, htarget, hjobs⟩ : ∃ token : LoadToken, token.target = origin ∧
      (desk.receive (.batchFinished action origin results)).2 = [.load token] := by
    simp only [receive, batchFinished, hshown, ne_eq, not_true_eq_false, if_false]
    exact ⟨_, hshown, rfl⟩
  rw [drive_of_ended _ _ _ _ hbatch, hjobs, List.nil_append]
  rw [drive_of_ended _ _ _ _ rfl, List.nil_append]
  have hnone : ∀ (desk : Desk) result, (desk.receive (.loaded token result)).2 = [] :=
    fun _ _ => rfl
  rw [hnone, drive_nil, ← hcalls, ← htarget]

/-- The batch that waits is sent when it is confirmed and none is running. -/
theorem Desk.dispatch_confirmBatch_logged (today : Date) (desk : Desk)
    (world : World (σ × List Call)) {batch : PendingBatch} (hpending : desk.pending = some batch)
    (hidle : desk.batchRunning = false) (horigin : batch.origin = desk.grid.current) :
    (desk.dispatch node.logged today world .confirmBatch).2.server.2 =
      world.server.2 ++ batch.action.calls batch.origin batch.records ++ [.list batch.origin] := by
  have hconfirm : desk.handle today .confirmBatch =
      ({ desk with
          pending := none
          batchRunning := true
          status := batch.action.label ++ " of " ++ fileCount batch.records.length ++
            " in progress" },
        [.batch batch.action batch.origin batch.records]) := by
    simp only [handle, confirmBatch, hidle, hpending, Bool.false_eq_true, if_false]
  unfold dispatch
  rw [hconfirm]
  exact drive_batch_logged node today _ world batch.action batch.origin batch.records horigin.symm

end Driving

namespace CommandLine

/-- Whether the next line that is typed says yes. -/
def saysYes (typed : List Char) : Bool :=
  let answer := lowerAscii (trim (String.ofList (typed.takeWhile (· != '\n'))))
  answer = "y" || answer = "yes"

/-- Everything that a batch needs: the section is known and was listed, all files are in the
listing, the section offers the action, and the user agrees. -/
structure Cleared {σ : Type} (node : Node σ) (server : σ) (typed : List Char) (target : String)
    (hashes : List String) (action : Action) (yes : Bool) (shown : Section)
    (records : List FileRecord) : Prop where
  target : Section.parse target = .ok shown
  answer : (node (.list shown) server).1 = .ok records
  listed : ∀ hash ∈ hashes, ∃ record ∈ records, record.hash = hash
  offered : shown.layout.allows action = true
  confirmed : yes = true ∨ saysYes typed = true

namespace Client

variable {σ : Type} (client : Client σ) (console : Console σ)

/-! ## Going on with a batch -/

/-- What a task does with a batch once the user has agreed or not. -/
def conclude (desk : Desk) (agreed : Bool) : Program σ Unit := do
  if agreed then
    let desk ← client.perform desk .confirmBatch
    desk.notices.forM printLine
    printLine desk.status
  else
    let _ ← client.perform desk .cancelBatch
    printLine "Cancelled"

/-- What a task does with a batch that is prepared: it shows the receipt, and asks the user unless
the answer is given. -/
def proceed (desk : Desk) (batch : PendingBatch) (yes : Bool) : Program σ Unit := do
  printLine batch.receipt.print
  let agreed ← if yes then pure true else confirm "Proceed?"
  client.conclude desk agreed

/-- A question takes the next line, and tells the node nothing. -/
theorem confirm_run (question : String) : (confirm question : Program σ Bool).run console =
    .ok (saysYes console.typed) (console.printing (question ++ " [y/N] ")).afterLine := by
  unfold confirm saysYes
  rfl

/-- Lines are printed, and nothing else happens. -/
theorem printLines_run (lines : List String) : ∃ console',
    (lines.forM printLine : Program σ Unit).run console = .ok () console' ∧
      console'.world = console.world := by
  induction lines generalizing console with
  | nil => exact ⟨console, rfl, rfl⟩
  | cons line lines ih =>
    obtain ⟨console', hrun, hworld⟩ := ih (console.printing (line ++ "\n"))
    exact ⟨console', hrun, hworld⟩

/-- The node is told of a batch only if the user has agreed. -/
theorem conclude_run (desk : Desk) (agreed : Bool) : ∃ console',
    (client.conclude desk agreed).run console = .ok () console' ∧
      console'.world = if agreed then
        (desk.dispatch client.node client.today console.world .confirmBatch).2
      else console.world := by
  unfold conclude
  cases agreed with
  | true =>
    have hconfirm := client.perform_run console desk .confirmBatch
    obtain ⟨told, hnotices, hworld⟩ := printLines_run
      { console with
        world := (desk.dispatch client.node client.today console.world .confirmBatch).2 }
      (desk.dispatch client.node client.today console.world .confirmBatch).1.notices
    rw [if_pos rfl, if_pos rfl, run_bind_of_ok hconfirm, run_bind_of_ok hnotices]
    exact ⟨_, rfl, hworld⟩
  | false =>
    have hidle : (desk.handle client.today .cancelBatch).2 = [] := by
      show (if desk.pending.isSome = true then _ else _ : Desk.Stepped).2 = []
      split <;> rfl
    rw [if_neg Bool.false_ne_true, if_neg Bool.false_ne_true,
      run_bind_of_ok (client.perform_run_of_idle console (Prod.ext rfl hidle))]
    exact ⟨_, rfl, rfl⟩

/-- A batch that is prepared is sent if the user agrees, and otherwise nothing is. -/
theorem proceed_run (desk : Desk) (batch : PendingBatch) (yes : Bool) : ∃ console',
    (client.proceed desk batch yes).run console = .ok () console' ∧
      console'.world = if yes = true ∨ saysYes console.typed = true then
        (desk.dispatch client.node client.today console.world .confirmBatch).2
      else console.world := by
  let shown := console.printing (batch.receipt.print ++ "\n")
  -- With the answer given no line is read, and otherwise the line read is the answer.
  cases yes with
  | true =>
    obtain ⟨console', hrun, hworld⟩ := client.conclude_run shown desk true
    exact ⟨console', hrun, hworld⟩
  | false =>
    have hasked : (client.proceed desk batch false).run console =
        (confirm "Proceed?" >>= client.conclude desk : Program σ Unit).run shown := by
      unfold proceed
      simp only [Bool.false_eq_true, if_false]
      exact run_bind_of_ok rfl
    obtain ⟨console', hrun, hworld⟩ := client.conclude_run
      (shown.printing ("Proceed?" ++ " [y/N] ")).afterLine desk (saysYes shown.typed)
    rw [← run_bind_of_ok (confirm_run shown "Proceed?"), ← hasked] at hrun
    refine ⟨console', hrun, ?_⟩
    rw [hworld]
    simp only [Bool.false_eq_true, false_or]
    rfl

/-- How a batch goes on at a desk with selected rows. -/
def offer (desk : Desk) (action : Action) (price : Option String) (yes : Bool) :
    Program σ Unit := do
  let desk ← client.perform desk (.requestBatch action price)
  match desk.pending with
  | none => throw (.told desk.status)
  | some batch => client.proceed desk batch yes

theorem batch_eq_offer (target : Section) (hashes : List String) (action : Action)
    (price : Option String) (yes : Bool) :
    client.batch target hashes action price yes = (do
      let desk ← client.openDesk target
      let desk ← client.selectRows desk hashes
      client.offer desk action price yes) := rfl

section Logged

variable (node : Node σ) (today : Date) {action : Action} {shown : Section}
  {records : List FileRecord} {set : HashSet} {priceText : Option String}
  (console : Console (σ × List Call))

/-- A batch that is prepared is sent if the user agrees, and is followed by a listing. -/
theorem offer_calls_of_prepared (hmutation : action.isMutation = true) {batch : PendingBatch}
    (hprepared : (Desk.selecting shown records set).grid.prepareBatch action priceText = .ok batch)
    (yes : Bool) :
    (worldAfter (offer ⟨node.logged, today⟩ (.selecting shown records set) action priceText yes)
      console).server.2 =
        if yes = true ∨ saysYes console.typed = true then
          console.world.server.2 ++ batch.action.calls shown batch.records ++ [.list shown]
        else console.world.server.2 := by
  let client : Client (σ × List Call) := ⟨node.logged, today⟩
  have hrequest := Desk.handle_requestBatch_selecting today hmutation shown records set priceText
  rw [Desk.prepareBatch, hprepared] at hrequest
  have hperform := client.perform_run_of_idle console hrequest
  obtain ⟨console', hrun, hworld⟩ := client.proceed_run console
    { Desk.selecting shown records set with
      status := "Confirm " ++ action.label ++ " of " ++ Desk.fileCount batch.records.length
      pending := some batch } batch yes
  rw [offer, worldAfter_bind hperform, worldAfter_of_ok hrun, hworld]
  have horigin : batch.origin = shown := (Grid.wellPrepared_of_prepareBatch hprepared).2
  split
  · rw [Desk.dispatch_confirmBatch_logged node today _ _ rfl rfl horigin, horigin]
  · rfl

/-- What is refused is not sent. -/
theorem offer_calls_of_refused (hmutation : action.isMutation = true) {error : MarketError}
    (hrefused :
      (Desk.selecting shown records set).grid.prepareBatch action priceText = .error error)
    (yes : Bool) :
    (worldAfter (offer ⟨node.logged, today⟩ (.selecting shown records set) action priceText yes)
      console).server.2 = console.world.server.2 := by
  let client : Client (σ × List Call) := ⟨node.logged, today⟩
  have hrequest := Desk.handle_requestBatch_selecting today hmutation shown records set priceText
  rw [Desk.prepareBatch, hrefused] at hrequest
  rw [offer, worldAfter_bind (client.perform_run_of_idle console hrequest)]
  rfl

/-- What is told to the node beyond what it was told before comes of a batch that the section
offers, whose price can be read, and that the user agrees to. -/
theorem offered_of_mem_offer_calls (hmutation : action.isMutation = true) {hashes : List String}
    {yes : Bool} {call : Call}
    (hcall : call ∈ (worldAfter (offer ⟨node.logged, today⟩
      (.selecting shown records (hashes.foldl .insert .empty)) action priceText yes)
        console).server.2) (hnew : call ∉ console.world.server.2) :
    shown.layout.allows action = true ∧
      (∃ price, Grid.batchPrice action priceText = .ok price) ∧
        (yes = true ∨ saysYes console.typed = true) := by
  cases hprepared : (Desk.selecting shown records (hashes.foldl .insert .empty)).grid.prepareBatch
      action priceText with
  | error error =>
    rw [offer_calls_of_refused node today console hmutation hprepared] at hcall
    exact absurd hcall hnew
  | ok batch =>
    obtain ⟨⟨hallowed, -⟩, price, hprice, -⟩ :=
      (Desk.prepareBatch_selecting_eq_ok_iff records hmutation).1 hprepared
    rw [offer_calls_of_prepared node today console hmutation hprepared] at hcall
    refine ⟨hallowed, ⟨price, hprice⟩, ?_⟩
    by_contra hdeclined
    rw [if_neg hdeclined] at hcall
    exact hnew hcall

end Logged

/-! ## Tasks -/

/-- A task that changes a collection: a batch of the section that is named. -/
def askBatch (target : String) (hashes : List String) (action : Action) (price : Option String)
    (yes : Bool) : Program σ Unit := do
  client.batch (← orRefuse (Section.parse target)) hashes action price yes

section Asked

variable (node : Node σ) (today : Date) (server : σ) (directory : Directory) (typed : List Char)
  {target : String} {hashes : List String} {action : Action} {priceText : Option String}
  {yes : Bool}

/-- The calls that a task makes of a node, the first one first. -/
def callsOf (task : Task) : List Call :=
  ((⟨node.logged, today⟩ : Client (σ × List Call)).finish task
    (.start ⟨(server, []), directory⟩ typed)).console.world.server.2

/-- The calls that a batch makes of a node, the first one first. -/
def batchCalls (target : String) (hashes : List String) (action : Action)
    (priceText : Option String) (yes : Bool) : List Call :=
  (worldAfter (askBatch ⟨node.logged, today⟩ target hashes action priceText yes)
    (.start ⟨(server, []), directory⟩ typed)).server.2

/-- The calls of a task that asks for a batch are those of the batch. -/
theorem callsOf_eq_batchCalls {task : Task}
    (h : (⟨node.logged, today⟩ : Client (σ × List Call)).program task =
      askBatch ⟨node.logged, today⟩ target hashes action priceText yes) :
    callsOf node today server directory typed task =
      batchCalls node today server directory typed target hashes action priceText yes := by
  unfold callsOf finish batchCalls worldAfter
  rw [h]
  split <;> rename_i hrun <;> rw [hrun]

/-- A section that is not known is not listed. -/
theorem batchCalls_of_unknown {error : MarketError}
    (htarget : Section.parse target = .error error) :
    batchCalls node today server directory typed target hashes action priceText yes = [] := by
  unfold batchCalls askBatch
  rw [htarget]
  rfl

/-- A section that is known is listed first. -/
theorem batchCalls_of_known {shown : Section} (htarget : Section.parse target = .ok shown) :
    batchCalls node today server directory typed target hashes action priceText yes =
      (worldAfter (batch ⟨node.logged, today⟩ shown hashes action priceText yes)
        (.start ⟨(server, []), directory⟩ typed)).server.2 := by
  unfold batchCalls askBatch
  rw [htarget]
  rfl

/-- A section that cannot be listed is left alone. -/
theorem batchCalls_of_error {shown : Section} {error : MarketError}
    (htarget : Section.parse target = .ok shown)
    (hanswer : (node (.list shown) server).1 = .error error) :
    batchCalls node today server directory typed target hashes action priceText yes =
      [.list shown] := by
  let client : Client (σ × List Call) := ⟨node.logged, today⟩
  let console : Console (σ × List Call) := .start ⟨(server, []), directory⟩ typed
  have hopen := client.openDesk_run shown console
  rw [show client.answerTo shown console = _ from hanswer] at hopen
  rw [batchCalls_of_known node today server directory typed htarget, batch_eq_offer,
    worldAfter_bind_of_error hopen]
  rfl

section Listed

variable {shown : Section} {records : List FileRecord}
  (htarget : Section.parse target = .ok shown)
  (hanswer : (node (.list shown) server).1 = .ok records)
include htarget hanswer

/-- When a section has been listed, rows are selected in it. -/
theorem batchCalls_of_answer :
    batchCalls node today server directory typed target hashes action priceText yes =
      (worldAfter (do
          let desk ← selectRows ⟨node.logged, today⟩ (.selecting shown records .empty) hashes
          offer ⟨node.logged, today⟩ desk action priceText yes)
        (.start ⟨((node (.list shown) server).2, [.list shown]), directory⟩ typed)).server.2 := by
  let client : Client (σ × List Call) := ⟨node.logged, today⟩
  let console : Console (σ × List Call) := .start ⟨(server, []), directory⟩ typed
  have hopen := client.openDesk_run shown console
  rw [show client.answerTo shown console = _ from hanswer] at hopen
  rw [batchCalls_of_known node today server directory typed htarget, batch_eq_offer,
    worldAfter_bind hopen]
  rfl

/-- If a file is not in the listing, no batch is prepared. -/
theorem batchCalls_of_unlisted
    (hunlisted : ¬ ∀ hash ∈ hashes, ∃ record ∈ records, record.hash = hash) :
    batchCalls node today server directory typed target hashes action priceText yes =
      [.list shown] := by
  have hnone : ∀ hash, HashSet.empty.contains hash = true →
      ∃ record ∈ records, record.hash = hash := fun _ h => by cases h
  let client : Client (σ × List Call) := ⟨node.logged, today⟩
  let console : Console (σ × List Call) :=
    .start ⟨((node (.list shown) server).2, [.list shown]), directory⟩ typed
  obtain ⟨fault, hselect⟩ : ∃ fault,
      (client.selectRows (.selecting shown records .empty) hashes).run console =
        .error fault console := client.selectRows_run_of_unlisted console hnone hunlisted
  rw [batchCalls_of_answer node today server directory typed htarget hanswer,
    worldAfter_bind_of_error hselect]
  rfl

/-- If all files are in the listing, their rows are selected. -/
theorem batchCalls_of_listed (hlisted : ∀ hash ∈ hashes, ∃ record ∈ records, record.hash = hash) :
    batchCalls node today server directory typed target hashes action priceText yes =
      (worldAfter (offer ⟨node.logged, today⟩
          (.selecting shown records (hashes.foldl .insert .empty)) action priceText yes)
        (.start ⟨((node (.list shown) server).2, [.list shown]), directory⟩ typed)).server.2 := by
  rw [batchCalls_of_answer node today server directory typed htarget hanswer,
    worldAfter_bind (selectRows_run_of_listed _ _ hlisted)]

end Listed

section Mutation

variable (hmutation : action.isMutation = true)
include hmutation

/-- A batch that is cleared makes its changes between two listings of the section. -/
theorem batchCalls_of_cleared (hhashes : hashes ≠ []) {shown : Section} {records : List FileRecord}
    (hcleared : Cleared node server typed target hashes action yes shown records)
    {price : Option Binary64} (hprice : Grid.batchPrice action priceText = .ok price) :
    batchCalls node today server directory typed target hashes action priceText yes =
      .list shown :: action.calls shown (chosen records hashes price) ++ [.list shown] := by
  have hprepared := (Desk.prepareBatch_selecting_eq_ok_iff records hmutation).2
    ⟨⟨hcleared.offered, hhashes⟩, price, hprice, rfl⟩
  rw [batchCalls_of_listed node today server directory typed hcleared.target hcleared.answer
    hcleared.listed, offer_calls_of_prepared node today _ hmutation hprepared]
  exact if_pos hcleared.confirmed

/-- Only a batch that is cleared, and whose price can be read, changes anything. -/
theorem cleared_of_mem_batchCalls {call : Call}
    (hcall : call ∈ batchCalls node today server directory typed target hashes action priceText yes)
    (hchange : call.isMutation = true) :
    (∃ shown records, Cleared node server typed target hashes action yes shown records) ∧
      ∃ price, Grid.batchPrice action priceText = .ok price := by
  -- A step that fails leaves no more than the listing of the section behind.
  have hlist : ∀ shown, call ∉ [Call.list shown] := by
    intro shown hmem
    rw [List.mem_singleton.1 hmem] at hchange
    cases hchange
  cases htarget : Section.parse target with
  | error error =>
    rw [batchCalls_of_unknown node today server directory typed htarget] at hcall
    cases hcall
  | ok shown =>
    cases hanswer : (node (.list shown) server).1 with
    | error error =>
      rw [batchCalls_of_error node today server directory typed htarget hanswer] at hcall
      exact absurd hcall (hlist shown)
    | ok records =>
      by_cases hlisted : ∀ hash ∈ hashes, ∃ record ∈ records, record.hash = hash
      · rw [batchCalls_of_listed node today server directory typed htarget hanswer hlisted] at hcall
        obtain ⟨hallowed, hprice, hconfirmed⟩ :=
          offered_of_mem_offer_calls node today _ hmutation hcall (hlist shown)
        exact ⟨⟨shown, records, htarget, hanswer, hlisted, hallowed, hconfirmed⟩, hprice⟩
      · rw [batchCalls_of_unlisted node today server directory typed htarget hanswer hlisted]
          at hcall
        exact absurd hcall (hlist shown)

end Mutation

end Asked

end Client

/-! ## All or nothing -/

open Client

/-- A task that changes a collection makes, if it is cleared, all its changes between two listings
of the section, and otherwise none. -/
structure AllOrNothing (calls : List Call) (cleared : Section → List FileRecord → Prop)
    (changed : Section → List FileRecord → List Call → Prop) : Prop where
  all : ∀ shown records, cleared shown records →
    ∃ changes, changed shown records changes ∧ calls = .list shown :: changes ++ [.list shown]
  nothing : (∀ shown records, ¬ cleared shown records) → ∀ call ∈ calls, call.isMutation = false

theorem AllOrNothing.imp {calls : List Call} {cleared cleared' : Section → List FileRecord → Prop}
    {changed changed' : Section → List FileRecord → List Call → Prop}
    (h : AllOrNothing calls cleared changed)
    (hcleared : ∀ shown records, cleared' shown records ↔ cleared shown records)
    (hchanged : ∀ shown records changes, cleared shown records → changed shown records changes →
      changed' shown records changes) : AllOrNothing calls cleared' changed' where
  all shown records hfit := by
    have hfit' := (hcleared shown records).1 hfit
    obtain ⟨changes, hmade, hcalls⟩ := h.all shown records hfit'
    exact ⟨changes, hchanged shown records changes hfit' hmade, hcalls⟩
  nothing hnone := h.nothing fun shown records hfit =>
    hnone shown records ((hcleared shown records).2 hfit)

section

variable {σ : Type} (node : Node σ) (today : Date) (server : σ) (directory : Directory)
  (typed : List Char) (target : String) (yes : Bool)

/-- A batch makes all its changes or none: the calls of its action for the chosen records. -/
theorem allOrNothing_batchCalls {hashes : List String} {action : Action}
    (hmutation : action.isMutation = true) (hhashes : hashes ≠ []) (priceText : Option String) :
    AllOrNothing (batchCalls node today server directory typed target hashes action priceText yes)
      (fun shown records => Cleared node server typed target hashes action yes shown records ∧
        ∃ price, Grid.batchPrice action priceText = .ok price)
      fun shown records changes => ∃ price, Grid.batchPrice action priceText = .ok price ∧
        changes = action.calls shown (chosen records hashes price) where
  all := by
    rintro shown records ⟨hcleared, price, hprice⟩
    exact ⟨_, ⟨price, hprice, rfl⟩, batchCalls_of_cleared node today server directory typed
      hmutation hhashes hcleared hprice⟩
  nothing := by
    intro hnone call hcall
    rw [Bool.eq_false_iff]
    intro hchange
    obtain ⟨⟨shown, records, hcleared⟩, hprice⟩ :=
      cleared_of_mem_batchCalls node today server directory typed hmutation hcall hchange
    exact hnone shown records ⟨hcleared, hprice⟩

/-- A task that changes a collection does all that it is asked for or nothing. A deletion makes one
call for each file, however often and in whatever order they are asked for, in the order of the
listing; sharing and hosting add the one record. -/
theorem batch_all_or_nothing
    (hdistinct : ∀ shown records, Section.parse target = .ok shown →
      (node (.list shown) server).1 = .ok records → (records.map (·.hash)).Nodup) :
    (∀ hashes, hashes ≠ [] →
      AllOrNothing (callsOf node today server directory typed (.delete target hashes yes))
        (Cleared node server typed target hashes .delete yes)
        fun shown records changes => ∃ sent : List String, sent.Sublist (records.map (·.hash)) ∧
          sent.Perm hashes.dedup ∧ changes = sent.map (.delete shown)) ∧
    (∀ hash,
      AllOrNothing (callsOf node today server directory typed (.share target hash yes))
        (Cleared node server typed target [hash] .share yes)
        fun _ records changes => ∃ record ∈ records, record.hash = hash ∧
          changes = [.add .sharing record]) ∧
    ∀ hash price,
      AllOrNothing (callsOf node today server directory typed (.host target hash price yes))
        (fun shown records => Cleared node server typed target [hash] .host yes shown records ∧
          ∃ amount, parsePrice price = .ok amount)
        fun _ records changes => ∃ record ∈ records, ∃ amount, record.hash = hash ∧
          parsePrice price = .ok amount ∧
            changes = [.add .hosting { record with price := some amount }] := by
  have hnodup : ∀ {shown records hashes action},
      Cleared node server typed target hashes action yes shown records →
        (records.map (·.hash)).Nodup :=
    fun hcleared => hdistinct _ _ hcleared.target hcleared.answer
  refine ⟨fun hashes hhashes => ?_, fun hash => ?_, fun hash price => ?_⟩
  · -- Deleting: what is sent are the hashes that are chosen.
    have hcalls : callsOf node today server directory typed (.delete target hashes yes) =
        batchCalls node today server directory typed target hashes .delete none yes :=
      callsOf_eq_batchCalls node today server directory typed rfl
    have hbatch := allOrNothing_batchCalls node today server directory typed target yes
      (rfl : Action.delete.isMutation = true) hhashes none
    rw [hcalls]
    refine hbatch.imp (fun shown records => (and_iff_left ⟨none, rfl⟩).symm) ?_
    rintro shown records changes ⟨hcleared, -⟩ ⟨price, hprice, rfl⟩
    refine ⟨(chosen records hashes price).map (·.hash), ?_,
      chosen_hashes_perm price (hnodup hcleared) hcleared.listed, ?_⟩
    · rw [map_hash_chosen]
      exact List.filter_sublist
    · rw [List.map_map]
      rfl
  · -- Sharing: one hash chooses one record, which is sent as it is listed.
    have hcalls : callsOf node today server directory typed (.share target hash yes) =
        batchCalls node today server directory typed target [hash] .share none yes :=
      callsOf_eq_batchCalls node today server directory typed rfl
    have hbatch := allOrNothing_batchCalls node today server directory typed target yes
      (rfl : Action.share.isMutation = true) (List.cons_ne_nil hash []) none
    rw [hcalls]
    refine hbatch.imp (fun shown records => (and_iff_left ⟨none, rfl⟩).symm) ?_
    rintro shown records changes ⟨hcleared, -⟩ ⟨price, hprice, rfl⟩
    obtain rfl : none = price := Except.ok.inj hprice
    obtain ⟨record, hmem, hhash, hchosen⟩ :=
      exists_chosen_eq_singleton none (hnodup hcleared) hcleared.listed
    exact ⟨record, hmem, hhash, congrArg (Action.calls .share shown) hchosen⟩
  · -- Hosting: the record is sent with the price that was read.
    have hcalls : callsOf node today server directory typed (.host target hash price yes) =
        batchCalls node today server directory typed target [hash] .host (some price) yes :=
      callsOf_eq_batchCalls node today server directory typed rfl
    have hbatch := allOrNothing_batchCalls node today server directory typed target yes
      (rfl : Action.host.isMutation = true) (List.cons_ne_nil hash []) (some price)
    rw [hcalls]
    refine hbatch.imp (fun shown records => and_congr_right' ?_) ?_
    · simp only [Grid.batchPrice_host_eq_ok_iff]
      constructor
      · rintro ⟨amount, hamount⟩
        exact ⟨some amount, amount, hamount, rfl⟩
      · rintro ⟨-, amount, hamount, -⟩
        exact ⟨amount, hamount⟩
    rintro shown records changes ⟨hcleared, -⟩ ⟨price', hprice, rfl⟩
    obtain ⟨amount, hamount, rfl⟩ := Grid.batchPrice_host_eq_ok_iff.1 hprice
    obtain ⟨record, hmem, hhash, hchosen⟩ :=
      exists_chosen_eq_singleton (some amount) (hnodup hcleared) hcleared.listed
    exact ⟨record, hmem, amount, hhash, hamount, congrArg (Action.calls .host shown) hchosen⟩

end

/-- Two files are asked for in another order than they are listed in, one of them twice. The user
says yes, and each is deleted once, though the node refuses it. -/
theorem stubborn_files_deleted :
    (∀ shown records, Section.parse "hosting" = .ok shown →
      (Office.stubborn (.list shown) ()).1 = .ok records → (records.map (·.hash)).Nodup) ∧
    ["b2", "a1", "b2"] ≠ [] ∧
    Cleared Office.stubborn () ['y', '\n'] "hosting" ["b2", "a1", "b2"] .delete false .hosting
      [.bare "a1" "song.mp3", .bare "b2" "film.mp4"] ∧
    callsOf Office.stubborn default () (.absent "") ['y', '\n']
        (.delete "hosting" ["b2", "a1", "b2"] false) =
      [.list .hosting, .delete .hosting "a1", .delete .hosting "b2", .list .hosting] := by
  have hdistinct : ∀ shown records, Section.parse "hosting" = .ok shown →
      (Office.stubborn (.list shown) ()).1 = .ok records → (records.map (·.hash)).Nodup := by
    intro shown records _ hanswer
    obtain rfl := Except.ok.inj hanswer
    decide
  have hcleared : Cleared Office.stubborn () ['y', '\n'] "hosting" ["b2", "a1", "b2"] .delete false
      .hosting [.bare "a1" "song.mp3", .bare "b2" "film.mp4"] :=
    ⟨by decide, rfl, by decide, by decide, by decide⟩
  obtain ⟨changes, ⟨sent, hsublist, hperm, rfl⟩, hcalls⟩ :=
    ((batch_all_or_nothing Office.stubborn default () (.absent "") ['y', '\n'] "hosting" false
      hdistinct).1 ["b2", "a1", "b2"] (by decide)).all _ _ hcleared
  obtain rfl : sent = ["a1", "b2"] := hsublist.eq_of_length hperm.length_eq
  exact ⟨hdistinct, by decide, hcleared, hcalls⟩

end CommandLine

end FileMarket
