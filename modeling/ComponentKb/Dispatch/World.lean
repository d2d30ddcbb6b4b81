import ComponentKb.Dispatch.Row
import ComponentKb.Imports.Revive
import ComponentKb.Media.Revive
import ComponentKb.Legacy.Bundle

/-!
# Reconcilers, jobs and their dispatch rows

Every background job has one row of `job_dispatches`. A pass of `reconcile_once`
(`dispatch/reconciler.py`) recovers lost deliveries and claims due rows in one transaction, then
sends each claimed intent to the broker and acknowledges it, `mark_delivered` or
`mark_delivery_failed`, in a transaction of its own. Any number of passes interleave with each other
and with the transactions of the jobs (`Imports.step`, `Media.step`, `Legacy.step`), and a pass may
stop between any two of its steps. A reconciler that starts again is a new pass.

`FOR UPDATE SKIP LOCKED` with a LIMIT selects some of the rows that match: the batches are part of
the event. Next to the columns, a `Cell` counts the claims of its row, and keeps the count at the
last reset and the latest claim that was sent; no transaction reads these.
-/

namespace ComponentKb.Dispatch

open ComponentKb.Lib

/-- The `job_dispatch_*` settings and the two leases `reconcile_once` passes on. -/
structure Settings where
  staleSeconds : Nat
  importLeaseSeconds : Nat
  mediaLeaseSeconds : Nat
  claimLeaseSeconds : Nat
  batchSize : Nat

/-! ## Jobs -/

inductive Job where
  | imports (s : Imports.State)
  | media (s : Media.State)
  | legacy (bundle : Legacy.LegacyBundle)

/-- `_job_is_active`. -/
def Job.active : Job → Bool
  | .imports s => s.job.status.active
  | .media s => s.row.1.status.active
  | .legacy bundle => bundle.status.active

/-- The status a terminal failure handler leaves. -/
def Job.failed : Job → Bool
  | .imports s => s.job.status == .failed
  | .media s => s.row.1.status == .failed
  | .legacy bundle => bundle.status == .failed

inductive JobEvent where
  | imports (e : Imports.Event)
  | media (e : Media.Event)
  | legacy (e : Legacy.Event)
  deriving DecidableEq, Repr

/-- The dispatch row a transaction of the job resets: its queue, its attempts, the time of the
reset and of the next attempt. -/
structure Reset where
  queueName : QueueName
  maxAttempts : Nat
  now : Time
  nextAttemptAt : Time

def mediaQueue : Media.MediaKind → QueueName
  | .image => .images
  | .video => .videos

/-- A transaction of the job itself. The events of the dispatcher are its own. -/
def Job.step : Job → JobEvent → Option (Job × Option Reset)
  | .imports _, .imports (.failImport _) => none
  | .imports s, .imports (.retry now lease) =>
    (Imports.step s (.retry now lease)).map fun s' =>
      (.imports s', some ⟨.imports, s'.job.maxAttempts, now, now⟩)
  | .imports s, .imports e => (Imports.step s e).map fun s' => (.imports s', none)
  | .media _, .media (.failMedia _) => none
  | .media _, .media (.markEnqueued _) => none
  | .media s, .media (.retry now) =>
    (Media.step s (.retry now)).map fun s' =>
      (.media s', some ⟨mediaQueue s'.row.2.kind, s'.row.1.maxAttempts, now, now⟩)
  | .media s, .media e => (Media.step s e).map fun s' => (.media s', none)
  | .legacy bundle, .legacy e =>
    (Legacy.step bundle e).map fun bundle' =>
      (.legacy bundle', e.reset.map fun (now, next) => ⟨.legacy, 4, now, next⟩)
  | _, _ => none

/-- What the terminal failure handlers do to the job. -/
def Job.exhaust (now : Time) : Job → Job
  | .imports s => .imports (s.commit (Imports.failImport now))
  | .media s => .media (s.commit (Media.failMedia now))
  | .legacy bundle => .legacy (Legacy.dispatchExhausted now bundle)

/-- What `mark_delivered` does to the job. -/
def Job.enqueued (now : Time) : Job → Job
  | .media s => .media (s.commit (Media.markEnqueued now))
  | job => job

/-! ## Cells -/

/-- A job, its dispatch row, and the history of the row's claims. -/
structure Cell where
  dispatch : JobDispatch
  job : Job
  claims : Nat
  resetAt : Nat
  sentUpTo : Nat

/-- `dispatch.status = "failed"` in the handlers, by job type. -/
def Cell.failDispatch (cell : Cell) (now : Time) : JobDispatch :=
  match cell.job with
  | .legacy _ => cell.dispatch.failLegacy
  | _ => cell.dispatch.fail now

/-- The terminal failure handler: `_fail_import`, `_fail_media`, or its legacy counterpart. -/
def Cell.exhaust (cell : Cell) (now : Time) : Cell :=
  { cell with dispatch := cell.failDispatch now, job := cell.job.exhaust now }

/-- The WHERE clauses of `recover_lost_deliveries`. -/
def Cell.lost (st : Settings) (cell : Cell) (now : Time) : Bool :=
  match cell.job with
  | .imports s =>
    cell.dispatch.lost (s.job.status == .queued) (s.job.status == .retrying)
      (s.job.status == .running) s.job.nextRetryAt s.job.heartbeatAt now st.staleSeconds
      st.importLeaseSeconds
  | .media s =>
    cell.dispatch.lost (s.row.1.status == .queued) (s.row.1.status == .retrying)
      (s.row.1.status == .running) s.row.1.nextRetryAt s.row.1.heartbeatAt now st.staleSeconds
      st.mediaLeaseSeconds
  | .legacy bundle =>
    cell.dispatch.status == .delivered && bundle.status.active &&
      decide (bundle.updatedAt < now - seconds 1800)

/-- What `recover_lost_deliveries` does to a row it selected. -/
def Cell.recover (cell : Cell) (now : Time) : Cell :=
  if cell.dispatch.attempts ≥ cell.dispatch.maxAttempts then cell.exhaust now
  else
    { cell with
      dispatch := cell.dispatch.makePending now
      job :=
        match cell.job with
        | .legacy bundle => .legacy { bundle with updatedAt := now }
        | job => job }

def Cell.due (cell : Cell) (now : Time) : Bool := cell.dispatch.due now

def Cell.claim (st : Settings) (cell : Cell) (now : Time) : Cell :=
  { cell with
    dispatch := cell.dispatch.claim now st.claimLeaseSeconds
    claims := cell.claims + 1 }

/-- `mark_delivered` after a successful send, `mark_delivery_failed` after a failed one. -/
def Cell.acknowledge (cell : Cell) (sent : Bool) (now : Time) : Cell :=
  if cell.dispatch.status ≠ .pending then cell
  else if ¬ cell.job.active then { cell with dispatch := cell.dispatch.deliver now }
  else if sent then
    { cell with dispatch := cell.dispatch.deliver now, job := cell.job.enqueued now }
  else if cell.dispatch.attempts ≥ cell.dispatch.maxAttempts then cell.exhaust now
  else { cell with dispatch := cell.dispatch.reschedule now }

/-- The row after a transaction of its job. -/
def Cell.applyReset (cell : Cell) (job : Job) : Option Reset → Cell
  | none => { cell with job := job }
  | some r =>
    { cell with
      dispatch :=
        { cell.dispatch.reset r.queueName r.maxAttempts r.now with
          nextAttemptAt := r.nextAttemptAt }
      job := job
      resetAt := cell.claims }

/-! ## The system -/

/-- A claimed intent: `DispatchIntent`, and which of the row's claims it is. -/
structure Intent where
  dispatchId : UUID
  queueName : QueueName
  attempt : Nat
  claim : Nat
  deriving DecidableEq, Repr

/-- The intents a pass has not acknowledged; `sent` is the outcome of sending the first. -/
structure Pass where
  intents : List Intent
  sent : Option Bool
  deriving DecidableEq, Repr

structure World where
  cells : UUID → Option Cell
  passes : Nat → Option Pass

/-- A job that is created together with its dispatch row. -/
inductive NewJob where
  | page (maxAttempts : Nat)
  | repository (url revision path : String) (entry : Option String) (maxAttempts : Nat)
  | media (asset : Media.MediaAsset) (maxAttempts : Nat)
  | legacy (bundle : Legacy.LegacyBundle)
  deriving DecidableEq, Repr

/-- The attempts of the new row; a legacy bundle has four. -/
def NewJob.maxAttempts : NewJob → Nat
  | .page n | .repository _ _ _ _ n | .media _ n => n
  | .legacy _ => 4

/-- `confirm_upload` starts from a pending asset, `start_analysis` from an uploaded bundle. -/
def NewJob.ready : NewJob → Bool
  | .page _ | .repository .. => true
  | .media asset _ => asset.status == .pending && Mapped.check asset
  | .legacy bundle => bundle.status == .uploaded

def NewJob.cell (now : Time) (new : NewJob) : Cell :=
  let row := fun queue job => ⟨add queue new.maxAttempts now, job, 0, 0, 0⟩
  match new with
  | .page n => row .imports (.imports ⟨Imports.addJob n now, [], fun _ => none⟩)
  | .repository url revision path entry n =>
    row .imports
      (.imports ⟨Imports.addRepositoryJob url revision path entry n now, [], fun _ => none⟩)
  | .media asset n =>
    row (mediaQueue asset.kind) (.media ⟨Media.startProcessing asset n now, [], fun _ => none⟩)
  | .legacy bundle => row .legacy (.legacy (Legacy.startAnalysis now bundle))

inductive Event where
  | add (id : UUID) (job : NewJob) (now : Time)
  | job (id : UUID) (e : JobEvent)
  | reconcile (reconciler : Nat) (recovered claimed : List UUID) (now : Time)
  | send (reconciler : Nat) (sent : Bool)
  | acknowledge (reconciler : Nat) (now : Time)
  | crash (reconciler : Nat)
  deriving DecidableEq, Repr

def World.setCell (w : World) (id : UUID) (cell : Cell) : World :=
  { w with cells := Function.update w.cells id (some cell) }

def World.setPass (w : World) (reconciler : Nat) (pass : Option Pass) : World :=
  { w with passes := Function.update w.passes reconciler pass }

/-- The rows of a batch, changed by one transaction. -/
def World.batch (w : World) (ids : List UUID) (f : Cell → Cell) : World :=
  { w with cells := fun id => if id ∈ ids then (w.cells id).map f else w.cells id }

/-- The batch may be what a query with this WHERE clause and LIMIT returns. -/
def World.selects (w : World) (ids : List UUID) (limit : Nat) (where_ : Cell → Bool) : Bool :=
  decide ids.Nodup && decide (ids.length ≤ limit) && ids.all fun id => (w.cells id).any where_

def Cell.intent (id : UUID) (cell : Cell) : Intent :=
  ⟨id, cell.dispatch.queueName, cell.dispatch.attempts, cell.claims⟩

/-- A pass that has acknowledged all its intents is over. -/
def passOf (intents : List Intent) : Option Pass :=
  if intents.isEmpty then none else some ⟨intents, none⟩

/-- The first transaction of a pass. -/
def reconcileStep (st : Settings) (w : World) (reconciler : Nat) (recovered claimed : List UUID)
    (now : Time) : Option World :=
  if w.selects recovered st.batchSize (Cell.lost st · now) then
    let w₁ := w.batch recovered (Cell.recover · now)
    if w₁.selects claimed st.batchSize (Cell.due · now) then
      let w₂ := w₁.batch claimed (Cell.claim st · now)
      some (w₂.setPass reconciler
        (passOf (claimed.filterMap fun id => (w₂.cells id).map (Cell.intent id))))
    else none
  else none

def step (st : Settings) (w : World) : Event → Option World
  | .add id new now =>
    let cell := new.cell now
    if (w.cells id).isNone ∧ new.ready ∧ cell.dispatch.check then some (w.setCell id cell) else none
  | .job id e =>
    match w.cells id with
    | none => none
    | some cell =>
      match cell.job.step e with
      | none => none
      | some (job, reset) =>
        let cell' := cell.applyReset job reset
        if cell'.dispatch.check then some (w.setCell id cell') else none
  | .reconcile reconciler recovered claimed now =>
    match w.passes reconciler with
    | some _ => none
    | none => reconcileStep st w reconciler recovered claimed now
  | .send reconciler sent =>
    match w.passes reconciler with
    | some ⟨intent :: rest, none⟩ =>
      let w₁ := w.setPass reconciler (some ⟨intent :: rest, some sent⟩)
      if sent then
        some (w₁.batch [intent.dispatchId] fun cell =>
          { cell with sentUpTo := max cell.sentUpTo intent.claim })
      else some w₁
    | _ => none
  | .acknowledge reconciler now =>
    match w.passes reconciler with
    | some ⟨intent :: rest, some sent⟩ =>
      some ((w.setPass reconciler (passOf rest)).batch [intent.dispatchId]
        (Cell.acknowledge · sent now))
    | _ => none
  | .crash reconciler => (w.passes reconciler).map fun _ => w.setPass reconciler none

/-- No job and no pass. -/
def World.empty : World := ⟨fun _ => none, fun _ => none⟩

/-- The reconciler has an intent of the row to send or to acknowledge. -/
def World.holds (w : World) (reconciler : Nat) (id : UUID) : Bool :=
  (w.passes reconciler).any fun pass => pass.intents.any (·.dispatchId == id)

/-! ## Cells and passes under the updates -/

@[simp] theorem setCell_cells_self (w : World) (id : UUID) (cell : Cell) :
    (w.setCell id cell).cells id = some cell := Function.update_self ..

theorem setCell_cells_ne (w : World) {id id' : UUID} (cell : Cell) (h : id' ≠ id) :
    (w.setCell id cell).cells id' = w.cells id' := Function.update_of_ne h ..

@[simp] theorem setCell_passes (w : World) (id : UUID) (cell : Cell) :
    (w.setCell id cell).passes = w.passes := rfl

@[simp] theorem setPass_cells (w : World) (r : Nat) (pass : Option Pass) :
    (w.setPass r pass).cells = w.cells := rfl

@[simp] theorem setPass_passes_self (w : World) (r : Nat) (pass : Option Pass) :
    (w.setPass r pass).passes r = pass := Function.update_self ..

theorem setPass_passes_ne (w : World) {r r' : Nat} (pass : Option Pass) (h : r' ≠ r) :
    (w.setPass r pass).passes r' = w.passes r' := Function.update_of_ne h ..

@[simp] theorem batch_passes (w : World) (ids : List UUID) (f : Cell → Cell) :
    (w.batch ids f).passes = w.passes := rfl

/-- A row after a batch is the row before it, changed when it is in the batch. -/
theorem batch_cells_eq_some {w : World} {ids : List UUID} {f : Cell → Cell} {id : UUID}
    {cell : Cell} :
    (w.batch ids f).cells id = some cell ↔
      ∃ before, w.cells id = some before ∧ cell = if id ∈ ids then f before else before := by
  unfold World.batch
  simp only
  split
  · rw [Option.map_eq_some_iff]
    exact ⟨fun ⟨a, ha, he⟩ => ⟨a, ha, he.symm⟩, fun ⟨a, ha, he⟩ => ⟨a, ha, he.symm⟩⟩
  · exact ⟨fun h => ⟨cell, h, rfl⟩, fun ⟨a, ha, he⟩ => he ▸ ha⟩

/-- A selected row is there and matches. -/
theorem selects_mem {w : World} {ids : List UUID} {limit : Nat} {where_ : Cell → Bool} {id : UUID}
    {cell : Cell} (h : w.selects ids limit where_ = true) (hid : id ∈ ids)
    (hcell : w.cells id = some cell) : where_ cell = true := by
  simp only [World.selects, Bool.and_eq_true, List.all_eq_true] at h
  have hany := h.2 id hid
  rwa [hcell] at hany

theorem passOf_eq_some {intents : List Intent} {pass : Pass} (h : passOf intents = some pass) :
    pass = ⟨intents, none⟩ := by
  unfold passOf at h
  split at h
  · exact absurd h (by simp)
  · exact (Option.some.inj h).symm

theorem any_passOf (intents : List Intent) (p : Intent → Bool) :
    (passOf intents).any (fun pass => pass.intents.any p) = intents.any p := by
  unfold passOf
  split
  · rename_i h
    rw [List.isEmpty_iff.mp h]
    rfl
  · rfl

theorem holds_iff {w : World} {r : Nat} {id : UUID} :
    w.holds r id = true ↔
      ∃ pass, w.passes r = some pass ∧ ∃ intent ∈ pass.intents, intent.dispatchId = id := by
  unfold World.holds
  cases hpass : w.passes r with
  | none => simp
  | some pass => simp

end ComponentKb.Dispatch
