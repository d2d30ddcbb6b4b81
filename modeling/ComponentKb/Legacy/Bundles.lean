import ComponentKb.Legacy.Items
import ComponentKb.Lib.Runs

/-!
# Legacy bundles as a system

Administrators, workers and the dispatcher over any number of bundles and one catalog. A worker
(`process_bundle`) holds the advisory lock of its bundle, so each bundle has at most one turn; it
may stop at any point, with an exception (`fail`) or without a trace (`crash`), and is started again
by any message. Each of its transactions opens a new session and locks the row that it reads.
`mark_delivery_failed` is the one writer that does not: it reads the status of a bundle and writes
its failure later.

`World.applied` is a record of the items that were applied, in their order; no transaction reads
it.
-/

namespace ComponentKb.Legacy.Bundles

open Catalog Lib

/-- A run of `run_bundle`; `itemIds` are the items left, once the plan was checked. -/
structure Turn where
  bundleId : UUID
  phase : Phase
  zipSha256 : Option String
  xlsxSha256 : Option String
  itemIds : Option (List UUID)
  deriving DecidableEq, Repr

structure World (η : Type) where
  db : Db
  bundles : List (Bundle η)
  turns : List Turn
  exhausted : List UUID
  applied : List Applied
  deriving DecidableEq

/-- A request about one bundle. -/
inductive Request (η : Type) where
  | uploaded (zipSize xlsxSize : Nat) (now : Time)
  | analyze (now : Time)
  | decide (itemId : UUID) (planHash : η) (decision : Decision) (mergeId : Option UUID)
  | apply (planHash : η) (actor : UUID) (now : Time)
  | cancel (now : Time)
  | retry (now : Time)
  deriving DecidableEq

/-- A transaction of the worker of a bundle. -/
inductive Work where
  /-- The lock is taken and the bundle is read. -/
  | start
  | saveAnalysis (analysis : Analysis) (ids : List UUID) (now : Time)
  /-- The files are downloaded and the plan is checked. -/
  | load (zipSha256 xlsxSha256 : String)
  /-- The next item, with the number of media jobs that wait. -/
  | item (pending : Nat) (run : ItemRun)
  | complete (now : Time)
  | fail (code : String) (now : Time)
  | crash
  deriving DecidableEq

inductive Event (η : Type) where
  /-- A transaction of the catalog that is not one of a legacy item. -/
  | catalog (event : Catalog.Event)
  | create (id ownerId : UUID) (zipSize xlsxSize : Nat) (now : Time)
  | request (id : UUID) (request : Request η)
  | work (id : UUID) (work : Work)
  /-- The dispatcher finds that the attempts of an active bundle are used up. -/
  | exhaust (id : UUID)
  | markFailed (id : UUID) (now : Time)

section World

variable {η : Type}

def World.bundle (w : World η) (id : UUID) : Option (Bundle η) := lookup Bundle.id w.bundles id

def World.turn (w : World η) (id : UUID) : Option Turn := lookup Turn.bundleId w.turns id

def World.put (w : World η) (bundle : Bundle η) : World η :=
  { w with bundles := replace Bundle.id w.bundles bundle }

/-- The turn of a bundle ends, and its lock is free. -/
def World.leave (w : World η) (id : UUID) : World η :=
  { w with turns := remove Turn.bundleId w.turns id }

def World.putTurn (w : World η) (turn : Turn) : World η :=
  { w with turns := replace Turn.bundleId w.turns turn }

variable [DecidableEq η] (tools : Tools η)

/-- A request, on the bundle that it locked. -/
def Request.perform (bundle : Bundle η) : Request η → Except CatalogError (Bundle η)
  | .uploaded zipSize xlsxSize now => bundle.completeUpload zipSize xlsxSize now
  | .analyze now => bundle.startAnalysis now
  | .decide itemId planHash decision mergeId =>
    bundle.decide tools itemId planHash decision mergeId
  | .apply planHash actor now => bundle.confirm tools planHash actor now
  | .cancel now => bundle.proceed (.cancel now)
  | .retry now => bundle.retry tools now

/-- The start of `run_bundle`. -/
def startTurn (w : World η) (id : UUID) : Option (World η) :=
  (w.bundle id).bind fun bundle =>
    if bundle.status.active ∧ w.turn id = none then
      some { w with turns := w.turns ++
        [⟨id, bundle.phase, bundle.zipSha256, bundle.xlsxSha256, none⟩] }
    else none

/-- The transaction that saves the plan, if the bundle still waits for it. -/
def storeAnalysis (w : World η) (turn : Turn) (bundle : Bundle η) (analysis : Analysis)
    (ids : List UUID) (now : Time) : Option (World η) :=
  if turn.phase ≠ .analysis then none
  else if bundle.status = .analyzing then
    (saveAnalysis tools w.db bundle analysis ids now).toOption.map fun bundle =>
      (w.put bundle).leave turn.bundleId
  else some (w.leave turn.bundleId)

/-- The check of the files and of the plan before the items. -/
def checkPlan (w : World η) (turn : Turn) (bundle : Bundle η) (zipSha256 xlsxSha256 : String) :
    Option (World η) :=
  if turn.phase = .apply ∧ turn.itemIds = none ∧
      some zipSha256 = turn.zipSha256 ∧ some xlsxSha256 = turn.xlsxSha256 ∧
      bundle.parserVersion = some parserVersion ∧
      some (storedPlanHash tools bundle) = bundle.planHash ∧
      some (reviewHash tools bundle) = bundle.confirmedHash then
    some (w.putTurn { turn with itemIds := some (bundle.items.map LegacyItem.id) })
  else none

/-- One item of the loop of `run_bundle`. -/
def runItem (w : World η) (turn : Turn) (bundle : Bundle η) (pending : Nat) (run : ItemRun) :
    Option (World η) :=
  match turn.itemIds with
  | some (itemId :: rest) =>
    if bundle.status ≠ .applying then some (w.leave turn.bundleId)
    else
      (bundle.item itemId).bind fun item =>
        let next := { turn with itemIds := some rest }
        if item.status.finished then some (w.putTurn next)
        else if 64 ≤ pending then
          (bundle.proceed (.backpressure run.now)).toOption.map fun bundle =>
            (w.put bundle).leave turn.bundleId
        else
          (bundle.proceed (.item run.now)).toOption.map fun next' =>
            match applyItem tools w.db bundle item run with
            | .ok (db, item, applied) =>
              { (w.put (next'.put item)).putTurn next with
                db := db, applied := w.applied ++ applied.toList }
            | .error _ => (w.put (next'.put item.fail)).putTurn next
  | _ => none

/-- The end of `run_bundle`. -/
def completeBundle (w : World η) (turn : Turn) (bundle : Bundle η) (now : Time) :
    Option (World η) :=
  if turn.itemIds = some [] then
    if bundle.status = .applying then
      (bundle.proceed (.complete now)).toOption.map fun bundle =>
        (w.put bundle).leave turn.bundleId
    else some (w.leave turn.bundleId)
  else none

/-- The `except` clause of `process_bundle`. -/
def failBundle (w : World η) (bundle : Bundle η) (code : String) (now : Time) :
    Option (World η) :=
  if bundle.status.active then
    (bundle.proceed (.fail code now)).toOption.map fun bundle => (w.put bundle).leave bundle.id
  else some (w.leave bundle.id)

/-- A transaction of a worker that has a turn. -/
def Work.perform (w : World η) (turn : Turn) (bundle : Bundle η) : Work → Option (World η)
  | .start => none
  | .saveAnalysis analysis ids now => storeAnalysis tools w turn bundle analysis ids now
  | .load zipSha256 xlsxSha256 => checkPlan tools w turn bundle zipSha256 xlsxSha256
  | .item pending run => runItem tools w turn bundle pending run
  | .complete now => completeBundle w turn bundle now
  | .fail code now => failBundle w bundle code now
  | .crash => some (w.leave turn.bundleId)

/-- The transactions of the catalog that belong to no bundle. -/
def ofCatalog : Catalog.Event → Bool
  | .applyItem .. => false
  | _ => true

def step (w : World η) : Event η → Option (World η)
  | .catalog event =>
    if ofCatalog event then
      (Catalog.step tools.catalog w.db event).map fun db => { w with db := db }
    else none
  | .create id ownerId zipSize xlsxSize now =>
    if (w.bundle id).isSome then none
    else
      (createBundle (w.bundles.countP (·.status.pending)) id ownerId zipSize xlsxSize
        now).toOption.map fun bundle => { w with bundles := w.bundles ++ [bundle] }
  | .request id request =>
    (w.bundle id).bind fun bundle => (request.perform tools bundle).toOption.map w.put
  | .work id .start => startTurn w id
  | .work id work =>
    (w.bundle id).bind fun bundle => (w.turn id).bind fun turn => work.perform tools w turn bundle
  | .exhaust id =>
    (w.bundle id).bind fun bundle =>
      if bundle.status.active then some { w with exhausted := w.exhausted ++ [id] } else none
  | .markFailed id now =>
    if id ∈ w.exhausted then
      (w.bundle id).map fun bundle =>
        { w.put { bundle with toLegacyBundle := dispatchExhausted now bundle.toLegacyBundle } with
          exhausted := w.exhausted.erase id }
    else none

end World

end ComponentKb.Legacy.Bundles
