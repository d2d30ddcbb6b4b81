import ComponentKb.Basic

/-!
# Legacy bundles as background jobs

The part of a `legacy_bundles` row that the dispatch of its job depends on, and the transactions
that write it: the administrator's endpoints (`api/legacy_imports.py`) and the worker
(`legacy/processor.py`). The worker opens a new session for each of its transactions, so it always
reads the row it locks. Items, hashes and the sources of the bundle are left out; what the
endpoints check about them is an input of the event.
-/

namespace ComponentKb.Legacy

inductive Status where
  | uploading | uploaded | analyzing | ready | applying | completed | failed | cancelled
  deriving DecidableEq, Repr

inductive Phase where
  | analysis | apply
  deriving DecidableEq, Repr

structure LegacyBundle where
  status : Status
  phase : Phase
  errorCode : Option String
  updatedAt : Time
  deriving DecidableEq, Repr

/-- `analyzing`, `applying`: the statuses with a background job. -/
def Status.active : Status → Bool
  | .analyzing | .applying => true
  | _ => false

/-- `start_analysis`, on an uploaded bundle. -/
def startAnalysis (now : Time) (bundle : LegacyBundle) : LegacyBundle :=
  { bundle with status := .analyzing, phase := .analysis, updatedAt := now }

/-- A transaction over a bundle that has a dispatch row. -/
inductive Event where
  /-- `apply_bundle`, once the plan is confirmed. -/
  | apply (now : Time)
  | cancel (now : Time)
  /-- `retry_bundle`; `failedItems`: some item failed. -/
  | retry (failedItems : Bool) (now : Time)
  /-- `save_analysis`. -/
  | saveAnalysis (now : Time)
  /-- One item of `run_bundle`, applied or failed. -/
  | item (now : Time)
  /-- `run_bundle` yields to the media queue. -/
  | backpressure (now : Time)
  | complete (now : Time)
  /-- The `except` clause of `process_bundle`. -/
  | fail (code : String) (now : Time)
  deriving DecidableEq, Repr

/-- The bundle after the transaction; `none` when it is refused. -/
def step (bundle : LegacyBundle) : Event → Option LegacyBundle
  | .apply now =>
    if bundle.status = .ready then
      some { bundle with status := .applying, phase := .apply, updatedAt := now }
    else none
  | .cancel now =>
    if bundle.status = .completed ∨ bundle.status = .cancelled then none
    else some { bundle with status := .cancelled, updatedAt := now }
  | .retry failedItems now =>
    if bundle.status = .failed ∨ (bundle.status = .completed ∧ failedItems) then
      some { bundle with
        status := if bundle.phase = .apply then .applying else .analyzing
        errorCode := none
        updatedAt := now }
    else none
  | .saveAnalysis now =>
    if bundle.status = .analyzing then some { bundle with status := .ready, updatedAt := now }
    else none
  | .item now | .backpressure now =>
    if bundle.status = .applying then some { bundle with updatedAt := now } else none
  | .complete now =>
    if bundle.status = .applying then some { bundle with status := .completed, updatedAt := now }
    else none
  | .fail code now =>
    if bundle.status.active then
      some { bundle with status := .failed, errorCode := some (truncate 80 code), updatedAt := now }
    else none

/-- The events whose transaction also resets the dispatch row, with the time of the reset and of
the next attempt. -/
def Event.reset : Event → Option (Time × Time)
  | .apply now | .retry _ now => some (now, now)
  | .backpressure now => some (now, now + seconds 30)
  | _ => none

/-- `legacy_dispatch_exhausted`. -/
def dispatchExhausted (now : Time) (bundle : LegacyBundle) : LegacyBundle :=
  { bundle with
    status := .failed, errorCode := some "legacy_dispatch_exhausted", updatedAt := now }

/-- A bundle becomes active only by a transaction that resets its dispatch row. -/
theorem active_step {bundle bundle' : LegacyBundle} {e : Event} (h : step bundle e = some bundle')
    (hreset : e.reset = none) (hactive : bundle'.status.active = true) :
    bundle.status.active = true := by
  cases e with
  | apply now | retry failed now | backpressure now => exact absurd hreset (by simp [Event.reset])
  | item now =>
    simp only [step] at h
    split at h
    · cases h
      exact hactive
    · cases h
  | cancel now | saveAnalysis now | complete now | fail code now =>
    simp only [step] at h
    split at h <;> cases h
    simp [Status.active] at hactive

end ComponentKb.Legacy
