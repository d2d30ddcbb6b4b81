import ComponentKb.Basic
import ComponentKb.Lib.Session

/-!
# Import jobs

The `import_jobs` row (`imports/models.py`) and the functions that write it: the manual retry and
the cancel of the API (`imports/repository.py`), the claim, `_record_transient` and `_mark_failed`
of the worker (`imports/processor.py`), the completion by `persist_draft` /
`_complete_repository_job`, and the dispatcher's `_fail_import` (`dispatch/repository.py`).
-/

namespace ComponentKb.Imports

open ComponentKb.Lib

inductive Status where
  | queued | running | retrying | succeeded | failed | cancelled
  deriving DecidableEq, Repr

/-- `queued`, `running`, `retrying`: the statuses a worker or a cancel may start from. -/
def Status.active : Status → Bool
  | .queued | .running | .retrying => true
  | .succeeded | .failed | .cancelled => false

inductive ParseStatus where
  | parsed | parsedWithWarnings | unsupportedDocument | sourceDrift | invalidMetadata
  | licenseMissing | failed
  deriving DecidableEq, Repr

def ParseStatus.value : ParseStatus → String
  | .parsed => "parsed"
  | .parsedWithWarnings => "parsed_with_warnings"
  | .unsupportedDocument => "unsupported_document"
  | .sourceDrift => "source_drift"
  | .invalidMetadata => "invalid_metadata"
  | .licenseMissing => "license_missing"
  | .failed => "failed"

/-- A row of `import_jobs`. The source, the request and the metrics columns are written once or
never read again, and are left out. -/
structure ImportJob where
  status : Status
  attempts : Nat
  maxAttempts : Nat
  errorCode : Option String
  startedAt : Option Time
  nextRetryAt : Option Time
  finishedAt : Option Time
  updatedAt : Time
  heartbeatAt : Option Time
  draftComponentId : Option UUID
  canonicalUrl : Option String
  repositoryUrl : Option String
  requestedRevision : Option String
  sourceRevision : Option String
  sourceFilePath : Option String
  sourceEntryName : Option String
  parserName : Option String
  parserVersion : Option String
  parseStatus : Option ParseStatus
  warnings : List String
  deriving DecidableEq, Repr

instance : Mapped ImportJob where
  flush l c s :=
    { status := column l.status c.status s.status
      attempts := column l.attempts c.attempts s.attempts
      maxAttempts := column l.maxAttempts c.maxAttempts s.maxAttempts
      errorCode := column l.errorCode c.errorCode s.errorCode
      startedAt := column l.startedAt c.startedAt s.startedAt
      nextRetryAt := column l.nextRetryAt c.nextRetryAt s.nextRetryAt
      finishedAt := column l.finishedAt c.finishedAt s.finishedAt
      updatedAt := column l.updatedAt c.updatedAt s.updatedAt
      heartbeatAt := column l.heartbeatAt c.heartbeatAt s.heartbeatAt
      draftComponentId := column l.draftComponentId c.draftComponentId s.draftComponentId
      canonicalUrl := column l.canonicalUrl c.canonicalUrl s.canonicalUrl
      repositoryUrl := column l.repositoryUrl c.repositoryUrl s.repositoryUrl
      requestedRevision := column l.requestedRevision c.requestedRevision s.requestedRevision
      sourceRevision := column l.sourceRevision c.sourceRevision s.sourceRevision
      sourceFilePath := column l.sourceFilePath c.sourceFilePath s.sourceFilePath
      sourceEntryName := column l.sourceEntryName c.sourceEntryName s.sourceEntryName
      parserName := column l.parserName c.parserName s.parserName
      parserVersion := column l.parserVersion c.parserVersion s.parserVersion
      parseStatus := column l.parseStatus c.parseStatus s.parseStatus
      warnings := column l.warnings c.warnings s.warnings }
  -- ck_import_jobs_attempt_bound, _success_result, _failed_error
  check j := decide (j.attempts ≤ j.maxAttempts) &&
    (j.status != .succeeded || j.draftComponentId.isSome) &&
    (j.status != .failed || j.errorCode.isSome)
  flush_unchanged _ _ := by simp only [column_unchanged]
  flush_fresh _ _ := by simp only [column_fresh]

/-- The columns of a new job (`ImportRepository.add_job`, `add_repository_job`). -/
structure ImportJob.New (job : ImportJob) : Prop where
  status : job.status = .queued
  attempts : job.attempts = 0
  maxAttempts : 1 ≤ job.maxAttempts ∧ job.maxAttempts ≤ 10
  nextRetryAt : job.nextRetryAt = none
  errorCode : job.errorCode = none

/-- `ImportRepository.add_job`. -/
def addJob (maxAttempts : Nat) (now : Time) : ImportJob where
  status := .queued
  attempts := 0
  maxAttempts := maxAttempts
  errorCode := none
  startedAt := none
  nextRetryAt := none
  finishedAt := none
  updatedAt := now
  heartbeatAt := none
  draftComponentId := none
  canonicalUrl := none
  repositoryUrl := none
  requestedRevision := none
  sourceRevision := none
  sourceFilePath := none
  sourceEntryName := none
  parserName := none
  parserVersion := none
  parseStatus := none
  warnings := []

/-- `ImportRepository.add_repository_job`. -/
def addRepositoryJob (repositoryUrl requestedRevision filePath : String)
    (entryName : Option String) (maxAttempts : Nat) (now : Time) : ImportJob :=
  { addJob maxAttempts now with
    repositoryUrl := some repositoryUrl, requestedRevision := some requestedRevision,
    sourceFilePath := some filePath, sourceEntryName := entryName }

theorem addJob_new {maxAttempts : Nat} (now : Time) (h : 1 ≤ maxAttempts ∧ maxAttempts ≤ 10) :
    (addJob maxAttempts now).New := ⟨rfl, rfl, h, rfl, rfl⟩

theorem addRepositoryJob_new {maxAttempts : Nat} (url revision path : String)
    (entry : Option String) (now : Time) (h : 1 ≤ maxAttempts ∧ maxAttempts ≤ 10) :
    (addRepositoryJob url revision path entry maxAttempts now).New := ⟨rfl, rfl, h, rfl, rfl⟩

/-! ## The API -/

/-- `ImportRepository.is_manually_retryable`. -/
def isManuallyRetryable (job : ImportJob) (now lease : Time) : Bool :=
  let leaseReference := job.heartbeatAt.getD job.updatedAt
  let staleBefore := now - lease
  match job.status with
  | .failed => true
  | .running => decide (leaseReference ≤ staleBefore)
  | .retrying =>
    match job.nextRetryAt with
    | some t => decide (t ≤ staleBefore) && decide (leaseReference ≤ staleBefore)
    | none => false
  | _ => false

/-- `ImportRepository.prepare_manual_retry`: `none` is `job_not_retryable`, and the flag says
whether the job was reset. -/
def prepareManualRetry (job : ImportJob) (now lease : Time) : Option (ImportJob × Bool) :=
  if job.status = .queued then some (job, false)
  else if isManuallyRetryable job now lease then
    some ({ job with
      status := .queued, attempts := 0, errorCode := none, startedAt := none, nextRetryAt := none,
      finishedAt := none, heartbeatAt := none, updatedAt := now }, true)
  else none

/-- `ImportRepository.cancel`: `none` is `import_not_cancellable`. -/
def cancel (job : ImportJob) (now : Time) : Option ImportJob :=
  if job.status.active then
    some { job with
      status := .cancelled, errorCode := none, nextRetryAt := none, finishedAt := some now,
      updatedAt := now, heartbeatAt := some now }
  else none

/-! ## The worker -/

/-- `_mark_failed`. -/
def markFailed (code : String) (now : Time) (job : ImportJob) : ImportJob :=
  if job.status = .cancelled then job
  else
    { job with
      status := .failed, errorCode := some (truncate 80 code), finishedAt := some now,
      updatedAt := now, heartbeatAt := some now }

/-- `_backoff_ms`. -/
def backoffMs (attempt : Nat) : Nat := min 60000 (5000 * 2 ^ (attempt - 1))

/-- `_record_transient`, on the row its transaction selected. -/
def recordTransient (now : Time) (job : ImportJob) : ImportJob :=
  if job.status = .succeeded ∨ job.status = .cancelled then job
  else if job.attempts ≥ job.maxAttempts then markFailed "import_retry_exhausted" now job
  else
    { job with
      status := .retrying, errorCode := some "import_transient_failure",
      nextRetryAt := some (now + millis (backoffMs job.attempts)), updatedAt := now,
      heartbeatAt := some now }

/-- What the claim transaction of `process_import_job` decides. -/
inductive Claim where
  | refused
  | sourceDisabled (job : ImportJob)
  | claimed (job : ImportJob)

/-- The claim transaction. `sourceActive` is the result of `active_source`. -/
def claim (sourceActive : Bool) (now lockTtl : Time) (job : ImportJob) : Claim :=
  if ¬ job.status.active ∨ job.attempts ≥ job.maxAttempts then .refused
  else if ¬ sourceActive then .sourceDisabled (markFailed "source_disabled" now job)
  else if job.status = .running ∧ job.updatedAt > now - lockTtl then .refused
  else .claimed
    { job with
      status := .running, attempts := job.attempts + 1, startedAt := some now,
      nextRetryAt := none, updatedAt := now, heartbeatAt := some now }

/-- A parse result that can be persisted: of a page (`persist_draft`) or of a repository entry
(`persist_repository_draft`). -/
inductive Parsed where
  | page (canonicalUrl parserVersion : String)
  | repository (repositoryUrl originalUrl sourceRevision sourceFilePath : String)
      (sourceEntryName : Option String) (parserName parserVersion : String)
      (status : ParseStatus) (warnings : List String)
  deriving DecidableEq, Repr

/-- The job columns that `persist_draft` and `_complete_repository_job` write. -/
def complete (parsed : Parsed) (componentId : UUID) (now : Time) (job : ImportJob) : ImportJob :=
  let done := { job with
    draftComponentId := some componentId, status := .succeeded, errorCode := none,
    finishedAt := some now, updatedAt := now }
  match parsed with
  | .page canonicalUrl parserVersion =>
    { done with canonicalUrl := some canonicalUrl, parserVersion := some parserVersion }
  | .repository repositoryUrl originalUrl revision path entry parser version status warnings =>
    { done with
      repositoryUrl := some repositoryUrl, canonicalUrl := some originalUrl,
      sourceRevision := some revision, sourceFilePath := some path, sourceEntryName := entry,
      parserName := some parser, parserVersion := some version, parseStatus := some status,
      warnings := warnings, heartbeatAt := some now }

/-- The final transaction up to the persistence: `none` when the selected row is already
`succeeded` or `cancelled`. -/
def finish (parsed : Parsed) (componentId : UUID) (now : Time) (job : ImportJob) :
    Option ImportJob :=
  if job.status = .succeeded ∨ job.status = .cancelled then none
  else some (complete parsed componentId now job)

/-! ## The dispatcher -/

/-- The job half of `DispatchRepository._fail_import`. -/
def failImport (now : Time) (job : ImportJob) : ImportJob :=
  if job.status.active then
    { job with
      status := .failed, errorCode := some "import_dispatch_exhausted", nextRetryAt := none,
      finishedAt := some now, heartbeatAt := some now, updatedAt := now }
  else job

/-! ## What each function does to the status -/

@[simp] theorem markFailed_status (code : String) (now : Time) (job : ImportJob) :
    (markFailed code now job).status = if job.status = .cancelled then .cancelled else .failed := by
  unfold markFailed
  split
  · assumption
  · rfl

@[simp] theorem markFailed_attempts (code : String) (now : Time) (job : ImportJob) :
    (markFailed code now job).attempts = job.attempts ∧
      (markFailed code now job).maxAttempts = job.maxAttempts := by
  unfold markFailed
  split <;> exact ⟨rfl, rfl⟩

theorem markFailed_cancelled {code : String} {now : Time} {job : ImportJob}
    (h : job.status = .cancelled) : markFailed code now job = job := if_pos h

@[simp] theorem recordTransient_attempts (now : Time) (job : ImportJob) :
    (recordTransient now job).attempts = job.attempts ∧
      (recordTransient now job).maxAttempts = job.maxAttempts := by
  unfold recordTransient
  split
  · exact ⟨rfl, rfl⟩
  · split
    · exact markFailed_attempts _ _ _
    · exact ⟨rfl, rfl⟩

theorem recordTransient_cancelled {now : Time} {job : ImportJob} (h : job.status = .cancelled) :
    recordTransient now job = job := if_pos (Or.inr h)

/-- On a running job, `_record_transient` ends in `failed` or `retrying` by the attempts left. -/
theorem recordTransient_running (now : Time) {job : ImportJob} (h : job.status = .running) :
    (recordTransient now job).status =
      if job.attempts ≥ job.maxAttempts then .failed else .retrying := by
  unfold recordTransient
  rw [if_neg (by simp [h])]
  split
  · rw [markFailed_status, if_neg (by simp [h])]
  · rfl

theorem cancel_eq_some {job job' : ImportJob} {now : Time} (h : cancel job now = some job') :
    job.status.active = true ∧ job'.status = .cancelled := by
  unfold cancel at h
  split at h
  · rename_i ha
    obtain rfl := Option.some.inj h
    exact ⟨ha, rfl⟩
  · exact absurd h (by simp)

/-- A cancelled job is not retryable. -/
theorem prepareManualRetry_cancelled {job : ImportJob} {now lease : Time}
    (h : job.status = .cancelled) : prepareManualRetry job now lease = none := by
  simp [prepareManualRetry, isManuallyRetryable, h]

theorem claim_cancelled {source : Bool} {now ttl : Time} {job : ImportJob}
    (h : job.status = .cancelled) : claim source now ttl job = .refused :=
  if_pos (Or.inl (by simp [h, Status.active]))

/-- A claimed job is running, and was active with an attempt left. -/
theorem claim_eq_claimed {source : Bool} {now ttl : Time} {job job' : ImportJob}
    (h : claim source now ttl job = .claimed job') :
    job.status.active = true ∧ job.attempts < job.maxAttempts ∧ job'.status = .running ∧
      job'.attempts = job.attempts + 1 ∧ job'.maxAttempts = job.maxAttempts ∧
      job'.nextRetryAt = none ∧ job'.heartbeatAt = some now := by
  unfold claim at h
  split at h
  · exact absurd h (by simp)
  · rename_i h1
    split at h
    · exact absurd h (by simp)
    · split at h
      · exact absurd h (by simp)
      · obtain rfl := Claim.claimed.inj h
        simp only [not_or, Decidable.not_not, ge_iff_le, Nat.not_le] at h1
        exact ⟨h1.1, h1.2, rfl, rfl, rfl, rfl, rfl⟩

theorem failImport_cancelled {now : Time} {job : ImportJob} (h : job.status = .cancelled) :
    failImport now job = job := if_neg (by simp [h, Status.active])

end ComponentKb.Imports
