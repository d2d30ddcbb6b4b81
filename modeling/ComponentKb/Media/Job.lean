import ComponentKb.Basic
import ComponentKb.Lib.Session

/-!
# Media assets and media jobs

The rows of `media_assets` and `media_jobs` (`media/models.py`) that the processing of one upload
reads and writes, and the functions that write them: `MediaRepository` (`media/repository.py`) for
the workers, the manual retry and the retention, and the dispatcher's `_fail_media`
(`dispatch/repository.py`). A worker always handles the two rows together, so a `Pair` is the unit
its session copies.
-/

namespace ComponentKb.Media

open ComponentKb.Lib

inductive MediaKind where
  | image | video
  deriving DecidableEq, Repr

inductive MediaStatus where
  | pending | processing | ready | rejected
  deriving DecidableEq, Repr

inductive MediaJobStatus where
  | queued | running | retrying | succeeded | failed
  deriving DecidableEq, Repr

/-- `queued`, `running`, `retrying`: the statuses a worker may start from. -/
def MediaJobStatus.active : MediaJobStatus → Bool
  | .queued | .running | .retrying => true
  | .succeeded | .failed => false

/-- A row of `media_jobs`; the queue and task names follow the kind of the asset. -/
structure MediaJob where
  status : MediaJobStatus
  attempts : Nat
  maxAttempts : Nat
  manualRetryCount : Nat
  errorCode : Option String
  phase : String
  progressPercent : Nat
  startedAt : Option Time
  heartbeatAt : Option Time
  nextRetryAt : Option Time
  lastEnqueuedAt : Option Time
  finishedAt : Option Time
  updatedAt : Time
  deriving DecidableEq, Repr

instance : Mapped MediaJob where
  flush l c s :=
    { status := column l.status c.status s.status
      attempts := column l.attempts c.attempts s.attempts
      maxAttempts := column l.maxAttempts c.maxAttempts s.maxAttempts
      manualRetryCount := column l.manualRetryCount c.manualRetryCount s.manualRetryCount
      errorCode := column l.errorCode c.errorCode s.errorCode
      phase := column l.phase c.phase s.phase
      progressPercent := column l.progressPercent c.progressPercent s.progressPercent
      startedAt := column l.startedAt c.startedAt s.startedAt
      heartbeatAt := column l.heartbeatAt c.heartbeatAt s.heartbeatAt
      nextRetryAt := column l.nextRetryAt c.nextRetryAt s.nextRetryAt
      lastEnqueuedAt := column l.lastEnqueuedAt c.lastEnqueuedAt s.lastEnqueuedAt
      finishedAt := column l.finishedAt c.finishedAt s.finishedAt
      updatedAt := column l.updatedAt c.updatedAt s.updatedAt }
  -- ck_media_jobs_max_attempts, _attempt_bound, _progress
  check j := decide (1 ≤ j.maxAttempts ∧ j.maxAttempts ≤ 10) && decide (j.attempts ≤ j.maxAttempts)
    && decide (j.progressPercent ≤ 100)
  flush_unchanged _ _ := by simp only [column_unchanged]
  flush_fresh _ _ := by simp only [column_fresh]

/-- A row of `media_assets`, as far as processing and retention go: the upload's ownership, texts
and object keys are left out. -/
structure MediaAsset where
  kind : MediaKind
  status : MediaStatus
  declaredMime : String
  detectedMime : Option String
  sizeBytes : Option Nat
  sha256 : Option String
  phash : Option String
  width : Option Nat
  height : Option Nat
  durationMs : Option Nat
  videoCodec : Option String
  audioCodec : Option String
  frameRate : Option Rat
  failureCode : Option String
  uploadExpiresAt : Time
  updatedAt : Time
  storageCleanedAt : Option Time
  deriving DecidableEq, Repr

/-- `ck_media_size`: the bound of the kind. -/
def MediaKind.maxBytes : MediaKind → Nat
  | .image => 8388608
  | .video => 268435456

/-- `ck_media_ready_metadata`. A comparison with `NULL` does not violate a CHECK. -/
def MediaAsset.readyMetadata (a : MediaAsset) : Bool :=
  a.status != .ready ||
    (a.detectedMime.isSome && a.sizeBytes.isSome && a.sha256.all (·.length == 64) &&
      a.width.all (0 < ·) && a.height.all (0 < ·) &&
      match a.kind with
      | .image => a.phash.all (·.length == 16)
      | .video =>
        a.durationMs.all (0 < ·) && a.videoCodec.isSome &&
          a.frameRate.all fun r => decide (0 < r) && decide (r ≤ 30))

instance : Mapped MediaAsset where
  flush l c s :=
    { kind := column l.kind c.kind s.kind
      status := column l.status c.status s.status
      declaredMime := column l.declaredMime c.declaredMime s.declaredMime
      detectedMime := column l.detectedMime c.detectedMime s.detectedMime
      sizeBytes := column l.sizeBytes c.sizeBytes s.sizeBytes
      sha256 := column l.sha256 c.sha256 s.sha256
      phash := column l.phash c.phash s.phash
      width := column l.width c.width s.width
      height := column l.height c.height s.height
      durationMs := column l.durationMs c.durationMs s.durationMs
      videoCodec := column l.videoCodec c.videoCodec s.videoCodec
      audioCodec := column l.audioCodec c.audioCodec s.audioCodec
      frameRate := column l.frameRate c.frameRate s.frameRate
      failureCode := column l.failureCode c.failureCode s.failureCode
      uploadExpiresAt := column l.uploadExpiresAt c.uploadExpiresAt s.uploadExpiresAt
      updatedAt := column l.updatedAt c.updatedAt s.updatedAt
      storageCleanedAt := column l.storageCleanedAt c.storageCleanedAt s.storageCleanedAt }
  -- ck_media_size, _ready_metadata, _rejected_failure, _storage_cleaned_rejected
  check a := a.sizeBytes.all (fun n => decide (1 ≤ n) && decide (n ≤ a.kind.maxBytes)) &&
    a.readyMetadata && (a.status != .rejected || a.failureCode.isSome) &&
    (a.storageCleanedAt.isNone || a.status == .rejected)
  flush_unchanged _ _ := by simp only [column_unchanged]
  flush_fresh _ _ := by simp only [column_fresh]

/-- The job and the asset it processes. -/
abbrev Pair := MediaJob × MediaAsset

/-- `MediaRepository.start_processing`. -/
def startProcessing (asset : MediaAsset) (maxAttempts : Nat) (now : Time) : Pair :=
  ({ status := .queued, attempts := 0, maxAttempts := maxAttempts, manualRetryCount := 0,
     errorCode := none, phase := "queued", progressPercent := 0, startedAt := none,
     heartbeatAt := none, nextRetryAt := none, lastEnqueuedAt := none, finishedAt := none,
     updatedAt := now },
    { asset with status := .processing, updatedAt := now })

/-- The rows of an upload that was just confirmed. -/
structure Started (row : Pair) : Prop where
  status : row.1.status = .queued
  attempts : row.1.attempts = 0
  maxAttempts : 1 ≤ row.1.maxAttempts ∧ row.1.maxAttempts ≤ 10
  nextRetryAt : row.1.nextRetryAt = none
  asset : row.2.status = .processing

theorem startProcessing_started (asset : MediaAsset) {maxAttempts : Nat} (now : Time)
    (h : 1 ≤ maxAttempts ∧ maxAttempts ≤ 10) : Started (startProcessing asset maxAttempts now) :=
  ⟨rfl, rfl, h, rfl, rfl⟩

/-- The new rows meet their CHECK constraints when the pending asset does. -/
theorem check_startProcessing {asset : MediaAsset} {maxAttempts : Nat} (now : Time)
    (hpending : asset.status = .pending) (h : Mapped.check asset = true)
    (hmax : 1 ≤ maxAttempts ∧ maxAttempts ≤ 10) :
    Mapped.check (startProcessing asset maxAttempts now) = true := by
  simp only [Mapped.check, Bool.and_eq_true, Bool.or_eq_true, hpending] at h
  obtain ⟨⟨⟨hsize, -⟩, -⟩, hcleaned⟩ := h
  have hnone : asset.storageCleanedAt.isNone = true := hcleaned.resolve_right (by decide)
  have hjob : Mapped.check (startProcessing asset maxAttempts now).1 = true := by
    simp [Mapped.check, startProcessing, hmax]
  have hasset : Mapped.check (startProcessing asset maxAttempts now).2 = true := by
    simp only [Mapped.check, Bool.and_eq_true]
    exact ⟨⟨⟨hsize, rfl⟩, rfl⟩, by rw [startProcessing, hnone]; rfl⟩
  exact Bool.and_eq_true_iff.mpr ⟨hjob, hasset⟩

/-! ## The worker -/

/-- What `MediaRepository.claim_job` decides. -/
inductive Claim where
  | refused
  | exhausted (row : Pair)
  | claimed (row : Pair)

/-- `MediaRepository.claim_job`. -/
def claimJob (now : Time) (leaseSeconds : Nat) (row : Pair) : Claim :=
  let (job, asset) := row
  let leaseReference := job.heartbeatAt.orElse fun _ => job.startedAt
  if ¬ job.status.active then .refused
  else if job.status = .retrying ∧ job.nextRetryAt.any (now < ·) then .refused
  else if job.status = .running ∧ leaseReference.any (now - seconds leaseSeconds < ·) then .refused
  else if job.attempts ≥ job.maxAttempts then
    .exhausted
      ({ job with
          status := .failed, phase := "failed", errorCode := some "media_attempts_exhausted",
          finishedAt := some now, updatedAt := now },
        { asset with
          status := .rejected, failureCode := some "media_attempts_exhausted", updatedAt := now })
  else
    .claimed
      ({ job with
          status := .running, attempts := job.attempts + 1, phase := "starting",
          progressPercent := max job.progressPercent 1, startedAt := some now,
          heartbeatAt := some now, nextRetryAt := none, updatedAt := now },
        asset)

/-- `MediaRepository.update_job_progress`. -/
def updateJobProgress (phase : String) (percent : Nat) (now : Time) (row : Pair) : Pair :=
  ({ row.1 with
      phase := phase, progressPercent := max row.1.progressPercent percent,
      heartbeatAt := some now, updatedAt := now },
    row.2)

/-- The result of `process_image` or of the video tools, as far as it is stored. -/
inductive Processed where
  | image (detectedMime : String) (sizeBytes : Nat) (sha256 phash : String) (width height : Nat)
  | video (detectedMime : String) (sizeBytes : Nat) (sha256 : String) (width height : Nat)
      (durationMs : Nat) (videoCodec : String) (audioCodec : Option String) (frameRate : Rat)
  deriving DecidableEq, Repr

/-- The names of the `media_variants` rows stored with a result. -/
def Processed.variants : Processed → List String
  | .image .. => ["320w", "800w", "1600w"]
  | .video .. => ["video_720p", "poster"]

/-- `complete_job` and `complete_video_job`, but for the variants. -/
def completeJob (processed : Processed) (now : Time) (row : Pair) : Pair :=
  let asset := { row.2 with status := .ready, failureCode := none, updatedAt := now }
  ({ row.1 with
      status := .succeeded, phase := "completed", progressPercent := 100, finishedAt := some now,
      heartbeatAt := some now, nextRetryAt := none, updatedAt := now, errorCode := none },
    match processed with
    | .image mime size sha phash width height =>
      { asset with
        detectedMime := some mime, sizeBytes := some size, sha256 := some sha, phash := some phash,
        width := some width, height := some height }
    | .video mime size sha width height duration codec audio rate =>
      { asset with
        detectedMime := some mime, sizeBytes := some size, sha256 := some sha, width := some width,
        height := some height, durationMs := some duration, videoCodec := some codec,
        audioCodec := audio, frameRate := some rate })

/-- `MediaRepository.reject_job`. -/
def rejectJob (code : String) (now : Time) (row : Pair) : Pair :=
  ({ row.1 with
      status := .failed, phase := "failed", errorCode := some code, finishedAt := some now,
      heartbeatAt := some now, nextRetryAt := none, updatedAt := now },
    { row.2 with status := .rejected, failureCode := some code, updatedAt := now })

/-- The error codes and the retry delay of a processor's `record_storage_failure` calls. -/
structure FailurePolicy where
  transientCode : String
  terminalCode : String
  delaySeconds : Nat → Nat

/-- `process_media_job` keeps the default codes, `process_video_job` passes its own. -/
def MediaKind.failurePolicy : MediaKind → FailurePolicy
  | .image => ⟨"media_storage_transient", "media_storage_failed",
      fun attempts => min 60 (5 * 2 ^ (attempts - 1))⟩
  | .video => ⟨"media_processing_transient", "media_processing_failed",
      fun attempts => min 120 (15 * 2 ^ (attempts - 1))⟩

/-- `MediaRepository.record_storage_failure`, as the processor of the asset's kind calls it. -/
def recordStorageFailure (now : Time) (row : Pair) : Pair :=
  let (job, asset) := row
  let policy := asset.kind.failurePolicy
  if job.attempts ≥ job.maxAttempts then
    ({ job with
        status := .failed, phase := "failed", errorCode := some policy.terminalCode,
        updatedAt := now, heartbeatAt := some now, nextRetryAt := none, finishedAt := some now },
      { asset with
        status := .rejected, failureCode := some policy.terminalCode, updatedAt := now })
  else
    ({ job with
        status := .retrying, phase := "retrying", errorCode := some policy.transientCode,
        updatedAt := now, heartbeatAt := some now,
        nextRetryAt := some (now + seconds (policy.delaySeconds job.attempts)) },
      asset)

/-! ## The API, the dispatcher and the retention -/

/-- `MediaRepository.prepare_manual_retry`: `none` is `job_not_retryable`, and the flag says
whether the job was reset. -/
def prepareManualRetry (now : Time) (row : Pair) : Option (Pair × Bool) :=
  let (job, asset) := row
  if job.status = .queued then some (row, false)
  else if job.status ≠ .failed then none
  else if asset.storageCleanedAt.isSome then none
  else
    some
      (({ job with
          status := .queued, phase := "queued", progressPercent := 0, attempts := 0,
          manualRetryCount := job.manualRetryCount + 1, errorCode := none, startedAt := none,
          finishedAt := none, heartbeatAt := none, nextRetryAt := none, updatedAt := now },
        { asset with status := .processing, failureCode := none, updatedAt := now }), true)

/-- The job and asset half of `DispatchRepository._fail_media`. -/
def failMedia (now : Time) (row : Pair) : Pair :=
  let (job, asset) := row
  if job.status.active then
    ({ job with
        status := .failed, phase := "failed", errorCode := some "media_dispatch_exhausted",
        nextRetryAt := none, finishedAt := some now, heartbeatAt := some now, updatedAt := now },
      { asset with
        status := .rejected, failureCode := some "media_dispatch_exhausted", updatedAt := now })
  else row

/-- What `mark_delivered` writes to the job of the delivered row. -/
def markEnqueued (now : Time) (row : Pair) : Pair :=
  ({ row.1 with lastEnqueuedAt := some now, updatedAt := now }, row.2)

/-- `retention_candidates`, on one asset. -/
def retentionCandidate (cutoff : Time) (asset : MediaAsset) : Bool :=
  asset.storageCleanedAt.isNone &&
    ((asset.status == .rejected && decide (asset.updatedAt ≤ cutoff)) ||
      (asset.status == .pending && decide (asset.uploadExpiresAt ≤ cutoff)))

/-- `MediaRepository.mark_storage_cleaned`. -/
def markStorageCleaned (reason : String) (now : Time) (row : Pair) : Pair :=
  let asset :=
    if row.2.status = .pending then
      { row.2 with status := .rejected, failureCode := some reason }
    else row.2
  (row.1, { asset with storageCleanedAt := some now, updatedAt := now })

/-! ## What each function does to the two statuses -/

/-- A claimed job was active, and leaves the claim running with no retry time. -/
theorem claimJob_eq_claimed {now : Time} {lease : Nat} {row row' : Pair}
    (h : claimJob now lease row = .claimed row') :
    row.1.status.active = true ∧ row'.1.status = .running ∧ row'.1.nextRetryAt = none ∧
      row'.2 = row.2 := by
  unfold claimJob at h
  simp only at h
  split at h
  · exact absurd h (by simp)
  · rename_i hactive
    split at h
    · exact absurd h (by simp)
    · split at h
      · exact absurd h (by simp)
      · split at h
        · exact absurd h (by simp)
        · obtain rfl := Claim.claimed.inj h
          exact ⟨Decidable.not_not.mp hactive, rfl, rfl, rfl⟩

theorem claimJob_eq_exhausted {now : Time} {lease : Nat} {row row' : Pair}
    (h : claimJob now lease row = .exhausted row') :
    row.1.status.active = true ∧ row'.1.status = .failed ∧ row'.2.status = .rejected := by
  unfold claimJob at h
  simp only at h
  split at h
  · exact absurd h (by simp)
  · rename_i hactive
    split at h
    · exact absurd h (by simp)
    · split at h
      · exact absurd h (by simp)
      · split at h
        · obtain rfl := Claim.exhausted.inj h
          exact ⟨Decidable.not_not.mp hactive, rfl, rfl⟩
        · exact absurd h (by simp)

@[simp] theorem completeJob_status (processed : Processed) (now : Time) (row : Pair) :
    (completeJob processed now row).1.status = .succeeded ∧
      (completeJob processed now row).2.status = .ready := by
  cases processed <;> exact ⟨rfl, rfl⟩

/-- A storage failure with attempts left schedules a retry and leaves the asset; the last one
rejects the asset. -/
theorem recordStorageFailure_status (now : Time) (row : Pair) :
    (row.1.attempts ≥ row.1.maxAttempts ∧ (recordStorageFailure now row).1.status = .failed ∧
      (recordStorageFailure now row).2.status = .rejected) ∨
    (row.1.attempts < row.1.maxAttempts ∧ (recordStorageFailure now row).1.status = .retrying ∧
      (recordStorageFailure now row).1.nextRetryAt.isSome ∧
      (recordStorageFailure now row).2 = row.2) := by
  unfold recordStorageFailure
  simp only
  split
  · rename_i h
    exact Or.inl ⟨h, rfl, rfl⟩
  · rename_i h
    exact Or.inr ⟨Nat.not_le.mp h, rfl, rfl, rfl⟩

/-- A retry that is accepted finds the job queued, or failed with the upload still stored. -/
theorem prepareManualRetry_eq_some {now : Time} {row row' : Pair} {reset : Bool}
    (h : prepareManualRetry now row = some (row', reset)) :
    (row.1.status = .queued ∧ row' = row) ∨
      (row.1.status = .failed ∧ row'.1.status = .queued ∧ row'.1.nextRetryAt = none ∧
        row'.2.status = .processing) := by
  unfold prepareManualRetry at h
  simp only at h
  split at h
  · rename_i hq
    obtain ⟨rfl, -⟩ := Prod.mk.inj (Option.some.inj h)
    exact Or.inl ⟨hq, rfl⟩
  · split at h
    · exact absurd h (by simp)
    · rename_i hf
      split at h
      · exact absurd h (by simp)
      · obtain ⟨rfl, -⟩ := Prod.mk.inj (Option.some.inj h)
        exact Or.inr ⟨Decidable.not_not.mp hf, rfl, rfl, rfl⟩

/-- `_fail_media` rejects the asset of an active job and leaves the others. -/
theorem failMedia_status (now : Time) (row : Pair) :
    (row.1.status.active = true ∧ (failMedia now row).1.status = .failed ∧
      (failMedia now row).2.status = .rejected) ∨
    (row.1.status.active = false ∧ failMedia now row = row) := by
  unfold failMedia
  simp only
  split
  · rename_i h
    exact Or.inl ⟨h, rfl, rfl⟩
  · rename_i h
    exact Or.inr ⟨by simpa using h, rfl⟩

/-- The retention touches no asset that is being processed or ready. -/
theorem markStorageCleaned_status {cutoff : Time} {row : Pair} (reason : String) (now : Time)
    (h : retentionCandidate cutoff row.2 = true) :
    (markStorageCleaned reason now row).1 = row.1 ∧
      (markStorageCleaned reason now row).2.status = .rejected ∧ row.2.status ≠ .ready := by
  simp only [retentionCandidate, Bool.and_eq_true, Bool.or_eq_true, beq_iff_eq] at h
  unfold markStorageCleaned
  rcases h.2 with ⟨hs, -⟩ | ⟨hs, -⟩
  · simp [hs]
  · simp [hs]

end ComponentKb.Media
