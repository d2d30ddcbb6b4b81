import ComponentKb.Basic

/-!
# Dispatch rows

A row of `job_dispatches` (`dispatch/models.py`) and what `DispatchRepository`
(`dispatch/repository.py`) writes to it. The job type of a row is the type of the job it belongs
to, so only the queue is kept here.
-/

namespace ComponentKb.Dispatch

inductive QueueName where
  | imports | images | videos | legacy
  deriving DecidableEq, Repr

inductive DispatchStatus where
  | pending | delivered | failed
  deriving DecidableEq, Repr

structure JobDispatch where
  queueName : QueueName
  status : DispatchStatus
  attempts : Nat
  maxAttempts : Nat
  nextAttemptAt : Time
  lastAttemptAt : Option Time
  deliveredAt : Option Time
  errorCode : Option String
  updatedAt : Time
  deriving DecidableEq, Repr

/-- `ck_job_dispatches_max_attempts`, `ck_job_dispatches_attempt_bound`. -/
def JobDispatch.check (d : JobDispatch) : Bool :=
  decide (1 ≤ d.maxAttempts ∧ d.maxAttempts ≤ 10) && decide (d.attempts ≤ d.maxAttempts)

/-- `DispatchRepository.add`. -/
def add (queue : QueueName) (maxAttempts : Nat) (now : Time) : JobDispatch where
  queueName := queue
  status := .pending
  attempts := 0
  maxAttempts := maxAttempts
  nextAttemptAt := now
  lastAttemptAt := none
  deliveredAt := none
  errorCode := none
  updatedAt := now

/-- `DispatchRepository.reset` of a row that exists. -/
def JobDispatch.reset (d : JobDispatch) (queue : QueueName) (maxAttempts : Nat) (now : Time) :
    JobDispatch :=
  { d with
    queueName := queue, status := .pending, attempts := 0, maxAttempts := maxAttempts,
    nextAttemptAt := now, lastAttemptAt := none, deliveredAt := none, errorCode := none,
    updatedAt := now }

/-- `_make_pending`. -/
def JobDispatch.makePending (d : JobDispatch) (now : Time) : JobDispatch :=
  { d with status := .pending, nextAttemptAt := now, errorCode := none, updatedAt := now }

/-- The WHERE clause of `claim_due`. -/
def JobDispatch.due (d : JobDispatch) (now : Time) : Bool :=
  d.status == .pending && decide (d.nextAttemptAt ≤ now) && decide (d.attempts < d.maxAttempts)

/-- What `claim_due` does to a row it selected. -/
def JobDispatch.claim (d : JobDispatch) (now : Time) (claimLeaseSeconds : Nat) : JobDispatch :=
  { d with
    attempts := d.attempts + 1, lastAttemptAt := some now,
    nextAttemptAt := now + seconds claimLeaseSeconds, updatedAt := now }

/-- The row of a delivered intent (`mark_delivered`). -/
def JobDispatch.deliver (d : JobDispatch) (now : Time) : JobDispatch :=
  { d with
    status := .delivered, deliveredAt := some now, nextAttemptAt := now, errorCode := none,
    updatedAt := now }

/-- `_backoff_seconds`. -/
def backoffSeconds (attempt : Nat) : Nat := min 60 (5 * 2 ^ (attempt - 1))

/-- The row of a failed delivery with attempts left (`mark_delivery_failed`). -/
def JobDispatch.reschedule (d : JobDispatch) (now : Time) : JobDispatch :=
  { d with
    errorCode := some "broker_unavailable",
    nextAttemptAt := now + seconds (backoffSeconds d.attempts), updatedAt := now }

/-- The dispatch half of `_fail_import` and `_fail_media`. -/
def JobDispatch.fail (d : JobDispatch) (now : Time) : JobDispatch :=
  { d with
    status := .failed, errorCode := some "dispatch_attempts_exhausted", nextAttemptAt := now,
    updatedAt := now }

/-- The failed row of a legacy bundle: its times stay. -/
def JobDispatch.failLegacy (d : JobDispatch) : JobDispatch :=
  { d with status := .failed, errorCode := some "dispatch_attempts_exhausted" }

/-- The intent of a delivered row whose job may still be waiting, by the state of the job
(`_recover_imports` and `_recover_media`). -/
def JobDispatch.lost (d : JobDispatch) (queued retrying running : Bool)
    (nextRetryAt heartbeatAt : Option Time) (now : Time) (staleSeconds leaseSeconds : Nat) : Bool :=
  d.status == .delivered &&
    ((queued && d.deliveredAt.any fun t => decide (t ≤ now - seconds staleSeconds)) ||
      (retrying && nextRetryAt.any fun t => decide (t ≤ now)) ||
      (running && heartbeatAt.all fun t => decide (t ≤ now - seconds leaseSeconds)))

/-! ## Selectable from some time on -/

/-- A query selects the row at every time from some point on. -/
def Eventually (selects : Time → Bool) : Prop := ∃ t, ∀ now, t ≤ now → selects now = true

/-- **A pending row with attempts left is due from its next attempt on.** -/
theorem due_eventually {d : JobDispatch} (hstatus : d.status = .pending)
    (hlt : d.attempts < d.maxAttempts) : Eventually d.due :=
  ⟨d.nextAttemptAt, fun now hnow => by simp [JobDispatch.due, hstatus, hlt, hnow]⟩

theorem lt_of_due {d : JobDispatch} {now : Time} (h : d.due now = true) :
    d.attempts < d.maxAttempts := by
  simp only [JobDispatch.due, Bool.and_eq_true, decide_eq_true_eq] at h
  exact h.2

/-- **A delivered row is found again**, whatever active state its job is in, once its deadline has
passed. -/
theorem lost_eventually {d : JobDispatch} {queued retrying running : Bool}
    {nextRetryAt heartbeatAt : Option Time} {staleSeconds leaseSeconds : Nat}
    (hstatus : d.status = .delivered) (hdelivered : d.deliveredAt.isSome)
    (hactive : queued = true ∨ retrying = true ∨ running = true)
    (hretry : retrying = true → nextRetryAt.isSome) :
    Eventually fun now =>
      d.lost queued retrying running nextRetryAt heartbeatAt now staleSeconds leaseSeconds := by
  rcases hactive with rfl | hretrying | rfl
  · obtain ⟨t, ht⟩ := Option.isSome_iff_exists.mp hdelivered
    refine ⟨t + seconds staleSeconds, fun now hnow => ?_⟩
    have hle : t ≤ now - seconds staleSeconds := Int.le_sub_right_of_add_le hnow
    simp [JobDispatch.lost, hstatus, ht, hle]
  · obtain ⟨t, ht⟩ := Option.isSome_iff_exists.mp (hretry hretrying)
    refine ⟨t, fun now hnow => ?_⟩
    simp [JobDispatch.lost, hstatus, hretrying, ht, hnow]
  · cases hheartbeat : heartbeatAt with
    | none => exact ⟨0, fun now _ => by simp [JobDispatch.lost, hstatus]⟩
    | some t =>
      refine ⟨t + seconds leaseSeconds, fun now hnow => ?_⟩
      have hle : t ≤ now - seconds leaseSeconds := Int.le_sub_right_of_add_le hnow
      simp [JobDispatch.lost, hstatus, hle]

end ComponentKb.Dispatch
