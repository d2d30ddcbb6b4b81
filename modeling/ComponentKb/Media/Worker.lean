import ComponentKb.Media.Job
import ComponentKb.Lib.Runs

/-!
# Media workers over one asset

`process_media_job` and `process_video_job` (`media/processor.py`, `media/video_processor.py`)
claim a job in one transaction and end it in another, over the copies of the two rows that the
claim left in the session: the exit does not select them again and takes no lock. Between the two a
video worker reports its progress. The steps of any number of workers interleave with the manual
retry, the dispatcher's `_fail_media` and its `mark_delivered`, and the retention. A worker that
crashes takes no further step.

* `copies_step`: between claim and exit a copy says `running` and has no retry time, so the status
  an exit writes always reaches the row.
* `coherent_step`: a step other than a failure write onto a succeeded job keeps "ready exactly when
  succeeded".
* `media_stable`: along a run without such writes, every state is coherent and a ready asset with a
  succeeded job keeps its result.
-/

namespace ComponentKb.Media

open ComponentKb.Lib

/-! ## The system -/

/-- One asset: its two rows, the names of its variants, and the copies of the workers that claimed
the job and have not ended their turn. -/
structure State where
  row : Pair
  variants : List String
  turns : Nat → Option Pair

inductive Event where
  | claim (worker : Nat) (now : Time) (leaseSeconds : Nat)
  | progress (worker : Nat) (phase : String) (percent : Nat) (now : Time)
  | complete (worker : Nat) (processed : Processed) (now : Time)
  | reject (worker : Nat) (code : String) (now : Time)
  | fail (worker : Nat) (now : Time)
  | retry (now : Time)
  | failMedia (now : Time)
  | markEnqueued (now : Time)
  | clean (cutoff : Time) (reason : String) (now : Time)
  deriving DecidableEq, Repr

def State.setTurn (s : State) (worker : Nat) (turn : Option Pair) : State :=
  { s with turns := Function.update s.turns worker turn }

/-- A transaction of a session that holds no copy of the rows. -/
def State.commit (s : State) (f : Pair → Pair) : State :=
  { s with row := (transact none f s.row).stored }

/-- The transaction that ends a turn, over the copy in its session. -/
def State.exit (s : State) (worker : Nat) (copy : Pair) (f : Pair → Pair) : State :=
  { s.setTurn worker none with row := (transact (some copy) f s.row).stored }

/-- The claim transaction of a new turn. -/
def claimStep (s : State) (worker : Nat) (now : Time) (lease : Nat) : State :=
  match claimJob now lease s.row with
  | .refused => s
  | .exhausted row => s.commit fun _ => row
  | .claimed row =>
    let done := transact none (fun _ => row) s.row
    { s.setTurn worker done.copy with row := done.stored }

/-- `uq_media_variants_asset_variant` refuses a second set of variants, and with it the whole
transaction. -/
def completeStep (s : State) (worker : Nat) (copy : Pair) (processed : Processed) (now : Time) :
    State :=
  if processed.variants.any (· ∈ s.variants) then s.setTurn worker none
  else
    { s.exit worker copy (completeJob processed now) with
      variants :=
        if (transact (some copy) (completeJob processed now) s.row).copy.isSome then
          s.variants ++ processed.variants
        else s.variants }

def step (s : State) : Event → Option State
  | .claim worker now lease =>
    match s.turns worker with
    | none => some (claimStep s worker now lease)
    | some _ => none
  | .progress worker phase percent now =>
    match s.turns worker with
    | some copy =>
      if copy.2.kind = .video then
        let done := transact (some copy) (updateJobProgress phase percent now) s.row
        some { s.setTurn worker done.copy with row := done.stored }
      else none
    | none => none
  | .complete worker processed now =>
    (s.turns worker).map fun copy => completeStep s worker copy processed now
  | .reject worker code now =>
    (s.turns worker).map fun copy => s.exit worker copy (rejectJob code now)
  | .fail worker now =>
    (s.turns worker).map fun copy => s.exit worker copy (recordStorageFailure now)
  | .retry now => (prepareManualRetry now s.row).map fun r => s.commit fun _ => r.1
  | .failMedia now => some (s.commit (failMedia now))
  | .markEnqueued now => some (s.commit (markEnqueued now))
  | .clean cutoff reason now =>
    if retentionCandidate cutoff s.row.2 then some (s.commit (markStorageCleaned reason now))
    else none

/-- An upload that was just confirmed: no variants, no turn. -/
structure State.Initial (s : State) : Prop where
  row : Started s.row
  variants : s.variants = []
  turns : ∀ worker, s.turns worker = none

/-- The asset is ready exactly when its job succeeded. -/
def Coherent (s : State) : Prop := s.row.2.status = .ready ↔ s.row.1.status = .succeeded

/-- Every state is coherent, and from the first state with a ready asset and a succeeded job on,
the job status stays and the asset does not become rejected. -/
def MediaStable (s : State) (es : List Event) : Prop :=
  Always step Coherent s es ∧
    Stays step (fun s => s.row.2.status = .ready ∧ s.row.1.status = .succeeded)
      (fun a b => b.row.1.status = a.row.1.status ∧
        (b.row.2.status = .rejected → a.row.2.status = .rejected)) s es

/-- **The stale failure**: the job has succeeded and a worker that claimed it earlier ends its turn
by `reject_job` or `record_storage_failure`. -/
def staleFailure (s : State) : Event → Bool
  | .reject worker _ _ | .fail worker _ =>
    s.row.1.status == .succeeded && (s.turns worker).isSome
  | _ => false

/-! ## What a transaction leaves in the statuses -/

/-- Over a copy, a transaction either commits nothing or writes the two statuses and the retry time
as columns. -/
theorem transact_columns (copy : Pair) (f : Pair → Pair) (stored : Pair) :
    (transact (some copy) f stored).stored = stored ∨
      ((transact (some copy) f stored).stored.1.status =
          column copy.1.status (f copy).1.status stored.1.status ∧
        (transact (some copy) f stored).stored.1.nextRetryAt =
          column copy.1.nextRetryAt (f copy).1.nextRetryAt stored.1.nextRetryAt ∧
        (transact (some copy) f stored).stored.2.status =
          column copy.2.status (f copy).2.status stored.2.status) := by
  rcases transact_stored_eq_or (some copy) f stored with h | h
  · exact Or.inl h
  · rw [h]
    exact Or.inr ⟨rfl, rfl, rfl⟩

/-- A fresh session writes what its function says, or nothing. -/
theorem commit_row (s : State) (f : Pair → Pair) :
    (s.commit f).row = s.row ∨ (s.commit f).row = f s.row := by
  have h : (s.commit f).row = (transact none f s.row).stored := rfl
  rw [h, transact_none]
  split
  · exact Or.inr rfl
  · exact Or.inl rfl

/-! ## The copies -/

/-- **What the copies say**, whatever the rows say by then; and a retrying job has a retry time. -/
structure Copies (s : State) : Prop where
  running : ∀ worker copy, s.turns worker = some copy →
    copy.1.status = .running ∧ copy.1.nextRetryAt = none
  retryAt : s.row.1.status = .retrying → s.row.1.nextRetryAt.isSome

theorem turns_update {s : State} {P : Pair → Prop} (worker : Nat) {turn : Option Pair}
    (h : ∀ w copy, s.turns w = some copy → P copy) (hturn : ∀ copy, turn = some copy → P copy) :
    ∀ w copy, Function.update s.turns worker turn w = some copy → P copy := by
  intro w copy hcopy
  by_cases hw : w = worker
  · subst hw
    rw [Function.update_self] at hcopy
    exact hturn copy hcopy
  · rw [Function.update_of_ne hw] at hcopy
    exact h w copy hcopy

/-- A transaction over a running copy keeps the retry time of a retrying job. -/
theorem transact_retryAt {copy stored : Pair} {f : Pair → Pair}
    (hcopy : copy.1.status = .running ∧ copy.1.nextRetryAt = none)
    (hstored : stored.1.status = .retrying → stored.1.nextRetryAt.isSome)
    (hf : (f copy).1.status = .retrying → (f copy).1.nextRetryAt.isSome)
    (hkeep : (f copy).1.status = .running → (f copy).1.nextRetryAt = none)
    (h : (transact (some copy) f stored).stored.1.status = .retrying) :
    (transact (some copy) f stored).stored.1.nextRetryAt.isSome := by
  rcases transact_columns copy f stored with h' | ⟨h1, h2, -⟩
  · rw [h'] at h ⊢
    exact hstored h
  · rw [h1] at h
    rw [h2]
    refine column_isSome hstored (fun _ hx => ⟨hcopy.2, hf hx⟩) (fun hc => Or.inl ?_) h
    rw [hkeep (hc.trans hcopy.1), hcopy.2]

theorem Copies.exit {s : State} (h : Copies s) {worker : Nat} {copy : Pair} {f : Pair → Pair}
    (hturn : s.turns worker = some copy)
    (hf : (f copy).1.status = .retrying → (f copy).1.nextRetryAt.isSome)
    (hend : (f copy).1.status ≠ .running) : Copies (s.exit worker copy f) where
  running := turns_update worker h.running fun _ hno => absurd hno (by simp)
  retryAt := transact_retryAt (h.running worker copy hturn) h.retryAt hf fun hno => absurd hno hend

theorem Copies.commit {s : State} (h : Copies s) {f : Pair → Pair}
    (hf : (f s.row).1.status = .retrying → (f s.row).1.nextRetryAt.isSome) :
    Copies (s.commit f) where
  running := h.running
  retryAt := by
    rcases commit_row s f with hrow | hrow <;> rw [hrow]
    · exact h.retryAt
    · exact hf

theorem copies_step {s s' : State} {e : Event} (h : Copies s) (hs : step s e = some s') :
    Copies s' := by
  cases e with
  | claim worker now lease =>
    simp only [step] at hs
    split at hs
    · cases hs
      unfold claimStep
      split
      · exact h
      · rename_i row hrow
        refine h.commit fun hno => ?_
        rw [(claimJob_eq_exhausted hrow).2.1] at hno
        exact absurd hno (by simp)
      · rename_i row hrow
        obtain ⟨-, hrunning, hnone, -⟩ := claimJob_eq_claimed hrow
        refine ⟨turns_update worker h.running fun copy hcopy => ?_, ?_⟩
        · rw [transact_copy hcopy]
          exact ⟨hrunning, hnone⟩
        · refine (h.commit (f := fun _ => row) fun hno => ?_).retryAt
          rw [hrunning] at hno
          exact absurd hno (by simp)
    · cases hs
  | progress worker phase percent now =>
    simp only [step] at hs
    split at hs
    · rename_i copy hcopy
      split at hs
      · cases hs
        have hrunning := h.running worker copy hcopy
        refine ⟨turns_update worker h.running fun copy' hcopy' => ?_, ?_⟩
        · rw [transact_copy hcopy']
          exact hrunning
        · refine transact_retryAt hrunning h.retryAt (fun hno => ?_) fun _ => hrunning.2
          rw [show (updateJobProgress phase percent now copy).1.status = copy.1.status from rfl,
            hrunning.1] at hno
          exact absurd hno (by simp)
      · cases hs
    · cases hs
  | complete worker processed now =>
    obtain ⟨copy, hcopy, rfl⟩ := Option.map_eq_some_iff.mp hs
    have hexit := h.exit hcopy (f := completeJob processed now) (by simp) (by simp)
    unfold completeStep
    split
    · exact ⟨turns_update worker h.running fun _ hno => absurd hno (by simp), h.retryAt⟩
    · exact ⟨hexit.running, hexit.retryAt⟩
  | reject worker code now =>
    obtain ⟨copy, hcopy, rfl⟩ := Option.map_eq_some_iff.mp hs
    exact h.exit hcopy (by simp [rejectJob]) (by simp [rejectJob])
  | fail worker now =>
    obtain ⟨copy, hcopy, rfl⟩ := Option.map_eq_some_iff.mp hs
    rcases recordStorageFailure_status now copy with ⟨-, hst, -⟩ | ⟨-, hst, hat, -⟩
    · exact h.exit hcopy (by simp [hst]) (by simp [hst])
    · exact h.exit hcopy (fun _ => hat) (by simp [hst])
  | retry now =>
    obtain ⟨⟨row, reset⟩, hrow, rfl⟩ := Option.map_eq_some_iff.mp hs
    refine h.commit fun hno => ?_
    rcases prepareManualRetry_eq_some hrow with ⟨hq, rfl⟩ | ⟨-, hq, -, -⟩
    · rw [hq] at hno
      exact absurd hno (by simp)
    · rw [hq] at hno
      exact absurd hno (by simp)
  | failMedia now =>
    cases hs
    refine h.commit fun hno => ?_
    rcases failMedia_status now s.row with ⟨-, hf, -⟩ | ⟨hinactive, hf⟩
    · rw [hf] at hno
      exact absurd hno (by simp)
    · rw [hf] at hno
      simp [hno, MediaJobStatus.active] at hinactive
  | markEnqueued now =>
    cases hs
    exact h.commit h.retryAt
  | clean cutoff reason now =>
    simp only [step] at hs
    split at hs
    · rename_i hc
      cases hs
      refine h.commit ?_
      rw [(markStorageCleaned_status reason now hc).1]
      exact h.retryAt
    · cases hs

theorem State.Initial.copies {s : State} (h : s.Initial) : Copies s where
  running worker _ hno := absurd hno (by simp [h.turns worker])
  retryAt hno := absurd hno (by simp [h.row.status])

/-! ## Coherence -/

/-- **The invariant.** Coherence, and no copy that says `ready`. -/
structure Fresh (s : State) : Prop where
  copies : Copies s
  coherent : Coherent s
  processing : ∀ worker copy, s.turns worker = some copy → copy.2.status ≠ .ready

theorem State.Initial.fresh {s : State} (h : s.Initial) : Fresh s where
  copies := h.copies
  coherent := by simp [Coherent, h.row.asset, h.row.status]
  processing worker _ hno := absurd hno (by simp [h.turns worker])

/-- A job that is active is not succeeded, so a coherent asset is not ready. -/
theorem Coherent.not_ready {s : State} (h : Coherent s) (hactive : s.row.1.status.active = true) :
    s.row.2.status ≠ .ready := by
  intro hready
  rw [h.mp hready] at hactive
  exact absurd hactive (by decide)

/-- A fresh transaction keeps coherence when its function does. -/
theorem coherent_commit {s : State} {f : Pair → Pair} (h : Coherent s)
    (hf : (f s.row).2.status = .ready ↔ (f s.row).1.status = .succeeded) :
    Coherent (s.commit f) := by
  unfold Coherent
  rcases commit_row s f with hrow | hrow <;> rw [hrow]
  · exact h
  · exact hf

/-- A result written over a copy is coherent: both statuses differ from the copy's. -/
theorem coherent_complete {s : State} (worker : Nat) {copy : Pair} {processed : Processed}
    {now : Time} (h : Fresh s) (hturn : s.turns worker = some copy) :
    Coherent (s.exit worker copy (completeJob processed now)) := by
  obtain ⟨hjob, hasset⟩ := completeJob_status processed now copy
  have hrunning := (h.copies.running worker copy hturn).1
  have hprocessing := h.processing worker copy hturn
  unfold Coherent State.exit
  rcases transact_columns copy (completeJob processed now) s.row with h' | ⟨h1, -, h2⟩
  · simp only [h']
    exact h.coherent
  · simp only [h1, h2, hjob, hasset]
    rw [column_changed (Ne.symm hprocessing), column_changed (by simp [hrunning])]
    exact ⟨fun _ => rfl, fun _ => rfl⟩

/-- A failure written onto a job that has not succeeded leaves the asset unready. -/
theorem coherent_failure {s : State} {worker : Nat} {copy : Pair} {f : Pair → Pair}
    (h : Fresh s) (hturn : s.turns worker = some copy) (hlive : s.row.1.status ≠ .succeeded)
    (hjob : (f copy).1.status = .failed ∨ (f copy).1.status = .retrying)
    (hasset : (f copy).2.status = .rejected ∨ (f copy).2 = copy.2) :
    Coherent (s.exit worker copy f) := by
  have hrunning := (h.copies.running worker copy hturn).1
  have hunready : s.row.2.status ≠ .ready := fun hready => hlive (h.coherent.mp hready)
  unfold Coherent State.exit
  rcases transact_columns copy f s.row with h' | ⟨h1, -, h2⟩
  · simp only [h']
    exact h.coherent
  · have hstatus : (f copy).1.status ≠ copy.1.status := by
      rcases hjob with hj | hj <;> simp [hj, hrunning]
    have hnot : (f copy).1.status ≠ .succeeded := by
      rcases hjob with hj | hj <;> simp [hj]
    have hwritten : column copy.2.status (f copy).2.status s.row.2.status = s.row.2.status ∨
        column copy.2.status (f copy).2.status s.row.2.status = (f copy).2.status := column_eq_or
    have hpending : column copy.2.status (f copy).2.status s.row.2.status ≠ .ready := by
      rcases hwritten with hc | hc
      · rwa [hc]
      · rw [hc]
        rcases hasset with ha | ha
        · simp [ha]
        · rw [ha]
          exact h.processing worker copy hturn
    simp only [h1, h2]
    rw [column_changed hstatus]
    exact ⟨fun hno => absurd hno hpending, fun hno => absurd hno hnot⟩

/-- What a step that is no stale failure does to coherence. -/
theorem coherent_step {s s' : State} {e : Event} (h : Fresh s) (hok : staleFailure s e = false)
    (hs : step s e = some s') : Coherent s' := by
  cases e with
  | claim worker now lease =>
    simp only [step] at hs
    split at hs
    · cases hs
      unfold claimStep
      split
      · exact h.coherent
      · rename_i row hrow
        obtain ⟨-, hjob, hasset⟩ := claimJob_eq_exhausted hrow
        exact coherent_commit h.coherent (by simp [hjob, hasset])
      · rename_i row hrow
        obtain ⟨hactive, hjob, -, hasset⟩ := claimJob_eq_claimed hrow
        have hunready := h.coherent.not_ready hactive
        exact coherent_commit (f := fun _ => row) h.coherent (by simp [hjob, hasset, hunready])
    · cases hs
  | progress worker phase percent now =>
    simp only [step] at hs
    split at hs
    · rename_i copy hcopy
      split at hs
      · cases hs
        unfold Coherent
        rcases transact_columns copy (updateJobProgress phase percent now) s.row with h' | ⟨h1, -, h2⟩
        · simp only [h']
          exact h.coherent
        · simp only [h1, h2, updateJobProgress, column_unchanged]
          exact h.coherent
      · cases hs
    · cases hs
  | complete worker processed now =>
    obtain ⟨copy, hcopy, rfl⟩ := Option.map_eq_some_iff.mp hs
    unfold completeStep
    split
    · exact h.coherent
    · exact coherent_complete worker h hcopy
  | reject worker code now =>
    obtain ⟨copy, hcopy, rfl⟩ := Option.map_eq_some_iff.mp hs
    have hlive : s.row.1.status ≠ .succeeded := by simpa [staleFailure, hcopy] using hok
    exact coherent_failure h hcopy hlive (Or.inl rfl) (Or.inl rfl)
  | fail worker now =>
    obtain ⟨copy, hcopy, rfl⟩ := Option.map_eq_some_iff.mp hs
    have hlive : s.row.1.status ≠ .succeeded := by simpa [staleFailure, hcopy] using hok
    rcases recordStorageFailure_status now copy with ⟨-, hj, ha⟩ | ⟨-, hj, -, ha⟩
    · exact coherent_failure h hcopy hlive (Or.inl hj) (Or.inl ha)
    · exact coherent_failure h hcopy hlive (Or.inr hj) (Or.inr ha)
  | retry now =>
    obtain ⟨⟨row, reset⟩, hrow, rfl⟩ := Option.map_eq_some_iff.mp hs
    refine coherent_commit h.coherent ?_
    rcases prepareManualRetry_eq_some hrow with ⟨-, rfl⟩ | ⟨-, hj, -, ha⟩
    · exact h.coherent
    · simp [hj, ha]
  | failMedia now =>
    cases hs
    refine coherent_commit h.coherent ?_
    rcases failMedia_status now s.row with ⟨-, hj, ha⟩ | ⟨-, hrow⟩
    · simp [hj, ha]
    · rw [hrow]
      exact h.coherent
  | markEnqueued now =>
    cases hs
    exact coherent_commit h.coherent h.coherent
  | clean cutoff reason now =>
    simp only [step] at hs
    split at hs
    · rename_i hc
      cases hs
      obtain ⟨hj, ha, hunready⟩ := markStorageCleaned_status reason now hc
      refine coherent_commit h.coherent ?_
      rw [hj, ha]
      exact ⟨fun hno => absurd hno (by simp), fun hno => absurd (h.coherent.mpr hno) hunready⟩
    · cases hs

/-- A claim copies an asset that is not ready; the other steps copy nothing new. -/
theorem processing_step {s s' : State} {e : Event} (h : Fresh s) (hs : step s e = some s') :
    ∀ worker copy, s'.turns worker = some copy → copy.2.status ≠ .ready := by
  cases e with
  | claim worker now lease =>
    simp only [step] at hs
    split at hs
    · cases hs
      unfold claimStep
      split
      · exact h.processing
      · exact h.processing
      · rename_i row hrow
        obtain ⟨hactive, -, -, hasset⟩ := claimJob_eq_claimed hrow
        refine turns_update worker h.processing fun copy hcopy => ?_
        rw [transact_copy hcopy, hasset]
        exact h.coherent.not_ready hactive
    · cases hs
  | progress worker phase percent now =>
    simp only [step] at hs
    split at hs
    · rename_i copy hcopy
      split at hs
      · cases hs
        refine turns_update worker h.processing fun copy' hcopy' => ?_
        rw [transact_copy hcopy']
        exact h.processing worker copy hcopy
      · cases hs
    · cases hs
  | complete worker processed now =>
    obtain ⟨copy, hcopy, rfl⟩ := Option.map_eq_some_iff.mp hs
    unfold completeStep
    split <;> exact turns_update worker h.processing fun _ hno => absurd hno (by simp)
  | reject worker _ _ | fail worker _ =>
    obtain ⟨copy, hcopy, rfl⟩ := Option.map_eq_some_iff.mp hs
    exact turns_update worker h.processing fun _ hno => absurd hno (by simp)
  | retry now =>
    obtain ⟨_, _, rfl⟩ := Option.map_eq_some_iff.mp hs
    exact h.processing
  | failMedia now | markEnqueued now =>
    cases hs
    exact h.processing
  | clean cutoff reason now =>
    simp only [step] at hs
    split at hs
    · cases hs
      exact h.processing
    · cases hs

theorem fresh_step {s s' : State} {e : Event} (h : Fresh s) (hok : staleFailure s e = false)
    (hs : step s e = some s') : Fresh s' :=
  ⟨copies_step h.copies hs, coherent_step h hok hs, processing_step h hs⟩

/-! ## Stability -/

/-- Writing back the status that was loaded, or the stored one, leaves the stored one. -/
theorem commit_status {s : State} {f : Pair → Pair} (h : (f s.row).1.status = s.row.1.status) :
    (s.commit f).row.1.status = s.row.1.status := by
  rcases commit_row s f with hrow | hrow <;> rw [hrow]
  exact h

/-- **A step other than a stale failure leaves the status of a succeeded job.** -/
theorem succeeded_step {s s' : State} {e : Event} (h : Fresh s) (hok : staleFailure s e = false)
    (hs : step s e = some s') (hdone : s.row.1.status = .succeeded) :
    s'.row.1.status = .succeeded := by
  cases e with
  | claim worker now lease =>
    simp only [step] at hs
    split at hs
    · cases hs
      have hrefused : claimJob now lease s.row = .refused := by
        unfold claimJob
        simp [hdone, MediaJobStatus.active]
      rw [claimStep, hrefused]
      exact hdone
    · cases hs
  | progress worker phase percent now =>
    simp only [step] at hs
    split at hs
    · rename_i copy hcopy
      split at hs
      · cases hs
        rcases transact_columns copy (updateJobProgress phase percent now) s.row with h' | ⟨h1, -, -⟩
        · simp only [h']
          exact hdone
        · simp only [h1, updateJobProgress, column_unchanged]
          exact hdone
      · cases hs
    · cases hs
  | complete worker processed now =>
    obtain ⟨copy, hcopy, rfl⟩ := Option.map_eq_some_iff.mp hs
    unfold completeStep
    split
    · exact hdone
    · rcases transact_columns copy (completeJob processed now) s.row with h' | ⟨h1, -, -⟩
      · simp only [State.exit, h']
        exact hdone
      · simp only [State.exit, h1, completeJob_status]
        rw [column_changed (by simp [(h.copies.running worker copy hcopy).1])]
  | reject worker code now | fail worker now =>
    obtain ⟨copy, hcopy, rfl⟩ := Option.map_eq_some_iff.mp hs
    simp [staleFailure, hdone, hcopy] at hok
  | retry now =>
    obtain ⟨⟨row, reset⟩, hrow, rfl⟩ := Option.map_eq_some_iff.mp hs
    rcases prepareManualRetry_eq_some hrow with ⟨hq, -⟩ | ⟨hf, -⟩
    · exact absurd (hq.symm.trans hdone) (by simp)
    · exact absurd (hf.symm.trans hdone) (by simp)
  | failMedia now =>
    cases hs
    rcases failMedia_status now s.row with ⟨hactive, -⟩ | ⟨-, hrow⟩
    · rw [hdone] at hactive
      exact absurd hactive (by decide)
    · rw [commit_status (by rw [hrow])]
      exact hdone
  | markEnqueued now =>
    cases hs
    rw [commit_status (by rfl)]
    exact hdone
  | clean cutoff reason now =>
    simp only [step] at hs
    split at hs
    · rename_i hc
      cases hs
      rw [commit_status (by rw [(markStorageCleaned_status reason now hc).1])]
      exact hdone
    · cases hs

/-- An image of which only the reservation is known. -/
def newAsset : MediaAsset where
  kind := .image
  status := .pending
  declaredMime := "image/png"
  detectedMime := none
  sizeBytes := none
  sha256 := none
  phash := none
  width := none
  height := none
  durationMs := none
  videoCodec := none
  audioCodec := none
  frameRate := none
  failureCode := none
  uploadExpiresAt := 0
  updatedAt := 0
  storageCleanedAt := none

/-- An image upload that was just confirmed, with three attempts. -/
def newState : State := ⟨startProcessing newAsset 3 0, [], fun _ => none⟩

theorem newState_initial : newState.Initial :=
  ⟨startProcessing_started newAsset 0 (by decide), rfl, fun _ => rfl⟩

/-- A digest of 64 and a perceptual hash of 16 characters. -/
def newResult : Processed :=
  .image "image/png" 4 "0123456789abcdef0123456789abcdef0123456789abcdef0123456789abcdef"
    "0123456789abcdef" 2 2

/-- **Media results are stable along every run without stale failures.** -/
theorem media_stable {s : State} {es : List Event} (hs : s.Initial)
    (hok : Along step (fun s e _ => staleFailure s e = false) s es) : MediaStable s es := by
  have hstep : ∀ a e b, Fresh a → staleFailure a e = false → step a e = some b → Fresh b :=
    fun _ _ _ h hok hstep => fresh_step h hok hstep
  refine ⟨always_of_inv hstep (fun _ h => h.coherent) hs.fresh hok, ?_⟩
  -- the asset stays ready as well, which makes the relation transitive on such states
  have hstays : Along step (fun a _ b => a.row.1.status = .succeeded →
      b.row.1.status = a.row.1.status ∧ (b.row.2.status = .rejected → a.row.2.status = .rejected))
      s es := by
    refine along_of_inv hstep (fun a e b h hok hab hdone => ?_) hs.fresh hok
    have hb := succeeded_step h hok hab hdone
    refine ⟨hb.trans hdone.symm, fun hrejected => ?_⟩
    rw [(hstep a e b h hok hab).coherent.mpr hb] at hrejected
    exact absurd hrejected (by simp)
  intro before after rest mid fin hes hmid hready hfin
  exact (stays_iff_along (fun _ => ⟨rfl, fun h => h⟩)
    (fun _ _ _ hab hbc => ⟨hbc.1.trans hab.1, fun h => hab.2 (hbc.2 h)⟩)
    (fun _ _ ha hab => hab.1.trans ha)).mpr hstays before after rest mid fin hes hmid hready.2 hfin

/-- The lease of the first worker runs out, the second one completes the job, and the first finds
the variants taken. -/
theorem media_stable_twice :
    MediaStable newState
      [.claim 0 0 300, .claim 1 400000000 300, .complete 1 newResult 500000000,
        .complete 0 newResult 600000000] :=
  media_stable newState_initial (by decide)

/-- **A result is lost**: a worker whose lease ran out fails to download and rejects nothing less
than the asset that another worker has completed. -/
theorem media_result_lost :
    ¬ MediaStable newState
      [.claim 0 0 300, .claim 1 400000000 300, .complete 1 newResult 500000000,
        .reject 0 "image_decode_failed" 600000000] := by
  intro h
  have hlost := h.2 [.claim 0 0 300, .claim 1 400000000 300, .complete 1 newResult 500000000]
    [.reject 0 "image_decode_failed" 600000000] [] _ _ rfl rfl (by decide) rfl
  exact absurd hlost.1 (by decide)

end ComponentKb.Media
