import ComponentKb.Imports.Turn

/-!
# What the dispatch of an import job relies on

The dispatcher finds a job again through its row: `queued` by the age of its delivery, `running`
by its heartbeat, `retrying` by `next_retry_at`. So a retrying job must have a retry time, and a
finished job must not become active behind the dispatcher's back.

* `retryAt_step`: in every state a retrying job has a retry time.
* `active_step`: a finished job becomes active by a manual retry, which resets its dispatch row, or
  by a revival: `_record_transient` over a stale copy, or over a failed row after a rollback.
-/

namespace ComponentKb.Imports

open ComponentKb.Lib

/-- A transaction over a copy commits nothing, or writes the status and the retry time as
columns. -/
theorem transact_columns (copy : ImportJob) (f : ImportJob → ImportJob) (stored : ImportJob) :
    (transact (some copy) f stored).stored = stored ∨
      ((transact (some copy) f stored).stored.status =
          column copy.status (f copy).status stored.status ∧
        (transact (some copy) f stored).stored.nextRetryAt =
          column copy.nextRetryAt (f copy).nextRetryAt stored.nextRetryAt) := by
  rcases transact_stored_eq_or (some copy) f stored with h | h
  · exact Or.inl h
  · rw [h]
    exact Or.inr ⟨rfl, rfl⟩

theorem commit_job (s : State) (f : ImportJob → ImportJob) :
    (s.commit f).job = s.job ∨ (s.commit f).job = f s.job := by
  have h : (s.commit f).job = (transact none f s.job).stored := rfl
  rw [h, transact_none]
  split
  · exact Or.inr rfl
  · exact Or.inl rfl

/-! ## The retry time -/

/-- A retrying job has a retry time. -/
def RetryAt (job : ImportJob) : Prop := job.status = .retrying → job.nextRetryAt.isSome

theorem retryAt_of_status {job : ImportJob} (h : job.status ≠ .retrying) : RetryAt job :=
  fun hno => absurd hno h

theorem RetryAt.commit {s : State} {f : ImportJob → ImportJob} (h : RetryAt s.job)
    (hf : RetryAt (f s.job)) : RetryAt (s.commit f).job := by
  rcases commit_job s f with hjob | hjob <;> rw [hjob]
  · exact h
  · exact hf

theorem RetryAt.transact {copy stored : ImportJob} {f : ImportJob → ImportJob}
    (h : RetryAt stored)
    (hwrite : (f copy).status ≠ copy.status → (f copy).status = .retrying →
      copy.nextRetryAt = none ∧ (f copy).nextRetryAt.isSome)
    (hkeep : (f copy).status = copy.status →
      (f copy).nextRetryAt = copy.nextRetryAt ∨ (f copy).nextRetryAt.isSome) :
    RetryAt (transact (some copy) f stored).stored := by
  intro hretrying
  rcases transact_columns copy f stored with h' | ⟨h1, h2⟩
  · rw [h'] at hretrying ⊢
    exact h hretrying
  · rw [h1] at hretrying
    rw [h2]
    exact column_isSome h hwrite hkeep hretrying

/-- `_record_transient` either schedules the retry it announces or leaves the retry time. -/
theorem recordTransient_retryAt (now : Time) (job : ImportJob) :
    ((recordTransient now job).status = .retrying ∧
      (recordTransient now job).nextRetryAt.isSome) ∨
    ((recordTransient now job).status ≠ .retrying ∧
      (recordTransient now job).nextRetryAt = job.nextRetryAt) := by
  unfold recordTransient
  split
  · rename_i h
    exact Or.inr ⟨by rcases h with h | h <;> simp [h], rfl⟩
  · split
    · refine Or.inr ⟨?_, ?_⟩
      · rw [markFailed_status]
        split <;> simp
      · unfold markFailed
        split <;> rfl
    · exact Or.inl ⟨rfl, rfl⟩

theorem markFailed_open {code : String} {now : Time} {job : ImportJob}
    (h : job.status ≠ .cancelled) : (markFailed code now job).status = .failed := by
  rw [markFailed_status, if_neg h]

/-- The status an exit leaves in the copy of a running job. -/
theorem Exit.write_status (now : Time) {job : ImportJob} (exit : Exit)
    (h : job.status = .running) :
    (exit.write now job).status = .failed ∨ (exit.write now job).status = .succeeded ∨
      ((exit = .transient ∨ exit = .lockBusy) ∧ job.attempts < job.maxAttempts ∧
        (exit.write now job).status = .retrying ∧ (exit.write now job).nextRetryAt.isSome) ∨
      exit.write now job = job := by
  have hne : job.status ≠ .cancelled := by simp [h]
  have htransient : (recordTransient now job).status = .failed ∨
      (job.attempts < job.maxAttempts ∧ (recordTransient now job).status = .retrying ∧
        (recordTransient now job).nextRetryAt.isSome) := by
    have hstatus := recordTransient_running now h
    split at hstatus
    · exact Or.inl hstatus
    · rename_i hlt
      rcases recordTransient_retryAt now job with ⟨-, hat⟩ | ⟨hno, -⟩
      · exact Or.inr ⟨Nat.not_le.mp hlt, hstatus, hat⟩
      · exact absurd hstatus hno
  cases exit with
  | failed code => exact Or.inl (markFailed_open hne)
  | unparsed status warnings => exact Or.inl (markFailed_open hne)
  | transient =>
    rcases htransient with hf | hr
    · exact Or.inl hf
    · exact Or.inr (Or.inr (Or.inl ⟨Or.inl rfl, hr⟩))
  | lockBusy =>
    rcases htransient with hf | hr
    · exact Or.inl hf
    · exact Or.inr (Or.inr (Or.inl ⟨Or.inr rfl, hr⟩))
  | persist parsed component =>
    have hfinish : finish parsed component now job = some (complete parsed component now job) :=
      if_neg (by simp [h])
    refine Or.inr (Or.inl ?_)
    rw [Exit.write, hfinish, Option.getD_some]
    cases parsed <;> rfl
  | rollback handler => exact Or.inr (Or.inr (Or.inr rfl))

/-- **A retrying job has a retry time**: what one step keeps. -/
theorem retryAt_step {s s' : State} {e : Event} (hcopies : Copies s) (h : RetryAt s.job)
    (hs : step s e = some s') : RetryAt s'.job := by
  cases e with
  | claim worker source now ttl =>
    simp only [step] at hs
    split at hs
    · cases hs
      unfold claimStep
      split
      · exact h
      · rename_i job hclaim
        refine RetryAt.commit (f := fun _ => job) h ?_
        unfold claim at hclaim
        split at hclaim
        · cases hclaim
        · split at hclaim
          · cases hclaim
            refine retryAt_of_status ?_
            rw [markFailed_status]
            split <;> simp
          · split at hclaim <;> cases hclaim
      · rename_i job hclaim
        refine RetryAt.commit (f := fun _ => job) h (retryAt_of_status ?_)
        obtain ⟨-, -, hrunning, -⟩ := claim_eq_claimed hclaim
        simp [hrunning]
    · cases hs
  | exit worker exit now =>
    simp only [step] at hs
    split at hs
    · rename_i copy hcopy
      cases hs
      obtain ⟨hrunning, hnone⟩ := (hcopies worker).1 copy hcopy
      refine RetryAt.transact h (fun _ hretrying => ⟨hnone, ?_⟩) (fun hsame => ?_)
      · rcases exit.write_status now hrunning with hw | hw | ⟨-, -, -, hw⟩ | hw
        · exact absurd (hw.symm.trans hretrying) (by simp)
        · exact absurd (hw.symm.trans hretrying) (by simp)
        · exact hw
        · rw [hw, hrunning] at hretrying
          exact absurd hretrying (by simp)
      · rw [hrunning] at hsame
        rcases exit.write_status now hrunning with hw | hw | ⟨-, -, hw, -⟩ | hw
        · exact absurd (hw.symm.trans hsame) (by simp)
        · exact absurd (hw.symm.trans hsame) (by simp)
        · exact absurd (hw.symm.trans hsame) (by simp)
        · exact Or.inl (by rw [hw])
    · cases hs
  | recordAgain worker now =>
    simp only [step] at hs
    split at hs
    · rename_i copy hcopy
      cases hs
      obtain ⟨first, job, hjob, -, rfl⟩ := (hcopies worker).2 copy hcopy
      refine RetryAt.transact h (fun hne => absurd (recordTransient_again first now hjob) hne) fun _ => ?_
      rcases recordTransient_retryAt now (recordTransient first job) with ⟨-, hat⟩ | ⟨-, hat⟩
      · exact Or.inr hat
      · exact Or.inl hat
    · cases hs
  | handle worker now =>
    simp only [step] at hs
    split at hs
    · rename_i handler _
      cases hs
      refine RetryAt.commit (s := s.setTurn worker none) h ?_
      cases handler with
      | transient =>
        rcases recordTransient_retryAt now s.job with ⟨-, hat⟩ | ⟨hno, -⟩
        · exact fun _ => hat
        · exact retryAt_of_status hno
      | failed code =>
        refine retryAt_of_status ?_
        show (markFailed code now s.job).status ≠ _
        rw [markFailed_status]
        split <;> simp
    · cases hs
  | retry now lease =>
    obtain ⟨⟨job, reset⟩, hjob, rfl⟩ := Option.map_eq_some_iff.mp hs
    refine h.commit ?_
    unfold prepareManualRetry at hjob
    split at hjob
    · cases hjob
      exact h
    · split at hjob
      · cases hjob
        exact retryAt_of_status (by simp)
      · cases hjob
  | cancel now =>
    obtain ⟨job, hjob, rfl⟩ := Option.map_eq_some_iff.mp hs
    refine h.commit (retryAt_of_status ?_)
    simp [(cancel_eq_some hjob).2]
  | failImport now =>
    cases hs
    refine h.commit ?_
    unfold failImport
    split
    · exact retryAt_of_status (by simp)
    · exact h

/-! ## The CHECK constraints -/

/-- Every transaction leaves a row that satisfies the CHECK constraints of its table. -/
theorem check_step {s s' : State} {e : Event} (h : Mapped.check s.job = true)
    (hs : step s e = some s') : Mapped.check s'.job = true := by
  cases e with
  | claim worker source now ttl =>
    simp only [step] at hs
    split at hs
    · cases hs
      unfold claimStep
      split
      · exact h
      · exact transact_check h
      · exact transact_check h
    · cases hs
  | exit worker exit now | recordAgain worker now | handle worker now =>
    simp only [step] at hs
    split at hs
    · cases hs
      exact transact_check h
    · cases hs
  | retry now lease | cancel now =>
    obtain ⟨_, _, rfl⟩ := Option.map_eq_some_iff.mp hs
    exact transact_check h
  | failImport now =>
    cases hs
    exact transact_check h

/-! ## Revivals -/

/-- **A revival**: `_record_transient` schedules a retry although the row says that the job is
finished. -/
def revives (s : State) : Event → Bool
  | .exit worker exit _ =>
    !s.job.status.active && (exit == .transient || exit == .lockBusy) &&
      match s.turns worker with
      | some (.acquiring copy) => decide (copy.attempts < copy.maxAttempts)
      | _ => false
  | .handle worker _ =>
    s.job.status == .failed && s.turns worker == some (.rolledBack .transient) &&
      decide (s.job.attempts < s.job.maxAttempts)
  | _ => false

def Event.isRetry : Event → Bool
  | .retry _ _ => true
  | _ => false

theorem commit_inactive {s : State} {f : ImportJob → ImportJob}
    (hf : (f s.job).status.active = true → s.job.status.active = true)
    (h : (s.commit f).job.status.active = true) : s.job.status.active = true := by
  rcases commit_job s f with hjob | hjob
  · rwa [hjob] at h
  · rw [hjob] at h
    exact hf h

/-- **A finished job becomes active by a manual retry or a revival only.** -/
theorem active_step {s s' : State} {e : Event} (hcopies : Copies s) (hrevive : revives s e = false)
    (hretry : e.isRetry = false) (hs : step s e = some s') (h : s'.job.status.active = true) :
    s.job.status.active = true := by
  cases e with
  | claim worker source now ttl =>
    simp only [step] at hs
    split at hs
    · cases hs
      unfold claimStep at h
      split at h
      · exact h
      · rename_i job hclaim
        refine commit_inactive (f := fun _ => job) (fun hjob => ?_) h
        unfold claim at hclaim
        split at hclaim
        · cases hclaim
        · rename_i hok
          exact Decidable.not_not.mp (not_or.mp hok).1
      · rename_i job hclaim
        exact (claim_eq_claimed hclaim).1
    · cases hs
  | exit worker exit now =>
    simp only [step] at hs
    split at hs
    · rename_i copy hcopy
      cases hs
      obtain ⟨hrunning, -⟩ := (hcopies worker).1 copy hcopy
      change (transact (some copy) (exit.write now) s.job).stored.status.active = true at h
      rcases transact_columns copy (exit.write now) s.job with h' | ⟨h1, -⟩
      · rwa [h'] at h
      · rw [h1] at h
        rcases exit.write_status now hrunning with hw | hw | ⟨hexit, hlt, hw, -⟩ | hw
        · rw [hw, column_changed (by simp [hrunning])] at h
          exact absurd h (by decide)
        · rw [hw, column_changed (by simp [hrunning])] at h
          exact absurd h (by decide)
        · by_contra hinactive
          simp only [Bool.not_eq_true] at hinactive
          simp only [revives, hcopy, hinactive, hlt] at hrevive
          rcases hexit with rfl | rfl <;> simp at hrevive
        · rwa [hw, column_unchanged] at h
    · cases hs
  | recordAgain worker now =>
    simp only [step] at hs
    split at hs
    · rename_i copy hcopy
      cases hs
      obtain ⟨first, job, hjob, -, rfl⟩ := (hcopies worker).2 copy hcopy
      have hsame := transact_status s.job (recordTransient_again first now hjob)
      change (transact _ _ s.job).stored.status.active = true at h
      rwa [hsame] at h
    · cases hs
  | handle worker now =>
    simp only [step] at hs
    split at hs
    · rename_i handler hturn
      cases hs
      refine commit_inactive (s := s.setTurn worker none) (fun hjob => ?_) h
      by_contra hinactive
      change (handler.write now s.job).status.active = true at hjob
      change ¬ s.job.status.active = true at hinactive
      cases handler with
      | transient =>
        simp only [Handler.write, recordTransient] at hjob
        split at hjob
        · exact hinactive hjob
        · rename_i hopen
          have hfailed : s.job.status = .failed := by
            cases hst : s.job.status <;> simp_all [Status.active]
          split at hjob
          · rw [markFailed_open (by simp [hfailed])] at hjob
            exact absurd hjob (by decide)
          · rename_i hlt
            simp [revives, hfailed, hturn, Nat.not_le.mp hlt] at hrevive
      | failed code =>
        simp only [Handler.write, markFailed_status] at hjob
        split at hjob <;> exact absurd hjob (by decide)
    · cases hs
  | retry now lease => exact absurd hretry (by simp [Event.isRetry])
  | cancel now =>
    obtain ⟨job, hjob, rfl⟩ := Option.map_eq_some_iff.mp hs
    exact (cancel_eq_some hjob).1
  | failImport now =>
    cases hs
    refine commit_inactive (fun hjob => ?_) h
    unfold failImport at hjob
    split at hjob
    · assumption
    · exact hjob

end ComponentKb.Imports
