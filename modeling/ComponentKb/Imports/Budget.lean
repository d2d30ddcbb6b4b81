import ComponentKb.Imports.Revive
import ComponentKb.Lib.Budget
import Mathlib.Data.Int.Order.Basic

/-!
# The attempts of an import job

`attempts` is written by the claim and by the manual retry only, whatever stale copies the other
transactions are over. `updated_at`, which the claim takes for the lease, is written by all of them.

* `accounts_step`: a step counts a claim that was committed, or starts the count again.
* **`attempts_counted`**: in every state reached, `attempts` is the number of claims that succeeded
  since the last manual reset, and is within the limit.
* **`claims_apart`**: while a job stays running it is claimed again only when its last write, which is
  no older than its last claim, is older than the lease.
-/

namespace ComponentKb.Imports

open ComponentKb.Lib

/-- The event is a claim that succeeds. -/
def claims (s : State) : Event → Bool
  | .claim _ sourceActive now ttl =>
    match claim sourceActive now ttl s.job with
    | .claimed job => Mapped.check job
    | _ => false
  | _ => false

/-- The event is a manual retry that resets the job. -/
def resets (s : State) : Event → Bool
  | .retry now lease =>
    match prepareManualRetry s.job now lease with
    | some (job, true) => Mapped.check job
    | _ => false
  | _ => false

def Event.now : Event → Time
  | .claim _ _ now _ | .exit _ _ now | .recordAgain _ now | .handle _ now | .retry now _
  | .cancel now | .failImport now => now

/-! ## The counter -/

theorem transact_attempts {copy stored : ImportJob} {f : ImportJob → ImportJob}
    (hf : (f copy).attempts = copy.attempts ∧ (f copy).maxAttempts = copy.maxAttempts) :
    (transact (some copy) f stored).stored.attempts = stored.attempts ∧
      (transact (some copy) f stored).stored.maxAttempts = stored.maxAttempts := by
  rcases transact_stored_eq_or (some copy) f stored with h | h
  · rw [h]
    exact ⟨rfl, rfl⟩
  · rw [h]
    exact ⟨by simp [Mapped.flush, hf.1], by simp [Mapped.flush, hf.2]⟩

theorem commit_attempts {s : State} {f : ImportJob → ImportJob}
    (hf : (f s.job).attempts = s.job.attempts ∧ (f s.job).maxAttempts = s.job.maxAttempts) :
    (s.commit f).job.attempts = s.job.attempts ∧
      (s.commit f).job.maxAttempts = s.job.maxAttempts := by
  rcases commit_job s f with hjob | hjob <;> rw [hjob]
  · exact ⟨rfl, rfl⟩
  · exact hf

theorem Exit.write_attempts (now : Time) (job : ImportJob) (exit : Exit) :
    (exit.write now job).attempts = job.attempts ∧
      (exit.write now job).maxAttempts = job.maxAttempts := by
  cases exit with
  | failed code => exact markFailed_attempts _ _ _
  | transient | lockBusy => exact recordTransient_attempts _ _
  | unparsed status warnings => exact markFailed_attempts _ _ _
  | persist parsed component =>
    simp only [Exit.write, finish]
    split
    · exact ⟨rfl, rfl⟩
    · cases parsed <;> exact ⟨rfl, rfl⟩
  | rollback handler => exact ⟨rfl, rfl⟩

theorem Handler.write_attempts (now : Time) (job : ImportJob) (handler : Handler) :
    (handler.write now job).attempts = job.attempts ∧
      (handler.write now job).maxAttempts = job.maxAttempts := by
  cases handler with
  | transient => exact recordTransient_attempts _ _
  | failed code => exact markFailed_attempts _ _ _

theorem claim_eq_sourceDisabled {source : Bool} {now ttl : Time} {job job' : ImportJob}
    (h : claim source now ttl job = .sourceDisabled job') :
    job' = markFailed "source_disabled" now job := by
  unfold claim at h
  split at h
  · cases h
  · split at h
    · cases h
      rfl
    · split at h <;> cases h

/-- What an accepted retry leaves of the row, or makes of it. -/
theorem prepareManualRetry_eq_some {job job' : ImportJob} {now lease : Time} {reset : Bool}
    (h : prepareManualRetry job now lease = some (job', reset)) :
    job'.maxAttempts = job.maxAttempts ∧
      ((reset = false ∧ job' = job) ∨ (reset = true ∧ job'.attempts = 0 ∧ job'.status = .queued)) := by
  unfold prepareManualRetry at h
  split at h
  · cases h
    exact ⟨rfl, Or.inl ⟨rfl, rfl⟩⟩
  · split at h
    · cases h
      exact ⟨rfl, Or.inr ⟨rfl, rfl, rfl⟩⟩
    · cases h

/-- A transaction of a fresh session, when its row meets the constraints and when not. -/
theorem commit_eq (s : State) (job : ImportJob) :
    (s.commit fun _ => job).job = if Mapped.check job then job else s.job := by
  change (transact none (fun _ => job) s.job).stored = _
  rw [transact_none]
  split <;> rfl

/-- **A step counts a claim that was committed, or starts the count again**; the limit stays. -/
theorem accounts_step {s s' : State} {e : Event} (hs : step s e = some s') :
    Accounts claims resets (fun s => s.job.attempts) s e s' ∧
      s'.job.maxAttempts = s.job.maxAttempts := by
  unfold Accounts
  cases e with
  | claim worker source now ttl =>
    simp only [step] at hs
    split at hs
    · cases hs
      cases hclaim : claim source now ttl s.job with
      | refused =>
        have hno : claims s (.claim worker source now ttl) = false := by simp [claims, hclaim]
        simp [claimStep, hclaim, hno, resets]
      | sourceDisabled job =>
        have hno : claims s (.claim worker source now ttl) = false := by simp [claims, hclaim]
        obtain rfl := claim_eq_sourceDisabled hclaim
        simp only [claimStep, hclaim, hno, resets, Bool.false_eq_true, if_false]
        exact commit_attempts (f := fun _ => markFailed "source_disabled" now s.job)
          (markFailed_attempts _ _ _)
      | claimed job =>
        have hclaims : claims s (.claim worker source now ttl) = Mapped.check job := by
          simp [claims, hclaim]
        obtain ⟨-, -, -, hattempts, hmax, -⟩ := claim_eq_claimed hclaim
        simp only [claimStep, hclaim, hclaims, resets, Bool.false_eq_true, if_false]
        change (s.commit fun _ => job).job.attempts = _ ∧ (s.commit fun _ => job).job.maxAttempts = _
        rw [commit_eq]
        split
        · exact ⟨hattempts, hmax⟩
        · exact ⟨rfl, rfl⟩
    · cases hs
  | exit worker exit now =>
    simp only [step] at hs
    split at hs
    · cases hs
      exact transact_attempts (exit.write_attempts now _)
    · cases hs
  | recordAgain worker now =>
    simp only [step] at hs
    split at hs
    · cases hs
      exact transact_attempts (recordTransient_attempts now _)
    · cases hs
  | handle worker now =>
    simp only [step] at hs
    split at hs
    · cases hs
      exact commit_attempts (Handler.write_attempts now _ _)
    · cases hs
  | retry now lease =>
    obtain ⟨⟨job, reset⟩, hretry, rfl⟩ := Option.map_eq_some_iff.mp hs
    obtain ⟨hmax, hcases⟩ := prepareManualRetry_eq_some hretry
    simp only [claims, resets, hretry, Bool.false_eq_true, if_false, commit_eq]
    rcases hcases with ⟨rfl, rfl⟩ | ⟨rfl, hattempts, -⟩
    · simp
    · split
      · exact ⟨hattempts, hmax⟩
      · exact ⟨rfl, rfl⟩
  | cancel now =>
    obtain ⟨job, hcancel, rfl⟩ := Option.map_eq_some_iff.mp hs
    refine commit_attempts ?_
    unfold cancel at hcancel
    split at hcancel
    · cases hcancel
      exact ⟨rfl, rfl⟩
    · cases hcancel
  | failImport now =>
    cases hs
    refine commit_attempts ?_
    unfold failImport
    split <;> exact ⟨rfl, rfl⟩

/-- **Attempts count the claims.** Over every run of workers, retries, cancels and the dispatcher,
`attempts` is the number of claims that succeeded since the last manual reset, and no more than
`max_attempts`, which stays as it was. -/
theorem attempts_counted {s t : State} (hs : s.Initial) {es : List Event}
    (h : run step s es = some t) :
    t.job.attempts = spentSince step claims resets 0 s es ∧ t.job.attempts ≤ t.job.maxAttempts ∧
      t.job.maxAttempts = s.job.maxAttempts := by
  have hnew : Mapped.check s.job = true := by
    simp [Mapped.check, hs.job.status, hs.job.attempts]
  have haccounts : Along step (Accounts claims resets fun s => s.job.attempts) s es :=
    along_of_inv (fun _ _ _ _ _ _ => trivial) (fun _ _ _ _ _ hstep => (accounts_step hstep).1)
      trivial (along_true s es)
  have hcount := spentSince_eq haccounts h
  have hstep : ∀ a e b, (Mapped.check a.job = true ∧ a.job.maxAttempts = s.job.maxAttempts) →
      True → step a e = some b →
        Mapped.check b.job = true ∧ b.job.maxAttempts = s.job.maxAttempts :=
    fun _ _ _ ha _ hb => ⟨check_step ha.1 hb, (accounts_step hb).2.trans ha.2⟩
  obtain ⟨hcheck, hmax⟩ := run_inv hstep ⟨hnew, rfl⟩ (along_true s es) h
  simp only [Mapped.check, Bool.and_eq_true, decide_eq_true_eq] at hcheck
  refine ⟨?_, hcheck.1.1, hmax⟩
  rw [← hcount, hs.job.attempts]

/-- A job of three attempts: the first claim times out, the second is lost, and the dispatcher gives
up; an administrator retries the job and it is claimed again. -/
def retriedRun : List Event :=
  [.claim 0 true 0 10, .exit 0 .transient 5, .claim 1 true 20 10, .failImport 40, .retry 50 10,
   .claim 2 true 60 10]

theorem attempts_counted_retried :
    ∃ t, run step newState retriedRun = some t ∧ t.job.attempts = 1 ∧
      t.job.attempts = spentSince step claims resets 0 newState retriedRun := by
  have hsome : (run step newState retriedRun).isSome := by decide
  exact ⟨_, (Option.some_get hsome).symm, by decide +revert,
    (attempts_counted newState_initial (Option.some_get hsome).symm).1⟩

/-! ## The lease -/

/-- The functions of a transaction write their own time, or leave it. -/
def Dated (now : Time) (job job' : ImportJob) : Prop :=
  job'.updatedAt = job.updatedAt ∨ job'.updatedAt = now

theorem markFailed_dated (code : String) (now : Time) (job : ImportJob) :
    Dated now job (markFailed code now job) := by
  unfold markFailed
  split
  · exact Or.inl rfl
  · exact Or.inr rfl

theorem recordTransient_dated (now : Time) (job : ImportJob) :
    Dated now job (recordTransient now job) := by
  unfold recordTransient
  split
  · exact Or.inl rfl
  · split
    · exact markFailed_dated _ _ _
    · exact Or.inr rfl

theorem Exit.write_dated (now : Time) (job : ImportJob) (exit : Exit) :
    Dated now job (exit.write now job) := by
  cases exit with
  | failed code => exact markFailed_dated _ _ _
  | transient | lockBusy => exact recordTransient_dated _ _
  | unparsed status warnings =>
    exact markFailed_dated _ now { job with parseStatus := some status, warnings := warnings }
  | persist parsed component =>
    simp only [Exit.write, finish]
    split
    · exact Or.inl rfl
    · cases parsed <;> exact Or.inr rfl
  | rollback handler => exact Or.inl rfl

theorem transact_dated {copy stored : ImportJob} {now : Time} {f : ImportJob → ImportJob}
    (hf : Dated now copy (f copy)) : Dated now stored (transact (some copy) f stored).stored := by
  rcases transact_stored_eq_or (some copy) f stored with h | h
  · rw [h]
    exact Or.inl rfl
  · rw [h]
    change column copy.updatedAt (f copy).updatedAt stored.updatedAt = _ ∨
      column copy.updatedAt (f copy).updatedAt stored.updatedAt = _
    rcases hf with hf | hf
    · rw [hf, column_unchanged]
      exact Or.inl rfl
    · exact column_eq_or.imp_right fun hcolumn => hcolumn.trans hf

theorem commit_dated {s : State} {now : Time} {f : ImportJob → ImportJob}
    (hf : Dated now s.job (f s.job)) : Dated now s.job (s.commit f).job := by
  rcases commit_job s f with hjob | hjob <;> rw [hjob]
  · exact Or.inl rfl
  · exact hf

/-- A claim dates the job, and a running one was last written before the lease. -/
theorem claim_lease {source : Bool} {now ttl : Time} {job job' : ImportJob}
    (h : claim source now ttl job = .claimed job') :
    job'.updatedAt = now ∧ (job.status = .running → job.updatedAt ≤ now - ttl) := by
  unfold claim at h
  split at h
  · cases h
  · split at h
    · cases h
    · split at h
      · cases h
      · rename_i hlease
        cases h
        exact ⟨rfl, fun hrunning => Int.not_lt.mp fun hlate => hlease ⟨hrunning, hlate⟩⟩

/-- Whatever a step writes, it dates. -/
theorem dated_step {s s' : State} {e : Event} (hs : step s e = some s') :
    Dated e.now s.job s'.job := by
  cases e with
  | claim worker source now ttl =>
    simp only [step] at hs
    split at hs
    · cases hs
      unfold claimStep
      split
      · exact Or.inl rfl
      · rename_i job hclaim
        obtain rfl := claim_eq_sourceDisabled hclaim
        exact commit_dated (f := fun _ => markFailed "source_disabled" now s.job)
          (markFailed_dated _ _ _)
      · rename_i job hclaim
        exact commit_dated (f := fun _ => job) (Or.inr (claim_lease hclaim).1)
    · cases hs
  | exit worker exit now =>
    simp only [step] at hs
    split at hs
    · cases hs
      exact transact_dated (exit.write_dated now _)
    · cases hs
  | recordAgain worker now =>
    simp only [step] at hs
    split at hs
    · cases hs
      exact transact_dated (recordTransient_dated now _)
    · cases hs
  | handle worker now =>
    simp only [step] at hs
    split at hs
    · rename_i handler _
      cases hs
      refine commit_dated ?_
      cases handler with
      | transient => exact recordTransient_dated _ _
      | failed code => exact markFailed_dated _ _ _
    · cases hs
  | retry now lease =>
    obtain ⟨⟨job, reset⟩, hretry, rfl⟩ := Option.map_eq_some_iff.mp hs
    refine commit_dated ?_
    unfold prepareManualRetry at hretry
    split at hretry
    · cases hretry
      exact Or.inl rfl
    · split at hretry
      · cases hretry
        exact Or.inr rfl
      · cases hretry
  | cancel now =>
    obtain ⟨job, hcancel, rfl⟩ := Option.map_eq_some_iff.mp hs
    refine commit_dated ?_
    unfold cancel at hcancel
    split at hcancel
    · cases hcancel
      exact Or.inr rfl
    · cases hcancel
  | failImport now =>
    cases hs
    refine commit_dated ?_
    unfold failImport
    split
    · exact Or.inr rfl
    · exact Or.inl rfl

theorem claims_eq_true {s : State} {worker : Nat} {source : Bool} {now ttl : Time} :
    claims s (.claim worker source now ttl) = true ↔
      ∃ job, claim source now ttl s.job = .claimed job ∧ Mapped.check job = true := by
  cases hclaim : claim source now ttl s.job <;> simp [claims, hclaim]

/-- **Two claims are a lease apart.** When a job that was claimed is found running and claimed
again, whatever happened in between, its last write is older than the lease and no older than the
first claim. -/
theorem claims_apart {s s₁ t : State} {worker worker' : Nat} {source source' : Bool}
    {now ttl now' ttl' : Time} (hclaims : claims s (.claim worker source now ttl) = true)
    (hs : step s (.claim worker source now ttl) = some s₁) {es : List Event}
    (htimes : ∀ e ∈ es, now ≤ e.now) (h : run step s₁ es = some t)
    (hrunning : t.job.status = .running)
    (hagain : claims t (.claim worker' source' now' ttl') = true) :
    now ≤ t.job.updatedAt ∧ t.job.updatedAt ≤ now' - ttl' := by
  obtain ⟨job, hclaim, hcheck⟩ := claims_eq_true.mp hclaims
  obtain ⟨job', hclaim', -⟩ := claims_eq_true.mp hagain
  refine ⟨?_, (claim_lease hclaim').2 hrunning⟩
  have hfirst : s₁.job.updatedAt = now := by
    simp only [step] at hs
    split at hs
    · cases hs
      have hjob : (claimStep s worker source now ttl).job = job := by
        simp only [claimStep, hclaim]
        exact (commit_eq s job).trans (if_pos hcheck)
      rw [hjob]
      exact (claim_lease hclaim).1
    · cases hs
  have hstamps : Along step (Stamps (fun s => some s.job.updatedAt) Event.now) s₁ es :=
    along_of_inv (fun _ _ _ _ _ _ => trivial)
      (fun _ _ _ _ _ hstep => (dated_step hstep).imp (congrArg some) (congrArg some)) trivial
      (along_true s₁ es)
  obtain ⟨last, hlast, hle⟩ := stamp_le hstamps htimes (congrArg some hfirst) h
  cases hlast
  exact hle

/-- The second worker waits for the lease of the first, which wrote nothing. -/
theorem claims_apart_lease :
    ∃ s₁, step newState (.claim 0 true 0 10) = some s₁ ∧
      claims s₁ (.claim 1 true 9 10) = false ∧ claims s₁ (.claim 1 true 10 10) = true ∧
        (0 : Time) ≤ s₁.job.updatedAt ∧ s₁.job.updatedAt ≤ (10 : Time) - 10 := by
  have hsome : (step newState (.claim 0 true 0 10)).isSome := by decide
  refine ⟨_, (Option.some_get hsome).symm, by decide +revert, by decide +revert, ?_⟩
  exact claims_apart (by decide) (Option.some_get hsome).symm (List.forall_mem_nil _) rfl
    (by decide +revert) (by decide +revert : claims _ (.claim 1 true 10 10) = true)

end ComponentKb.Imports
