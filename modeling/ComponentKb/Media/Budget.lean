import ComponentKb.Lib.Budget
import ComponentKb.Media.Revive
import Mathlib.Data.Int.Order.Basic

/-!
# The attempts of a media job

As for imports: `attempts` is written by the claim and by the manual retry only. The lease of a
media job is its heartbeat, which a video worker renews with its progress.

* `accounts_step`: a step counts a claim that was committed, or starts the count again.
* **`job_attempts_counted`**: in every state reached, `attempts` is the number of claims that succeeded
  since the last manual retry, and is within the limit.
* **`job_claims_apart`**: a job that stays running after a claim is claimed again only when its last
  heartbeat, which is no older than the claim, is older than the lease.
-/

namespace ComponentKb.Media

open ComponentKb.Lib

/-- The event is a claim that succeeds. -/
def claims (s : State) : Event → Bool
  | .claim _ now lease =>
    match claimJob now lease s.row with
    | .claimed row => Mapped.check row
    | _ => false
  | _ => false

/-- The event is a manual retry that resets the job. -/
def resets (s : State) : Event → Bool
  | .retry now =>
    match prepareManualRetry now s.row with
    | some (row, true) => Mapped.check row
    | _ => false
  | _ => false

def Event.now : Event → Time
  | .claim _ now _ | .progress _ _ _ now | .complete _ _ now | .reject _ _ now | .fail _ now
  | .retry now | .failMedia now | .markEnqueued now | .clean _ _ now => now

/-! ## The counter -/

/-- The columns that only the claim and the retry write. -/
def SameAttempts (row row' : Pair) : Prop :=
  row'.1.attempts = row.1.attempts ∧ row'.1.maxAttempts = row.1.maxAttempts

theorem transact_attempts {copy stored : Pair} {f : Pair → Pair} (hf : SameAttempts copy (f copy)) :
    SameAttempts stored (transact (some copy) f stored).stored := by
  rcases transact_stored_eq_or (some copy) f stored with h | h
  · rw [h]
    exact ⟨rfl, rfl⟩
  · rw [h]
    change column copy.1.attempts (f copy).1.attempts stored.1.attempts = _ ∧
      column copy.1.maxAttempts (f copy).1.maxAttempts stored.1.maxAttempts = _
    rw [hf.1, hf.2, column_unchanged, column_unchanged]
    exact ⟨rfl, rfl⟩

theorem commit_attempts {s : State} {f : Pair → Pair} (hf : SameAttempts s.row (f s.row)) :
    SameAttempts s.row (s.commit f).row := by
  rcases commit_row s f with hrow | hrow <;> rw [hrow]
  · exact ⟨rfl, rfl⟩
  · exact hf

theorem recordStorageFailure_attempts (now : Time) (row : Pair) :
    SameAttempts row (recordStorageFailure now row) := by
  unfold recordStorageFailure
  simp only
  split <;> exact ⟨rfl, rfl⟩

theorem completeStep_attempts (s : State) (worker : Nat) (copy : Pair) (processed : Processed)
    (now : Time) : SameAttempts s.row (completeStep s worker copy processed now).row := by
  unfold completeStep
  split
  · exact ⟨rfl, rfl⟩
  · refine transact_attempts ?_
    cases processed <;> exact ⟨rfl, rfl⟩

/-- A transaction of a fresh session, when its rows meet the constraints and when not. -/
theorem commit_eq (s : State) (row : Pair) :
    (s.commit fun _ => row).row = if Mapped.check row then row else s.row := by
  change (transact none (fun _ => row) s.row).stored = _
  rw [transact_none]
  split <;> rfl

/-- What a claim reads and writes, but for the statuses. -/
theorem claimJob_lease {now : Time} {lease : Nat} {row row' : Pair}
    (h : claimJob now lease row = .claimed row') :
    row'.1.attempts = row.1.attempts + 1 ∧ row'.1.maxAttempts = row.1.maxAttempts ∧
      row'.1.heartbeatAt = some now ∧
        (row.1.status = .running → ∀ last, row.1.heartbeatAt = some last →
          last ≤ now - seconds lease) := by
  unfold claimJob at h
  simp only at h
  split at h
  · cases h
  · split at h
    · cases h
    · split at h
      · cases h
      · rename_i hlease
        split at h
        · cases h
        · cases h
          refine ⟨rfl, rfl, rfl, fun hrunning last hlast => ?_⟩
          refine Int.not_lt.mp fun hlate => hlease ⟨hrunning, ?_⟩
          simpa [hlast] using hlate

theorem exhausted_attempts {now : Time} {lease : Nat} {row row' : Pair}
    (h : claimJob now lease row = .exhausted row') :
    SameAttempts row row' ∧ row'.1.heartbeatAt = row.1.heartbeatAt := by
  unfold claimJob at h
  simp only at h
  split at h
  · cases h
  · split at h
    · cases h
    · split at h
      · cases h
      · split at h
        · cases h
          exact ⟨⟨rfl, rfl⟩, rfl⟩
        · cases h

theorem retry_attempts {now : Time} {row row' : Pair} {reset : Bool}
    (h : prepareManualRetry now row = some (row', reset)) :
    row'.1.maxAttempts = row.1.maxAttempts ∧
      ((reset = false ∧ row' = row) ∨ (reset = true ∧ row'.1.attempts = 0)) := by
  unfold prepareManualRetry at h
  simp only at h
  split at h
  · cases h
    exact ⟨rfl, Or.inl ⟨rfl, rfl⟩⟩
  · split at h
    · cases h
    · split at h
      · cases h
      · cases h
        exact ⟨rfl, Or.inr ⟨rfl, rfl⟩⟩

/-- **A step counts a claim that was committed, or starts the count again**; the limit stays. -/
theorem accounts_step {s s' : State} {e : Event} (hs : step s e = some s') :
    Accounts claims resets (fun s => s.row.1.attempts) s e s' ∧
      s'.row.1.maxAttempts = s.row.1.maxAttempts := by
  unfold Accounts
  cases e with
  | claim worker now lease =>
    simp only [step] at hs
    split at hs
    · cases hs
      cases hclaim : claimJob now lease s.row with
      | refused =>
        have hno : claims s (.claim worker now lease) = false := by simp [claims, hclaim]
        simp [claimStep, hclaim, hno, resets]
      | exhausted row =>
        have hno : claims s (.claim worker now lease) = false := by simp [claims, hclaim]
        simp only [claimStep, hclaim, hno, resets, Bool.false_eq_true, if_false]
        exact commit_attempts (f := fun _ => row) (exhausted_attempts hclaim).1
      | claimed row =>
        have hclaims : claims s (.claim worker now lease) = Mapped.check row := by
          simp [claims, hclaim]
        obtain ⟨hattempts, hmax, -⟩ := claimJob_lease hclaim
        simp only [claimStep, hclaim, hclaims, resets, Bool.false_eq_true, if_false]
        change (s.commit fun _ => row).row.1.attempts = _ ∧
          (s.commit fun _ => row).row.1.maxAttempts = _
        rw [commit_eq]
        split
        · exact ⟨hattempts, hmax⟩
        · exact ⟨rfl, rfl⟩
    · cases hs
  | progress worker phase percent now =>
    simp only [step] at hs
    split at hs
    · split at hs
      · cases hs
        exact transact_attempts ⟨rfl, rfl⟩
      · cases hs
    · cases hs
  | complete worker processed now =>
    obtain ⟨copy, -, rfl⟩ := Option.map_eq_some_iff.mp hs
    exact completeStep_attempts s worker copy processed now
  | reject worker code now =>
    obtain ⟨copy, -, rfl⟩ := Option.map_eq_some_iff.mp hs
    exact transact_attempts ⟨rfl, rfl⟩
  | fail worker now =>
    obtain ⟨copy, -, rfl⟩ := Option.map_eq_some_iff.mp hs
    exact transact_attempts (recordStorageFailure_attempts now copy)
  | retry now =>
    obtain ⟨⟨row, reset⟩, hretry, rfl⟩ := Option.map_eq_some_iff.mp hs
    obtain ⟨hmax, hcases⟩ := retry_attempts hretry
    simp only [claims, resets, hretry, Bool.false_eq_true, if_false, commit_eq]
    rcases hcases with ⟨rfl, rfl⟩ | ⟨rfl, hattempts⟩
    · simp
    · split
      · exact ⟨hattempts, hmax⟩
      · exact ⟨rfl, rfl⟩
  | failMedia now =>
    cases hs
    refine commit_attempts ?_
    unfold failMedia
    simp only
    split <;> exact ⟨rfl, rfl⟩
  | markEnqueued now =>
    cases hs
    exact commit_attempts ⟨rfl, rfl⟩
  | clean cutoff reason now =>
    simp only [step] at hs
    split at hs
    · cases hs
      exact commit_attempts ⟨rfl, rfl⟩
    · cases hs

/-- **Attempts count the claims.** Over every run of workers, retries, the dispatcher and the
retention, `attempts` is the number of claims that succeeded since the last manual retry, and no
more than `max_attempts`, which stays as it was. -/
theorem job_attempts_counted {s t : State} (hs : s.Initial) (hrow : Mapped.check s.row = true)
    {es : List Event} (h : run step s es = some t) :
    t.row.1.attempts = spentSince step claims resets 0 s es ∧
      t.row.1.attempts ≤ t.row.1.maxAttempts ∧ t.row.1.maxAttempts = s.row.1.maxAttempts := by
  have haccounts : Along step (Accounts claims resets fun s => s.row.1.attempts) s es :=
    along_of_inv (fun _ _ _ _ _ _ => trivial) (fun _ _ _ _ _ hstep => (accounts_step hstep).1)
      trivial (along_true s es)
  have hcount := spentSince_eq haccounts h
  have hstep : ∀ a e b,
      (Mapped.check a.row = true ∧ a.row.1.maxAttempts = s.row.1.maxAttempts) →
      True → step a e = some b →
        Mapped.check b.row = true ∧ b.row.1.maxAttempts = s.row.1.maxAttempts :=
    fun _ _ _ ha _ hb => ⟨check_step ha.1 hb, (accounts_step hb).2.trans ha.2⟩
  obtain ⟨hcheck, hmax⟩ := run_inv hstep ⟨hrow, rfl⟩ (along_true s es) h
  have hjob : Mapped.check t.row.1 = true := (Bool.and_eq_true_iff.mp hcheck).1
  simp only [Mapped.check, Bool.and_eq_true, decide_eq_true_eq] at hjob
  refine ⟨?_, hjob.1.2, hmax⟩
  rw [← hcount, hs.row.attempts]

/-- The worker of an image loses its storage twice and the media is retried by hand. -/
def retriedRun : List Event :=
  [.claim 0 0 300, .fail 0 1, .claim 1 (seconds 20) 300, .failMedia (seconds 30),
   .retry (seconds 40), .claim 2 (seconds 50) 300]

theorem job_attempts_counted_retried :
    ∃ t, run step newState retriedRun = some t ∧ t.row.1.attempts = 1 ∧
      t.row.1.attempts = spentSince step claims resets 0 newState retriedRun := by
  have hsome : (run step newState retriedRun).isSome := by decide
  exact ⟨_, (Option.some_get hsome).symm, by decide +revert,
    (job_attempts_counted newState_initial (by decide) (Option.some_get hsome).symm).1⟩

/-! ## The lease -/

/-- The functions of a transaction renew the heartbeat, or leave it. -/
def Beats (now : Time) (row row' : Pair) : Prop :=
  row'.1.heartbeatAt = row.1.heartbeatAt ∨ row'.1.heartbeatAt = some now

theorem transact_beats {copy stored : Pair} {now : Time} {f : Pair → Pair}
    (hf : Beats now copy (f copy)) : Beats now stored (transact (some copy) f stored).stored := by
  rcases transact_stored_eq_or (some copy) f stored with h | h
  · rw [h]
    exact Or.inl rfl
  · rw [h]
    change column copy.1.heartbeatAt (f copy).1.heartbeatAt stored.1.heartbeatAt = _ ∨
      column copy.1.heartbeatAt (f copy).1.heartbeatAt stored.1.heartbeatAt = _
    rcases hf with hf | hf
    · rw [hf, column_unchanged]
      exact Or.inl rfl
    · exact column_eq_or.imp_right fun hcolumn => hcolumn.trans hf

theorem commit_beats {s : State} {now : Time} {f : Pair → Pair}
    (hf : Beats now s.row (f s.row)) : Beats now s.row (s.commit f).row := by
  rcases commit_row s f with hrow | hrow <;> rw [hrow]
  · exact Or.inl rfl
  · exact hf

/-- While the job runs, its heartbeat is renewed or stays. -/
theorem beats_step {s s' : State} {e : Event} (hs : step s e = some s')
    (hrunning : s'.row.1.status = .running) : Beats e.now s.row s'.row := by
  cases e with
  | claim worker now lease =>
    simp only [step] at hs
    split at hs
    · cases hs
      unfold claimStep
      split
      · exact Or.inl rfl
      · rename_i row hclaim
        exact commit_beats (f := fun _ => row) (Or.inl (exhausted_attempts hclaim).2)
      · rename_i row hclaim
        exact commit_beats (f := fun _ => row) (Or.inr (claimJob_lease hclaim).2.2.1)
    · cases hs
  | progress worker phase percent now =>
    simp only [step] at hs
    split at hs
    · split at hs
      · cases hs
        exact transact_beats (Or.inr rfl)
      · cases hs
    · cases hs
  | complete worker processed now =>
    obtain ⟨copy, -, rfl⟩ := Option.map_eq_some_iff.mp hs
    unfold completeStep
    split
    · exact Or.inl rfl
    · refine transact_beats (Or.inr ?_)
      cases processed <;> rfl
  | reject worker code now =>
    obtain ⟨copy, -, rfl⟩ := Option.map_eq_some_iff.mp hs
    exact transact_beats (Or.inr rfl)
  | fail worker now =>
    obtain ⟨copy, -, rfl⟩ := Option.map_eq_some_iff.mp hs
    refine transact_beats (Or.inr ?_)
    unfold recordStorageFailure
    simp only
    split <;> rfl
  | retry now =>
    obtain ⟨⟨row, reset⟩, hretry, rfl⟩ := Option.map_eq_some_iff.mp hs
    -- a job that was reset is queued
    rcases commit_row s fun _ => row with hrow | hrow
    · rw [hrow]
      exact Or.inl rfl
    · rcases prepareManualRetry_eq_some hretry with ⟨-, rfl⟩ | ⟨-, hqueued, -⟩
      · rw [hrow]
        exact Or.inl rfl
      · rw [hrow, hqueued] at hrunning
        cases hrunning
  | failMedia now =>
    cases hs
    refine commit_beats ?_
    unfold failMedia
    simp only
    split
    · exact Or.inr rfl
    · exact Or.inl rfl
  | markEnqueued now =>
    cases hs
    exact commit_beats (Or.inl rfl)
  | clean cutoff reason now =>
    simp only [step] at hs
    split at hs
    · cases hs
      exact commit_beats (Or.inl rfl)
    · cases hs

theorem always_nil {P : State → Prop} {s : State} (h : P s) : Always step P s [] := by
  intro es₁ es₂ t he hrun
  obtain ⟨rfl, rfl⟩ := List.append_eq_nil_iff.mp he.symm
  cases hrun
  exact h

theorem claims_eq_true {s : State} {worker : Nat} {now : Time} {lease : Nat} :
    claims s (.claim worker now lease) = true ↔
      ∃ row, claimJob now lease s.row = .claimed row ∧ Mapped.check row = true := by
  cases hclaim : claimJob now lease s.row <;> simp [claims, hclaim]

/-- **Two claims are a lease apart.** When a job that was claimed is running all the time until it
is claimed again, its last heartbeat is older than the lease and no older than the first claim. -/
theorem job_claims_apart {s s₁ t : State} {worker worker' : Nat} {now now' : Time}
    {lease lease' : Nat} (hclaims : claims s (.claim worker now lease) = true)
    (hs : step s (.claim worker now lease) = some s₁) {es : List Event}
    (htimes : ∀ e ∈ es, now ≤ e.now) (h : run step s₁ es = some t)
    (hrunning : Always step (fun s => s.row.1.status = .running) s₁ es)
    (hagain : claims t (.claim worker' now' lease') = true) :
    ∃ last, t.row.1.heartbeatAt = some last ∧ now ≤ last ∧ last ≤ now' - seconds lease' := by
  obtain ⟨row, hclaim, hcheck⟩ := claims_eq_true.mp hclaims
  obtain ⟨row', hclaim', -⟩ := claims_eq_true.mp hagain
  have hfirst : s₁.row.1.heartbeatAt = some now := by
    simp only [step] at hs
    split at hs
    · cases hs
      have hrow : (claimStep s worker now lease).row = row := by
        simp only [claimStep, hclaim]
        exact (commit_eq s row).trans (if_pos hcheck)
      rw [hrow]
      exact (claimJob_lease hclaim).2.2.1
    · cases hs
  have hforced : ∀ s e s', True → step s e = some s' → s'.row.1.status = .running →
      Stamps (fun s => s.row.1.heartbeatAt) Event.now s e s' :=
    fun _ _ _ _ hstep hrun => beats_step hstep hrun
  have hstamps : Along step (Stamps (fun s => s.row.1.heartbeatAt) Event.now) s₁ es :=
    along_of_always (fun _ _ _ _ _ _ => trivial) hforced trivial hrunning
  obtain ⟨last, hlast, hle⟩ := stamp_le hstamps htimes hfirst h
  have hlastRunning : t.row.1.status = .running := hrunning es [] t (by simp) h
  exact ⟨last, hlast, hle, (claimJob_lease hclaim').2.2.2 hlastRunning last hlast⟩

/-- The second worker waits for the lease of the first, which did not beat. -/
theorem job_claims_apart_lease :
    ∃ s₁, step newState (.claim 0 0 300) = some s₁ ∧
      claims s₁ (.claim 1 (seconds 299) 300) = false ∧
        claims s₁ (.claim 1 (seconds 300) 300) = true ∧
          ∃ last, s₁.row.1.heartbeatAt = some last ∧ 0 ≤ last ∧ last ≤ seconds 300 - seconds 300 := by
  have hsome : (step newState (.claim 0 0 300)).isSome := by decide
  refine ⟨_, (Option.some_get hsome).symm, by decide +revert, by decide +revert, ?_⟩
  exact job_claims_apart (by decide) (Option.some_get hsome).symm (List.forall_mem_nil _) rfl
    (always_nil (by decide +revert)) (by decide +revert : claims _ (.claim 1 (seconds 300) 300) = true)

end ComponentKb.Media
