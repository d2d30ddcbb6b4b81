import ComponentKb.Media.Worker

/-!
# What the dispatch of a media job relies on

As for imports: a finished media job must not become active behind the dispatcher's back. That a
retrying job has a retry time is `Copies.retryAt`.

* `active_step`: a finished job becomes active by a manual retry, which resets its dispatch row, or
  by a revival: `record_storage_failure` over a stale copy with attempts left.
-/

namespace ComponentKb.Media

open ComponentKb.Lib

/-- Every transaction leaves rows that satisfy the CHECK constraints of their tables. -/
theorem check_step {s s' : State} {e : Event} (h : Mapped.check s.row = true)
    (hs : step s e = some s') : Mapped.check s'.row = true := by
  cases e with
  | claim worker now lease =>
    simp only [step] at hs
    split at hs
    · cases hs
      unfold claimStep
      split
      · exact h
      · exact transact_check h
      · exact transact_check h
    · cases hs
  | progress worker phase percent now =>
    simp only [step] at hs
    split at hs
    · split at hs
      · cases hs
        exact transact_check h
      · cases hs
    · cases hs
  | complete worker processed now =>
    obtain ⟨copy, _, rfl⟩ := Option.map_eq_some_iff.mp hs
    unfold completeStep
    split
    · exact h
    · exact transact_check h
  | reject worker _ now | fail worker now =>
    obtain ⟨copy, _, rfl⟩ := Option.map_eq_some_iff.mp hs
    exact transact_check h
  | retry now =>
    obtain ⟨_, _, rfl⟩ := Option.map_eq_some_iff.mp hs
    exact transact_check h
  | failMedia now | markEnqueued now =>
    cases hs
    exact transact_check h
  | clean cutoff reason now =>
    simp only [step] at hs
    split at hs
    · cases hs
      exact transact_check h
    · cases hs

/-! ## Revivals -/

/-- **A revival**: a worker schedules a retry although the row says that the job is finished. -/
def revives (s : State) : Event → Bool
  | .fail worker _ =>
    !s.row.1.status.active &&
      match s.turns worker with
      | some copy => decide (copy.1.attempts < copy.1.maxAttempts)
      | none => false
  | _ => false

def Event.isRetry : Event → Bool
  | .retry _ => true
  | _ => false

theorem commit_inactive {s : State} {f : Pair → Pair}
    (hf : (f s.row).1.status.active = true → s.row.1.status.active = true)
    (h : (s.commit f).row.1.status.active = true) : s.row.1.status.active = true := by
  rcases commit_row s f with hrow | hrow
  · rwa [hrow] at h
  · rw [hrow] at h
    exact hf h

/-- A turn that ends in another inactive status leaves an inactive job inactive. -/
theorem exit_inactive {s : State} (worker : Nat) {copy : Pair} {f : Pair → Pair}
    (hrunning : copy.1.status = .running) (hne : (f copy).1.status ≠ .running)
    (hf : (f copy).1.status.active = false)
    (h : (s.exit worker copy f).row.1.status.active = true) : s.row.1.status.active = true := by
  change (transact (some copy) f s.row).stored.1.status.active = true at h
  rcases transact_columns copy f s.row with h' | ⟨h1, -, -⟩
  · rwa [h'] at h
  · rw [h1, column_changed (by rwa [hrunning]), hf] at h
    exact absurd h (by decide)

/-- **A finished job becomes active by a manual retry or a revival only.** -/
theorem active_step {s s' : State} {e : Event} (hcopies : Copies s) (hrevive : revives s e = false)
    (hretry : e.isRetry = false) (hs : step s e = some s')
    (h : s'.row.1.status.active = true) : s.row.1.status.active = true := by
  cases e with
  | claim worker now lease =>
    simp only [step] at hs
    split at hs
    · cases hs
      unfold claimStep at h
      split at h
      · exact h
      · rename_i row hclaim
        exact (claimJob_eq_exhausted hclaim).1
      · rename_i row hclaim
        exact (claimJob_eq_claimed hclaim).1
    · cases hs
  | progress worker phase percent now =>
    simp only [step] at hs
    split at hs
    · rename_i copy hcopy
      split at hs
      · cases hs
        change (transact (some copy) _ s.row).stored.1.status.active = true at h
        rcases transact_columns copy (updateJobProgress phase percent now) s.row with h' | ⟨h1, -, -⟩
        · rwa [h'] at h
        · rwa [h1, updateJobProgress, column_unchanged] at h
      · cases hs
    · cases hs
  | complete worker processed now =>
    obtain ⟨copy, hcopy, rfl⟩ := Option.map_eq_some_iff.mp hs
    obtain ⟨hdone, -⟩ := completeJob_status processed now copy
    unfold completeStep at h
    split at h
    · exact h
    · exact exit_inactive worker (hcopies.running worker copy hcopy).1
        (by simp) (by rw [hdone]; rfl) h
  | reject worker code now =>
    obtain ⟨copy, hcopy, rfl⟩ := Option.map_eq_some_iff.mp hs
    exact exit_inactive worker (hcopies.running worker copy hcopy).1 (by simp [rejectJob]) rfl h
  | fail worker now =>
    obtain ⟨copy, hcopy, rfl⟩ := Option.map_eq_some_iff.mp hs
    rcases recordStorageFailure_status now copy with ⟨-, hf, -⟩ | ⟨hlt, -⟩
    · exact exit_inactive worker (hcopies.running worker copy hcopy).1 (by simp [hf]) (by rw [hf]; rfl) h
    · by_contra hinactive
      simp only [Bool.not_eq_true] at hinactive
      simp [revives, hcopy, hinactive, hlt] at hrevive
  | retry now => exact absurd hretry (by simp [Event.isRetry])
  | failMedia now =>
    cases hs
    refine commit_inactive (fun hjob => ?_) h
    rcases failMedia_status now s.row with ⟨hactive, -⟩ | ⟨-, hrow⟩
    · exact hactive
    · rwa [hrow] at hjob
  | markEnqueued now =>
    cases hs
    exact commit_inactive (f := markEnqueued now) (fun hjob => hjob) h
  | clean cutoff reason now =>
    simp only [step] at hs
    split at hs
    · rename_i hc
      cases hs
      refine commit_inactive (fun hjob => ?_) h
      rwa [(markStorageCleaned_status reason now hc).1] at hjob
    · cases hs

end ComponentKb.Media
