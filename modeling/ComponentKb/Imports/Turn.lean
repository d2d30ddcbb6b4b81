import ComponentKb.Imports.Job
import ComponentKb.Lib.Runs

/-!
# Worker turns over one import job

A turn of `process_import_job` (`imports/processor.py`) is one session and several transactions:
the claim, then one of the exits. The sessions are made with `expire_on_commit=False`, so the copy
of the row that the claim loaded lives on, and `get_job(lock=True)` hands it back without
refreshing it. Any number of turns run over one row, interleaved with the API's cancel and manual
retry and with the dispatcher's `_fail_import`. A worker that crashes takes no further step.

* `acquiring_running`: between the claim and its exit, the copy says `running`, whatever the row
  says by then.
* `cancelled_step`: a step other than a stale exit leaves a cancelled job alone. The handlers that
  run after a rollback read the row again, and the second `_record_transient` of a turn that found
  the import lock busy writes no status.
* `cancel_final`: along a run without stale exits a cancel is final.
-/

namespace ComponentKb.Imports

open ComponentKb.Lib

/-! ## Turns -/

/-- The `except` clauses that follow a rolled back final transaction. -/
inductive Handler where
  | transient
  | failed (code : String)
  deriving DecidableEq, Repr

/-- Where a turn stands between two transactions, with the session's copy of the row. -/
inductive Turn where
  /-- After the claim: fetching, parsing or waiting for the import lock. -/
  | acquiring (copy : ImportJob)
  /-- The import lock was busy: `RetryableImportError` is on its way to `except Exception`. -/
  | relock (copy : ImportJob)
  /-- The final transaction was rolled back, and the copy expired with it. -/
  | rolledBack (handler : Handler)
  deriving DecidableEq, Repr

/-- How a turn leaves `acquiring`. -/
inductive Exit where
  /-- `repository_job_invalid`, a permanent acquisition error, a `ValueError`, a `ParserError`. -/
  | failed (code : String)
  /-- A retryable fetch or acquisition error, or the lock service failing. -/
  | transient
  /-- A repository entry whose parse result is not persistable. -/
  | unparsed (status : ParseStatus) (warnings : List String)
  | lockBusy
  | persist (parsed : Parsed) (component : UUID)
  /-- The final transaction raises before it commits. -/
  | rollback (handler : Handler)
  deriving DecidableEq, Repr

/-- What the exit's transaction does to the row it selected. -/
def Exit.write (now : Time) (job : ImportJob) : Exit → ImportJob
  | .failed code => markFailed code now job
  | .transient | .lockBusy => recordTransient now job
  | .unparsed status warnings =>
    markFailed ("repository_" ++ status.value) now
      { job with parseStatus := some status, warnings := warnings }
  | .persist parsed component => (finish parsed component now job).getD job
  | .rollback _ => job

/-- The turn after the exit's transaction; `copy` is `none` when its commit was refused. -/
def Exit.next (copy : Option ImportJob) : Exit → Option Turn
  | .failed _ | .transient | .unparsed _ _ => none
  | .lockBusy => some (copy.elim (.rolledBack .transient) .relock)
  | .persist _ _ => copy.elim (some (.rolledBack .transient)) fun _ => none
  | .rollback handler => some (.rolledBack handler)

/-- The component the exit's transaction persists for the job. -/
def Exit.draft (now : Time) (job : ImportJob) (copy : Option ImportJob) : Exit → List UUID
  | .persist parsed component =>
    if (finish parsed component now job).isSome ∧ copy.isSome then [component] else []
  | _ => []

/-! ## The system -/

/-- One job: its row, the components persisted for it in order, and the turns under way. -/
structure State where
  job : ImportJob
  drafts : List UUID
  turns : Nat → Option Turn

inductive Event where
  | claim (worker : Nat) (sourceActive : Bool) (now lockTtl : Time)
  | exit (worker : Nat) (exit : Exit) (now : Time)
  | recordAgain (worker : Nat) (now : Time)
  | handle (worker : Nat) (now : Time)
  | retry (now lease : Time)
  | cancel (now : Time)
  | failImport (now : Time)
  deriving DecidableEq, Repr

def State.setTurn (s : State) (worker : Nat) (turn : Option Turn) : State :=
  { s with turns := Function.update s.turns worker turn }

/-- A transaction of a session that holds no copy of the row. -/
def State.commit (s : State) (f : ImportJob → ImportJob) : State :=
  { s with job := (transact none f s.job).stored }

/-- The claim transaction of a new turn. -/
def claimStep (s : State) (worker : Nat) (sourceActive : Bool) (now ttl : Time) : State :=
  match claim sourceActive now ttl s.job with
  | .refused => s
  | .sourceDisabled job => s.commit fun _ => job
  | .claimed job =>
    let done := transact none (fun _ => job) s.job
    { s.setTurn worker (done.copy.map .acquiring) with job := done.stored }

/-- The exit transaction of a turn, over the copy its claim left in the session. -/
def exitStep (s : State) (worker : Nat) (copy : ImportJob) (exit : Exit) (now : Time) : State :=
  let done := transact (some copy) (exit.write now) s.job
  { s.setTurn worker (exit.next done.copy) with
    job := done.stored
    drafts := s.drafts ++ exit.draft now copy done.copy }

/-- `_mark_failed` or `_record_transient` after a rollback. -/
def Handler.write (now : Time) (job : ImportJob) : Handler → ImportJob
  | .transient => recordTransient now job
  | .failed code => markFailed code now job

def step (s : State) : Event → Option State
  | .claim worker sourceActive now ttl =>
    match s.turns worker with
    | none => some (claimStep s worker sourceActive now ttl)
    | some _ => none
  | .exit worker exit now =>
    match s.turns worker with
    | some (.acquiring copy) => some (exitStep s worker copy exit now)
    | _ => none
  | .recordAgain worker now =>
    match s.turns worker with
    | some (.relock copy) =>
      some { s.setTurn worker none with
        job := (transact (some copy) (recordTransient now) s.job).stored }
    | _ => none
  | .handle worker now =>
    match s.turns worker with
    | some (.rolledBack handler) =>
      some ((s.setTurn worker none).commit fun job => handler.write now job)
    | _ => none
  | .retry now lease => (prepareManualRetry s.job now lease).map fun r => s.commit fun _ => r.1
  | .cancel now => (cancel s.job now).map fun job => s.commit fun _ => job
  | .failImport now => some (s.commit (failImport now))

/-- A job just added: no turn, nothing persisted. -/
structure State.Initial (s : State) : Prop where
  job : s.job.New
  drafts : s.drafts = []
  turns : ∀ worker, s.turns worker = none

/-- A cancel is final: from the first cancelled state on, the status and the components persisted
for the job stay as they are. -/
def CancelFinal (s : State) (es : List Event) : Prop :=
  Stays step (fun s => s.job.status = .cancelled)
    (fun a b => b.job.status = a.job.status ∧ b.drafts = a.drafts) s es

def Exit.rollsBack : Exit → Bool
  | .rollback _ => true
  | _ => false

/-- Whether the worker's turn stands between its claim and its exit. -/
def State.acquiring (s : State) (worker : Nat) : Bool :=
  match s.turns worker with
  | some (.acquiring _) => true
  | _ => false

/-- **The stale exit**: the job is cancelled and the event is the exit of a turn that claimed it
before the cancel, other than a rolled back final transaction. -/
def staleExit (s : State) : Event → Bool
  | .exit worker exit _ =>
    s.job.status == .cancelled && s.acquiring worker && !exit.rollsBack
  | _ => false

/-! ## What a turn holds -/

/-- **What the copies say.** A turn that is acquiring holds a running copy with no retry time; one
that found the lock busy holds what `_record_transient` made of such a copy. -/
def Copies (s : State) : Prop :=
  ∀ worker,
    (∀ copy, s.turns worker = some (.acquiring copy) →
      copy.status = .running ∧ copy.nextRetryAt = none) ∧
    (∀ copy, s.turns worker = some (.relock copy) →
      ∃ now job, job.status = .running ∧ job.nextRetryAt = none ∧ copy = recordTransient now job)

theorem Copies.of_turns {s s' : State} (h : Copies s) (hturns : s'.turns = s.turns) :
    Copies s' := by
  unfold Copies
  rw [hturns]
  exact h

/-- Replacing one turn keeps `Copies` when the new turn says what it must. -/
theorem Copies.setTurn {s s' : State} {worker : Nat} {turn : Option Turn} (h : Copies s)
    (hturns : s'.turns = Function.update s.turns worker turn)
    (hacq : ∀ copy, turn = some (.acquiring copy) →
      copy.status = .running ∧ copy.nextRetryAt = none)
    (hrel : ∀ copy, turn = some (.relock copy) →
      ∃ now job, job.status = .running ∧ job.nextRetryAt = none ∧ copy = recordTransient now job) :
    Copies s' := by
  intro w
  rw [hturns]
  by_cases hw : w = worker
  · subst hw
    rw [Function.update_self]
    exact ⟨hacq, hrel⟩
  · rw [Function.update_of_ne hw]
    exact h w

theorem Exit.next_not_acquiring (exit : Exit) (copy : Option ImportJob) (job : ImportJob) :
    exit.next copy ≠ some (.acquiring job) := by
  cases exit <;> cases copy <;> simp [Exit.next]

theorem Exit.next_relock {exit : Exit} {copy : Option ImportJob} {job : ImportJob}
    (h : exit.next copy = some (.relock job)) : exit = .lockBusy ∧ copy = some job := by
  cases exit <;> cases copy <;> simp_all [Exit.next]

theorem copies_step {s s' : State} {e : Event} (h : Copies s) (hs : step s e = some s') :
    Copies s' := by
  cases e with
  | claim worker source now ttl =>
    simp only [step] at hs
    split at hs
    · obtain rfl := Option.some.inj hs
      unfold claimStep
      split
      · exact h
      · exact h.of_turns rfl
      · rename_i job hclaim
        refine h.setTurn rfl (fun copy hcopy => ?_) (fun copy hcopy => ?_)
        · obtain ⟨job', hjob', hturn⟩ := Option.map_eq_some_iff.mp hcopy
          obtain rfl := Turn.acquiring.inj hturn
          rw [transact_copy hjob']
          obtain ⟨-, -, hrunning, -, -, hnone, -⟩ := claim_eq_claimed hclaim
          exact ⟨hrunning, hnone⟩
        · obtain ⟨_, _, hturn⟩ := Option.map_eq_some_iff.mp hcopy
          exact absurd hturn (by simp)
    · exact absurd hs (by simp)
  | exit worker exit now =>
    simp only [step] at hs
    split at hs
    · rename_i copy hcopy
      obtain rfl := Option.some.inj hs
      refine h.setTurn rfl (fun job hjob => absurd hjob (exit.next_not_acquiring _ _))
        (fun job hjob => ?_)
      obtain ⟨rfl, hdone⟩ := Exit.next_relock hjob
      obtain ⟨hrunning, hnone⟩ := (h worker).1 copy hcopy
      exact ⟨now, copy, hrunning, hnone, transact_copy hdone⟩
    · exact absurd hs (by simp)
  | recordAgain worker now | handle worker now =>
    simp only [step] at hs
    split at hs
    · obtain rfl := Option.some.inj hs
      exact h.setTurn rfl (fun _ hno => absurd hno (by simp)) (fun _ hno => absurd hno (by simp))
    · exact absurd hs (by simp)
  | retry now lease | cancel now =>
    obtain ⟨_, _, rfl⟩ := Option.map_eq_some_iff.mp hs
    exact h.of_turns rfl
  | failImport now =>
    obtain rfl := Option.some.inj hs
    exact h.of_turns rfl

theorem State.Initial.copies {s : State} (h : s.Initial) : Copies s := fun worker =>
  ⟨fun _ hno => absurd hno (by simp [h.turns worker]),
    fun _ hno => absurd hno (by simp [h.turns worker])⟩

/-- **The copy of a turn between its claim and its exit says `running`** in every reachable state,
whatever the row says. -/
theorem acquiring_running {s t : State} {es : List Event} {worker : Nat} {copy : ImportJob}
    (hs : s.Initial) (hrun : run step s es = some t)
    (hturn : t.turns worker = some (.acquiring copy)) : copy.status = .running := by
  have hcopies : Copies t :=
    run_inv (fun _ _ _ h _ hstep => copies_step h hstep) hs.copies (along_true s es) hrun
  exact ((hcopies worker).1 copy hturn).1

/-! ## A cancelled job -/

/-- The second `_record_transient` of a turn ends in the status of the first. -/
theorem recordTransient_again (now now' : Time) {job : ImportJob} (h : job.status = .running) :
    (recordTransient now' (recordTransient now job)).status =
      (recordTransient now job).status := by
  obtain ⟨hatt, hmax⟩ := recordTransient_attempts now job
  have hstatus := recordTransient_running now h
  rw [recordTransient, hatt, hmax]
  split at hstatus
  · rename_i hge
    rw [if_neg (by simp [hstatus]), if_pos hge, markFailed_status, if_neg (by simp [hstatus]),
      hstatus]
  · rename_i hlt
    rw [if_neg (by simp [hstatus]), if_neg hlt, hstatus]

/-- Writing back the status that was loaded leaves the stored one. -/
theorem transact_status {copy : ImportJob} {f : ImportJob → ImportJob} (stored : ImportJob)
    (h : (f copy).status = copy.status) :
    (transact (some copy) f stored).stored.status = stored.status := by
  rcases transact_stored_eq_or (some copy) f stored with h' | h'
  · rw [h']
  · rw [h']
    show column copy.status (f copy).status stored.status = stored.status
    rw [h, column_unchanged]

theorem commit_id {s : State} {f : ImportJob → ImportJob} (h : f s.job = s.job) :
    (s.commit f).job = s.job := transact_id h

theorem Handler.write_cancelled {now : Time} {job : ImportJob} (handler : Handler)
    (h : job.status = .cancelled) : handler.write now job = job := by
  cases handler with
  | transient => exact recordTransient_cancelled h
  | failed code => exact markFailed_cancelled h

/-- **A step other than a stale exit leaves a cancelled job alone.** -/
theorem cancelled_step {s s' : State} {e : Event} (hcopies : Copies s) (hok : staleExit s e = false)
    (hs : step s e = some s') (hc : s.job.status = .cancelled) :
    s'.job.status = s.job.status ∧ s'.drafts = s.drafts := by
  cases e with
  | claim worker source now ttl =>
    simp only [step] at hs
    split at hs
    · obtain rfl := Option.some.inj hs
      rw [claimStep, claim_cancelled hc]
      exact ⟨rfl, rfl⟩
    · exact absurd hs (by simp)
  | exit worker exit now =>
    simp only [step] at hs
    split at hs
    · rename_i copy hcopy
      obtain rfl := Option.some.inj hs
      -- only a rolled back final transaction is left, and it writes nothing
      cases exit with
      | rollback handler =>
        exact ⟨transact_status s.job rfl, List.append_nil _⟩
      | _ => simp [staleExit, State.acquiring, Exit.rollsBack, hc, hcopy] at hok
    · exact absurd hs (by simp)
  | recordAgain worker now =>
    simp only [step] at hs
    split at hs
    · rename_i copy hcopy
      obtain rfl := Option.some.inj hs
      obtain ⟨first, job, hjob, -, rfl⟩ := (hcopies worker).2 copy hcopy
      exact ⟨transact_status s.job (recordTransient_again _ _ hjob), rfl⟩
    · exact absurd hs (by simp)
  | handle worker now =>
    simp only [step] at hs
    split at hs
    · rename_i handler _
      obtain rfl := Option.some.inj hs
      exact ⟨congrArg _ (transact_id (handler.write_cancelled hc)), rfl⟩
    · exact absurd hs (by simp)
  | retry now lease =>
    rw [step, prepareManualRetry_cancelled hc] at hs
    exact absurd hs (by simp)
  | cancel now =>
    obtain ⟨job, hjob, rfl⟩ := Option.map_eq_some_iff.mp hs
    have hactive := (cancel_eq_some hjob).1
    exact absurd hactive (by simp [hc, Status.active])
  | failImport now =>
    obtain rfl := Option.some.inj hs
    exact ⟨congrArg _ (commit_id (failImport_cancelled hc)), rfl⟩

/-- **A stale exit that succeeds takes the job out of `cancelled`.** -/
theorem stale_persist {s : State} {worker : Nat} {copy : ImportJob} {parsed : Parsed}
    {component : UUID} {now : Time} (hcopy : copy.status = .running)
    (hcommit : (transact (some copy) (Exit.write now · (.persist parsed component))
      s.job).copy.isSome) :
    (exitStep s worker copy (.persist parsed component) now).job.status = .succeeded ∧
      (exitStep s worker copy (.persist parsed component) now).drafts = s.drafts ++ [component] := by
  have hfinish : finish parsed component now copy = some (complete parsed component now copy) :=
    if_neg (by simp [hcopy])
  have hstatus : (complete parsed component now copy).status = .succeeded := by
    cases parsed <;> rfl
  have hwrite : Exit.write now copy (.persist parsed component) =
      complete parsed component now copy := by
    rw [Exit.write, hfinish, Option.getD_some]
  refine ⟨?_, ?_⟩
  · unfold exitStep
    unfold transact at hcommit ⊢
    simp only [Option.getD_some, hwrite] at hcommit ⊢
    split at hcommit
    · rename_i hcheck
      rw [if_pos hcheck]
      show column copy.status (complete parsed component now copy).status s.job.status = _
      rw [hstatus, column_changed (by simp [hcopy])]
    · exact absurd hcommit (by simp)
  · unfold exitStep
    simp only [Exit.draft, hfinish, Option.isSome_some, true_and]
    rw [if_pos hcommit]

/-! ## Runs -/

/-- A job just added, with three attempts. -/
def newState : State := ⟨addJob 3 0, [], fun _ => none⟩

theorem newState_initial : newState.Initial :=
  ⟨addJob_new 0 (by decide), rfl, fun _ => rfl⟩

/-- **A cancel is final along every run without stale exits.** -/
theorem cancel_final {s : State} {es : List Event} (hs : s.Initial)
    (hok : Along step (fun s e _ => staleExit s e = false) s es) : CancelFinal s es := by
  refine (stays_iff_along (fun _ => ⟨rfl, rfl⟩)
    (fun _ _ _ hab hbc => ⟨hbc.1.trans hab.1, hbc.2.trans hab.2⟩)
    (fun _ _ ha hab => hab.1.trans ha)).mpr ?_
  exact along_of_inv (fun _ _ _ h _ hstep => copies_step h hstep)
    (fun _ _ _ h hok hstep hc => cancelled_step h hok hstep hc) hs.copies hok

/-- The worker loses its fetch, the job is cancelled while it waits for the retry, and the retry
finds nothing to claim. -/
theorem cancel_final_waiting :
    CancelFinal newState
      [.claim 0 true 10 900, .exit 0 .transient 20, .cancel 30, .claim 1 true 40 900] :=
  cancel_final newState_initial (by decide)

/-- **A cancel of a running import is lost**: the worker that claimed the job before the cancel
persists its component and the job ends as `succeeded`. -/
theorem cancel_overwritten :
    ¬ CancelFinal newState
      [.claim 0 true 10 900, .cancel 20, .exit 0 (.persist (.page "https://x" "1") 7) 30] := by
  intro h
  have hlost := h [.claim 0 true 10 900, .cancel 20]
    [.exit 0 (.persist (.page "https://x" "1") 7) 30] [] _ _ rfl rfl rfl rfl
  exact absurd hlost.1 (by decide)

end ComponentKb.Imports
