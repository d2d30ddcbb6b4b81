import ComponentKb.Dispatch.World

/-!
# What a step of the dispatch does to a row

* `step_cell`: the inversion of `step` on one row: it is new, or left alone, or changed by a
  transaction of its job, by a reconcile transaction, by a send or by its acknowledgement.
* `holds_step`: a pass lets go of an intent by acknowledging it or by crashing.
* `Cell.Ok`, `wf_step`: in every reachable state, whatever crashes, a retrying job has a retry time,
  a delivered row has a delivery time, and the rows meet their CHECK constraints.
-/

namespace ComponentKb.Dispatch

open ComponentKb.Lib

/-! ## One row, one step -/

/-- The row after the recovery half of a reconcile transaction. -/
def Cell.recovered (cell : Cell) (selected : Bool) (now : Time) : Cell :=
  if selected then cell.recover now else cell

/-- The event acknowledges an intent of the row. -/
def Acknowledges (w : World) (e : Event) (id : UUID) : Prop :=
  ∃ r now intent rest sent, e = .acknowledge r now ∧
    w.passes r = some ⟨intent :: rest, some sent⟩ ∧ intent.dispatchId = id

/-- **What one step does to one row.** -/
theorem step_cell {st : Settings} {w w' : World} {e : Event} {id : UUID} {cell' : Cell}
    (hs : step st w e = some w') (hcell' : w'.cells id = some cell') :
    (∃ new now, e = .add id new now ∧ new.ready = true ∧ cell'.dispatch.check = true ∧
      cell' = new.cell now) ∨
    ∃ cell, w.cells id = some cell ∧
      ((cell' = cell ∧ ¬ Acknowledges w e id) ∨
      (∃ ev job reset, e = .job id ev ∧ cell.job.step ev = some (job, reset) ∧
        cell'.dispatch.check = true ∧ cell' = cell.applyReset job reset) ∨
      (∃ r recovered claimed now, e = .reconcile r recovered claimed now ∧ id ∈ claimed ∧
        (cell.recovered (id ∈ recovered) now).due now = true ∧
        cell' = (cell.recovered (id ∈ recovered) now).claim st now) ∨
      (∃ r recovered claimed now, e = .reconcile r recovered claimed now ∧
        id ∈ recovered ∧ id ∉ claimed ∧ cell' = cell.recover now) ∨
      (∃ r sent claim, e = .send r sent ∧
        cell' = { cell with sentUpTo := max cell.sentUpTo claim }) ∨
      (∃ r now intent rest sent, e = .acknowledge r now ∧
        w.passes r = some ⟨intent :: rest, some sent⟩ ∧ intent.dispatchId = id ∧
        cell' = cell.acknowledge sent now)) := by
  have hother : (∀ r now, e ≠ .acknowledge r now) → ¬ Acknowledges w e id :=
    fun hne ⟨r, now, _, _, _, he, _⟩ => hne r now he
  cases e with
  | add id₀ new now =>
    simp only [step] at hs
    split at hs
    · rename_i hguard
      obtain rfl := Option.some.inj hs
      by_cases hid : id = id₀
      · subst hid
        rw [setCell_cells_self] at hcell'
        obtain rfl := Option.some.inj hcell'
        exact Or.inl ⟨new, now, rfl, hguard.2.1, hguard.2.2, rfl⟩
      · rw [setCell_cells_ne _ _ hid] at hcell'
        exact Or.inr ⟨cell', hcell', Or.inl ⟨rfl, hother (by simp)⟩⟩
    · exact absurd hs (by simp)
  | job id₀ ev =>
    simp only [step] at hs
    split at hs
    · exact absurd hs (by simp)
    · rename_i cell hcell
      split at hs
      · exact absurd hs (by simp)
      · rename_i job reset hjob
        split at hs
        · rename_i hcheck
          obtain rfl := Option.some.inj hs
          by_cases hid : id = id₀
          · subst hid
            rw [setCell_cells_self] at hcell'
            obtain rfl := Option.some.inj hcell'
            exact Or.inr ⟨cell, hcell, Or.inr (Or.inl ⟨ev, job, reset, rfl, hjob, hcheck, rfl⟩)⟩
          · rw [setCell_cells_ne _ _ hid] at hcell'
            exact Or.inr ⟨cell', hcell', Or.inl ⟨rfl, hother (by simp)⟩⟩
        · exact absurd hs (by simp)
  | reconcile r recovered claimed now =>
    simp only [step] at hs
    split at hs
    · exact absurd hs (by simp)
    · unfold reconcileStep at hs
      split at hs
      · simp only at hs
        split at hs
        · rename_i hclaimed
          obtain rfl := Option.some.inj hs
          obtain ⟨cell₁, hcell₁, hclaim⟩ := batch_cells_eq_some.mp hcell'
          obtain ⟨cell, hcell, hrecover⟩ := batch_cells_eq_some.mp hcell₁
          refine Or.inr ⟨cell, hcell, ?_⟩
          have hfirst : cell₁ = cell.recovered (id ∈ recovered) now := by
            rw [hrecover]
            by_cases hrec : id ∈ recovered <;> simp [Cell.recovered, hrec]
          by_cases hid : id ∈ claimed
          · rw [if_pos hid] at hclaim
            have hdue := selects_mem hclaimed hid hcell₁
            rw [hfirst] at hdue hclaim
            exact Or.inr (Or.inr (Or.inl ⟨r, recovered, claimed, now, rfl, hid, hdue, hclaim⟩))
          · rw [if_neg hid] at hclaim
            by_cases hrec : id ∈ recovered
            · rw [if_pos hrec] at hrecover
              exact Or.inr (Or.inr (Or.inr (Or.inl
                ⟨r, recovered, claimed, now, rfl, hrec, hid, hclaim.trans hrecover⟩)))
            · rw [if_neg hrec] at hrecover
              exact Or.inl ⟨hclaim.trans hrecover, hother (by simp)⟩
        · exact absurd hs (by simp)
      · exact absurd hs (by simp)
  | send r sent =>
    simp only [step] at hs
    split at hs
    · rename_i intent rest hpass
      split at hs
      · obtain rfl := Option.some.inj hs
        obtain ⟨cell, hcell, hsent⟩ := batch_cells_eq_some.mp hcell'
        refine Or.inr ⟨cell, hcell, ?_⟩
        split at hsent
        · exact Or.inr (Or.inr (Or.inr (Or.inr (Or.inl ⟨r, sent, intent.claim, rfl, hsent⟩))))
        · exact Or.inl ⟨hsent, hother (by simp)⟩
      · obtain rfl := Option.some.inj hs
        exact Or.inr ⟨cell', hcell', Or.inl ⟨rfl, hother (by simp)⟩⟩
    · exact absurd hs (by simp)
  | acknowledge r now =>
    simp only [step] at hs
    split at hs
    · rename_i intent rest sent hpass
      obtain rfl := Option.some.inj hs
      obtain ⟨cell, hcell, hack⟩ := batch_cells_eq_some.mp hcell'
      refine Or.inr ⟨cell, hcell, ?_⟩
      split at hack
      · rename_i hid
        exact Or.inr (Or.inr (Or.inr (Or.inr (Or.inr
          ⟨r, now, intent, rest, sent, rfl, hpass, (List.mem_singleton.mp hid).symm, hack⟩))))
      · rename_i hid
        refine Or.inl ⟨hack, ?_⟩
        rintro ⟨r', now', intent', rest', sent', he, hpass', hid'⟩
        obtain ⟨rfl, -⟩ := Event.acknowledge.inj he
        obtain ⟨rfl, -⟩ := List.cons.inj (Pass.mk.inj (Option.some.inj (hpass.symm.trans hpass'))).1
        exact hid (List.mem_singleton.mpr hid'.symm)
    · exact absurd hs (by simp)
  | crash r =>
    obtain ⟨_, -, rfl⟩ := Option.map_eq_some_iff.mp hs
    exact Or.inr ⟨cell', hcell', Or.inl ⟨rfl, hother (by simp)⟩⟩

/-- Another pass is not touched by an update of this one. -/
theorem holds_setPass_ne {w : World} {r r' : Nat} (pass : Option Pass) (id : UUID) (h : r' ≠ r) :
    (w.setPass r pass).holds r' id = w.holds r' id := by
  unfold World.holds
  rw [setPass_passes_ne _ _ h]

/-- **A pass lets go of an intent** by acknowledging it or by crashing. -/
theorem holds_step {st : Settings} {w w' : World} {e : Event} {r : Nat} {id : UUID}
    (hs : step st w e = some w') (h : w.holds r id = true) :
    w'.holds r id = true ∨ e = .crash r ∨ Acknowledges w e id := by
  cases e with
  | add id₀ new now =>
    simp only [step] at hs
    split at hs
    · obtain rfl := Option.some.inj hs
      exact Or.inl h
    · exact absurd hs (by simp)
  | job id₀ ev =>
    simp only [step] at hs
    split at hs
    · exact absurd hs (by simp)
    · split at hs
      · exact absurd hs (by simp)
      · split at hs
        · obtain rfl := Option.some.inj hs
          exact Or.inl h
        · exact absurd hs (by simp)
  | reconcile r₀ recovered claimed now =>
    simp only [step] at hs
    split at hs
    · exact absurd hs (by simp)
    · rename_i hidle
      have hne : r ≠ r₀ := by
        rintro rfl
        simp [World.holds, hidle] at h
      unfold reconcileStep at hs
      split at hs
      · simp only at hs
        split at hs
        · obtain rfl := Option.some.inj hs
          exact Or.inl (by rw [holds_setPass_ne _ _ hne]; exact h)
        · exact absurd hs (by simp)
      · exact absurd hs (by simp)
  | send r₀ sent =>
    simp only [step] at hs
    split at hs
    · rename_i intent rest hpass
      have hkeep : (w.setPass r₀ (some ⟨intent :: rest, some sent⟩)).holds r id = true := by
        by_cases hr : r = r₀
        · subst hr
          rw [World.holds, hpass] at h
          rw [World.holds, setPass_passes_self]
          exact h
        · rwa [holds_setPass_ne _ _ hr]
      split at hs <;> obtain rfl := Option.some.inj hs <;> exact Or.inl hkeep
    · exact absurd hs (by simp)
  | acknowledge r₀ now =>
    simp only [step] at hs
    split at hs
    · rename_i intent rest sent hpass
      obtain rfl := Option.some.inj hs
      by_cases hr : r = r₀
      · subst hr
        by_cases hid : intent.dispatchId = id
        · exact Or.inr (Or.inr ⟨r, now, intent, rest, sent, rfl, hpass, hid⟩)
        · refine Or.inl ?_
          show (w.setPass r (passOf rest)).holds r id = true
          rw [World.holds, hpass] at h
          rw [World.holds, setPass_passes_self, any_passOf]
          simp only [Option.any_some, List.any_cons, Bool.or_eq_true, beq_iff_eq] at h
          exact h.resolve_left hid
      · refine Or.inl ?_
        show (w.setPass r₀ (passOf rest)).holds r id = true
        rwa [holds_setPass_ne _ _ hr]
    · exact absurd hs (by simp)
  | crash r₀ =>
    obtain ⟨_, -, rfl⟩ := Option.map_eq_some_iff.mp hs
    by_cases hr : r = r₀
    · exact Or.inr (Or.inl (hr ▸ rfl))
    · exact Or.inl (by rwa [holds_setPass_ne _ _ hr])

/-- The pass that claims a row holds an intent of it. -/
theorem holds_claimed {st : Settings} {w w' : World} {r : Nat} {recovered claimed : List UUID}
    {now : Time} {id : UUID} {cell : Cell}
    (hs : step st w (.reconcile r recovered claimed now) = some w') (hid : id ∈ claimed)
    (hcell : w'.cells id = some cell) : w'.holds r id = true := by
  simp only [step] at hs
  split at hs
  · exact absurd hs (by simp)
  · unfold reconcileStep at hs
    split at hs
    · simp only at hs
      split at hs
      · obtain rfl := Option.some.inj hs
        rw [World.holds, setPass_passes_self, any_passOf, List.any_eq_true]
        refine ⟨Cell.intent id cell, List.mem_filterMap.mpr ⟨id, hid, ?_⟩, by simp [Cell.intent]⟩
        rw [setPass_cells] at hcell
        rw [hcell, Option.map_some]
      · exact absurd hs (by simp)
    · exact absurd hs (by simp)

/-! ## What every cell satisfies -/

def Job.Ok : Job → Prop
  | .imports s => Imports.Copies s ∧ Imports.RetryAt s.job ∧ Mapped.check s.job = true
  | .media s => Media.Copies s ∧ Mapped.check s.row = true
  | .legacy _ => True

structure Cell.Ok (cell : Cell) : Prop where
  job : cell.job.Ok
  maxAttempts : 1 ≤ cell.dispatch.maxAttempts
  attempts : cell.dispatch.attempts ≤ cell.dispatch.maxAttempts
  deliveredAt : cell.dispatch.status = .delivered → cell.dispatch.deliveredAt.isSome

theorem check_iff {d : JobDispatch} : d.check = true ↔
    (1 ≤ d.maxAttempts ∧ d.maxAttempts ≤ 10) ∧ d.attempts ≤ d.maxAttempts := by
  simp [JobDispatch.check]

theorem check_failImport {job : Imports.ImportJob} (now : Time) (h : Mapped.check job = true) :
    Mapped.check (Imports.failImport now job) = true := by
  unfold Imports.failImport
  split
  · simp only [Mapped.check, Bool.and_eq_true] at h ⊢
    exact ⟨⟨h.1.1, rfl⟩, rfl⟩
  · exact h

theorem check_failMedia {row : Media.Pair} (now : Time) (h : Mapped.check row = true) :
    Mapped.check (Media.failMedia now row) = true := by
  unfold Media.failMedia
  simp only
  split
  · simp only [Mapped.check, Bool.and_eq_true] at h ⊢
    obtain ⟨hjob, hasset⟩ := h
    exact ⟨hjob, ⟨⟨hasset.1.1.1, by simp [Media.MediaAsset.readyMetadata]⟩, by simp⟩, by simp⟩
  · exact h

/-- A fresh transaction whose result meets the constraints commits. -/
theorem stored_of_check {R : Type*} [Mapped R] {f : R → R} {row : R}
    (h : Mapped.check (f row) = true) : (transact none f row).stored = f row := by
  rw [transact_none, if_pos h]

/-- **The terminal handlers fail an active job.** -/
theorem Job.exhaust_failed {job : Job} (now : Time) (h : job.Ok) (hactive : job.active = true) :
    (job.exhaust now).failed = true := by
  cases job with
  | imports s =>
    have hrow : (s.commit (Imports.failImport now)).job = Imports.failImport now s.job :=
      stored_of_check (check_failImport now h.2.2)
    have hrun : s.job.status.active = true := hactive
    have hfail : (Imports.failImport now s.job).status = .failed := by
      rw [Imports.failImport, if_pos hrun]
    simp [Job.exhaust, Job.failed, hrow, hfail]
  | media s =>
    have hrow : (s.commit (Media.failMedia now)).row = Media.failMedia now s.row :=
      stored_of_check (check_failMedia now h.2)
    rcases Media.failMedia_status now s.row with ⟨-, hfail, -⟩ | ⟨hno, -⟩
    · simp [Job.exhaust, Job.failed, hrow, hfail]
    · exact absurd hactive (by simp [Job.active, hno])
  | legacy bundle => rfl

theorem Job.active_of_failed {job : Job} (h : job.failed = true) : job.active = false := by
  cases job with
  | imports s =>
    have hs : s.job.status = .failed := by simpa [Job.failed] using h
    simp [Job.active, hs, Imports.Status.active]
  | media s =>
    have hs : s.row.1.status = .failed := by simpa [Job.failed] using h
    simp [Job.active, hs, Media.MediaJobStatus.active]
  | legacy bundle =>
    have hs : bundle.status = .failed := by simpa [Job.failed] using h
    simp [Job.active, hs, Legacy.Status.active]

theorem Job.exhaust_ok {job : Job} (now : Time) (h : job.Ok) : (job.exhaust now).Ok := by
  cases job with
  | imports s =>
    obtain ⟨hcopies, hretry, hcheck⟩ := h
    have hstep : Imports.step s (.failImport now) = some (s.commit (Imports.failImport now)) := rfl
    exact ⟨Imports.copies_step hcopies hstep, Imports.retryAt_step hcopies hretry hstep,
      Imports.check_step hcheck hstep⟩
  | media s =>
    obtain ⟨hcopies, hcheck⟩ := h
    have hstep : Media.step s (.failMedia now) = some (s.commit (Media.failMedia now)) := rfl
    exact ⟨Media.copies_step hcopies hstep, Media.check_step hcheck hstep⟩
  | legacy bundle => trivial

/-- After a terminal handler the job is not active, whatever it was before. -/
theorem Job.exhaust_inactive {job : Job} (now : Time) (h : job.Ok) :
    (job.exhaust now).active = false := by
  by_cases hactive : job.active = true
  · exact Job.active_of_failed (job.exhaust_failed now h hactive)
  · cases job with
    | imports s =>
      have hrow : (s.commit (Imports.failImport now)).job = Imports.failImport now s.job :=
        stored_of_check (check_failImport now h.2.2)
      have hsame : Imports.failImport now s.job = s.job := if_neg hactive
      simpa [Job.exhaust, Job.active, hrow, hsame] using hactive
    | media s =>
      have hrow : (s.commit (Media.failMedia now)).row = Media.failMedia now s.row :=
        stored_of_check (check_failMedia now h.2)
      have hsame : Media.failMedia now s.row = s.row := if_neg hactive
      simpa [Job.exhaust, Job.active, hrow, hsame] using hactive
    | legacy bundle => rfl

theorem Job.enqueued_ok {job : Job} (now : Time) (h : job.Ok) : (job.enqueued now).Ok := by
  cases job with
  | imports s | legacy bundle => exact h
  | media s =>
    obtain ⟨hcopies, hcheck⟩ := h
    have hstep : Media.step s (.markEnqueued now) = some (s.commit (Media.markEnqueued now)) := rfl
    exact ⟨Media.copies_step hcopies hstep, Media.check_step hcheck hstep⟩

/-! ## The transactions of a job -/

def Job.revives : Job → JobEvent → Bool
  | .imports s, .imports e => Imports.revives s e
  | .media s, .media e => Media.revives s e
  | _, _ => false

/-- What a transaction of the job does, by job type: a step of its own system, and a reset exactly
when the step is one that resets. -/
theorem Job.step_cases {job job' : Job} {e : JobEvent} {reset : Option Reset}
    (h : job.step e = some (job', reset)) :
    (∃ s s' e', job = .imports s ∧ e = .imports e' ∧ job' = .imports s' ∧
      Imports.step s e' = some s' ∧ (reset = none → e'.isRetry = false)) ∨
    (∃ s s' e', job = .media s ∧ e = .media e' ∧ job' = .media s' ∧
      Media.step s e' = some s' ∧ (reset = none → e'.isRetry = false)) ∨
    (∃ b b' e', job = .legacy b ∧ e = .legacy e' ∧ job' = .legacy b' ∧
      Legacy.step b e' = some b' ∧ (reset = none → e'.reset = none)) := by
  cases job with
  | imports s =>
    cases e with
    | imports e' =>
      refine Or.inl ⟨s, ?_⟩
      cases e' <;> simp only [Job.step] at h
      case failImport => cases h
      all_goals
        obtain ⟨s', hs', heq⟩ := Option.map_eq_some_iff.mp h
        cases heq
        exact ⟨s', _, rfl, rfl, rfl, hs', fun hno => by first | rfl | cases hno⟩
    | media e' | legacy e' => cases h
  | media s =>
    cases e with
    | media e' =>
      refine Or.inr (Or.inl ⟨s, ?_⟩)
      cases e' <;> simp only [Job.step] at h
      case failMedia => cases h
      case markEnqueued => cases h
      all_goals
        obtain ⟨s', hs', heq⟩ := Option.map_eq_some_iff.mp h
        cases heq
        exact ⟨s', _, rfl, rfl, rfl, hs', fun hno => by first | rfl | cases hno⟩
    | imports e' | legacy e' => cases h
  | legacy b =>
    cases e with
    | legacy e' =>
      simp only [Job.step] at h
      obtain ⟨b', hb', heq⟩ := Option.map_eq_some_iff.mp h
      cases heq
      exact Or.inr (Or.inr ⟨b, b', e', rfl, rfl, rfl, hb', fun hno => by simpa using hno⟩)
    | imports e' | media e' => cases h

theorem Job.step_ok {job job' : Job} {e : JobEvent} {reset : Option Reset} (hok : job.Ok)
    (h : job.step e = some (job', reset)) : job'.Ok := by
  rcases Job.step_cases h with ⟨s, s', e', rfl, rfl, rfl, hs, -⟩ | ⟨s, s', e', rfl, rfl, rfl, hs, -⟩ |
    ⟨b, b', e', rfl, rfl, rfl, -, -⟩
  · obtain ⟨hcopies, hretry, hcheck⟩ := hok
    exact ⟨Imports.copies_step hcopies hs, Imports.retryAt_step hcopies hretry hs,
      Imports.check_step hcheck hs⟩
  · obtain ⟨hcopies, hcheck⟩ := hok
    exact ⟨Media.copies_step hcopies hs, Media.check_step hcheck hs⟩
  · trivial

/-- **A finished job becomes active with a reset, or by a revival.** -/
theorem Job.step_active {job job' : Job} {e : JobEvent} (hok : job.Ok)
    (h : job.step e = some (job', none)) (hrevive : job.revives e = false)
    (hactive : job'.active = true) : job.active = true := by
  rcases Job.step_cases h with ⟨s, s', e', rfl, rfl, rfl, hs, hno⟩ |
    ⟨s, s', e', rfl, rfl, rfl, hs, hno⟩ | ⟨b, b', e', rfl, rfl, rfl, hs, hno⟩
  · exact Imports.active_step hok.1 hrevive (hno rfl) hs hactive
  · exact Media.active_step hok.1 hrevive (hno rfl) hs hactive
  · exact Legacy.active_step hs (hno rfl) hactive

/-! ## The transactions of the dispatcher -/

/-- The failed row keeps its attempts. -/
theorem failDispatch_fields (cell : Cell) (now : Time) :
    (cell.failDispatch now).status = .failed ∧
      (cell.failDispatch now).attempts = cell.dispatch.attempts ∧
      (cell.failDispatch now).maxAttempts = cell.dispatch.maxAttempts := by
  unfold Cell.failDispatch
  split <;> exact ⟨rfl, rfl, rfl⟩

theorem Cell.Ok.exhaust {cell : Cell} (h : cell.Ok) (now : Time) : (cell.exhaust now).Ok := by
  obtain ⟨hstatus, hatt, hmax⟩ := failDispatch_fields cell now
  refine ⟨cell.job.exhaust_ok now h.job, ?_, ?_, fun hno => ?_⟩
  · exact hmax.symm ▸ h.maxAttempts
  · exact hatt.symm ▸ hmax.symm ▸ h.attempts
  · exact absurd (hstatus.symm.trans hno) (by decide)

/-- A row that is pending after a transaction needs no delivery time. -/
theorem deliveredAt_of_pending {d : JobDispatch} (h : d.status = .pending)
    (hno : d.status = .delivered) : d.deliveredAt.isSome :=
  absurd (h.symm.trans hno) (by decide)

theorem Cell.Ok.recover {cell : Cell} (h : cell.Ok) (now : Time) : (cell.recover now).Ok := by
  unfold Cell.recover
  split
  · exact h.exhaust now
  · refine ⟨?_, h.maxAttempts, h.attempts, deliveredAt_of_pending rfl⟩
    have hjob := h.job
    revert hjob
    cases cell.job <;> exact fun hjob => hjob

theorem Cell.Ok.claim {cell : Cell} (h : cell.Ok) (st : Settings) {now : Time}
    (hdue : cell.due now = true) : (cell.claim st now).Ok := by
  simp only [Cell.due, JobDispatch.due, Bool.and_eq_true, decide_eq_true_eq] at hdue
  exact ⟨h.job, h.maxAttempts, hdue.2, h.deliveredAt⟩

theorem Cell.Ok.acknowledge {cell : Cell} (h : cell.Ok) (sent : Bool) (now : Time) :
    (cell.acknowledge sent now).Ok := by
  unfold Cell.acknowledge
  split
  · exact h
  · split
    · exact ⟨h.job, h.maxAttempts, h.attempts, fun _ => rfl⟩
    · split
      · exact ⟨cell.job.enqueued_ok now h.job, h.maxAttempts, h.attempts, fun _ => rfl⟩
      · split
        · exact h.exhaust now
        · exact ⟨h.job, h.maxAttempts, h.attempts, h.deliveredAt⟩

theorem Cell.Ok.applyReset {cell : Cell} (h : cell.Ok) {job : Job} {reset : Option Reset}
    (hjob : job.Ok) (hcheck : (cell.applyReset job reset).dispatch.check = true) :
    (cell.applyReset job reset).Ok := by
  cases reset with
  | none => exact ⟨hjob, h.maxAttempts, h.attempts, h.deliveredAt⟩
  | some r =>
    obtain ⟨⟨hmax, -⟩, hatt⟩ := check_iff.mp hcheck
    exact ⟨hjob, hmax, hatt, deliveredAt_of_pending rfl⟩

theorem NewJob.cell_ok {new : NewJob} {now : Time} (hready : new.ready = true)
    (hcheck : (new.cell now).dispatch.check = true) : (new.cell now).Ok := by
  obtain ⟨⟨hmax, hten⟩, hatt⟩ := check_iff.mp hcheck
  refine ⟨?_, hmax, hatt, ?_⟩
  · cases new with
    | page n =>
      have hnew := (⟨Imports.addJob_new now ⟨hmax, hten⟩, rfl, fun _ => rfl⟩ :
        Imports.State.Initial ⟨Imports.addJob n now, [], fun _ => none⟩)
      exact ⟨hnew.copies, Imports.retryAt_of_status (by simp [Imports.addJob]),
        by simp [Mapped.check, Imports.addJob]⟩
    | repository url revision path entry n =>
      have hnew := (⟨Imports.addRepositoryJob_new url revision path entry now ⟨hmax, hten⟩, rfl,
        fun _ => rfl⟩ : Imports.State.Initial
          ⟨Imports.addRepositoryJob url revision path entry n now, [], fun _ => none⟩)
      exact ⟨hnew.copies,
        Imports.retryAt_of_status (by simp [Imports.addRepositoryJob, Imports.addJob]),
        by simp [Mapped.check, Imports.addRepositoryJob, Imports.addJob]⟩
    | media asset n =>
      have hnew := (⟨Media.startProcessing_started asset now ⟨hmax, hten⟩, rfl, fun _ => rfl⟩ :
        Media.State.Initial ⟨Media.startProcessing asset n now, [], fun _ => none⟩)
      simp only [NewJob.ready, Bool.and_eq_true, beq_iff_eq] at hready
      exact ⟨hnew.copies, Media.check_startProcessing now hready.1 hready.2 ⟨hmax, hten⟩⟩
    | legacy bundle => trivial
  · cases new <;> exact deliveredAt_of_pending rfl

/-- Every cell is well formed. -/
def Wf (w : World) : Prop := ∀ id cell, w.cells id = some cell → cell.Ok

theorem wf_empty : Wf World.empty := fun _ _ hno => absurd hno (by simp [World.empty])

/-- **Every step keeps every cell well formed.** -/
theorem wf_step {st : Settings} {w w' : World} {e : Event} (h : Wf w)
    (hs : step st w e = some w') : Wf w' := by
  intro id cell' hcell'
  rcases step_cell hs hcell' with ⟨new, now, -, hready, hcheck, rfl⟩ | ⟨cell, hcell, hcase⟩
  · exact NewJob.cell_ok hready hcheck
  · have hok := h id cell hcell
    rcases hcase with ⟨rfl, -⟩ | ⟨ev, job, reset, -, hjob, hcheck, rfl⟩ |
      ⟨r, recovered, claimed, now, -, -, hdue, rfl⟩ | ⟨r, recovered, claimed, now, -, -, -, rfl⟩ |
      ⟨r, sent, claim, -, rfl⟩ | ⟨r, now, intent, rest, sent, -, -, -, rfl⟩
    · exact hok
    · exact hok.applyReset (Job.step_ok hok.job hjob) hcheck
    · refine Cell.Ok.claim ?_ st hdue
      unfold Cell.recovered
      split
      · exact hok.recover now
      · exact hok
    · exact hok.recover now
    · exact ⟨hok.job, hok.maxAttempts, hok.attempts, hok.deliveredAt⟩
    · exact hok.acknowledge sent now

end ComponentKb.Dispatch
