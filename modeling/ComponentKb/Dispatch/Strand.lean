import ComponentKb.Dispatch.Cells

/-!
# No job is stranded

`claim_due` raises the attempts of a row that stays `pending`, and selects only rows with attempts
left; `recover_lost_deliveries` selects only `delivered` rows. Between the last claim of a row and
its acknowledgement neither query finds it, and the pass that claimed it has to come back.

* `covered_step`: a step that strands nothing keeps every active job covered: its row is delivered,
  or pending with attempts left, or held by a live pass.
* `held_resolves`: the remaining steps of a live pass deliver a held row or fail its job.
* `never_stranded`: along a run that strands nothing, every active job is found again.
-/

namespace ComponentKb.Dispatch

open ComponentKb.Lib

/-! ## Covered rows -/

/-- Neither query will select the row again, and no live pass holds an intent of it. -/
def Uncovered (w : World) (id : UUID) (cell : Cell) : Prop :=
  cell.dispatch.status = .failed ∨
    (cell.dispatch.status = .pending ∧ cell.dispatch.maxAttempts ≤ cell.dispatch.attempts ∧
      ∀ r, w.holds r id = false)

/-- **The invariant**: every cell is well formed, and no active job is uncovered. -/
structure Inv (w : World) : Prop where
  wf : Wf w
  covered : ∀ id cell, w.cells id = some cell → cell.job.active = true → ¬ Uncovered w id cell

/-- **What strands a job.** A pass crashes that is the last to hold an intent of a pending row at
its last attempt, while the job is active; or a worker revives a finished job whose row is
uncovered. -/
def Strands (w : World) : Event → Prop
  | .crash r =>
    ∃ id cell, w.cells id = some cell ∧ cell.job.active = true ∧ cell.dispatch.status = .pending ∧
      cell.dispatch.maxAttempts ≤ cell.dispatch.attempts ∧ w.holds r id = true ∧
      ∀ r', r' ≠ r → w.holds r' id = false
  | .job id e => ∃ cell, w.cells id = some cell ∧ cell.job.revives e = true ∧ Uncovered w id cell
  | _ => False

theorem covered_of_lt {w : World} {id : UUID} {cell : Cell} (hstatus : cell.dispatch.status ≠ .failed)
    (hlt : cell.dispatch.attempts < cell.dispatch.maxAttempts) : ¬ Uncovered w id cell := by
  rintro (hno | ⟨-, hge, -⟩)
  · exact hstatus hno
  · omega

theorem covered_of_delivered {w : World} {id : UUID} {cell : Cell}
    (hstatus : cell.dispatch.status = .delivered) : ¬ Uncovered w id cell := by
  rintro (hno | ⟨hno, -, -⟩) <;> exact absurd (hstatus.symm.trans hno) (by decide)

theorem covered_of_holds {w : World} {id : UUID} {cell : Cell} {r : Nat}
    (hstatus : cell.dispatch.status ≠ .failed) (hholds : w.holds r id = true) :
    ¬ Uncovered w id cell := by
  rintro (hno | ⟨-, -, hnone⟩)
  · exact hstatus hno
  · exact absurd hholds (by simp [hnone r])

/-! ## The steps -/

/-- A recovered row has attempts left, or its job is finished. -/
theorem recover_covered {cell : Cell} {now : Time} (hok : cell.Ok)
    (hactive : (cell.recover now).job.active = true) :
    (cell.recover now).dispatch.status = .pending ∧
      (cell.recover now).dispatch.attempts < (cell.recover now).dispatch.maxAttempts := by
  unfold Cell.recover at hactive ⊢
  split
  · rename_i hge
    rw [if_pos hge] at hactive
    exact absurd hactive (by simp [Cell.exhaust, cell.job.exhaust_inactive now hok.job])
  · rename_i hlt
    exact ⟨rfl, Nat.not_le.mp hlt⟩

/-- An acknowledged row of an active job is delivered, or pending with attempts left, or was not
pending. -/
theorem acknowledge_covered {w : World} {id : UUID} {cell : Cell} {sent : Bool} {now : Time}
    (hok : cell.Ok) (hcov : cell.job.active = true → cell.dispatch.status ≠ .failed)
    (hactive : (cell.acknowledge sent now).job.active = true) :
    ¬ Uncovered w id (cell.acknowledge sent now) := by
  unfold Cell.acknowledge at hactive ⊢
  split
  · rename_i hstatus
    rw [if_pos hstatus] at hactive
    rintro (hno | ⟨hno, -, -⟩)
    · exact hcov hactive hno
    · exact hstatus hno
  · rename_i hstatus
    rw [if_neg hstatus] at hactive
    split
    · exact covered_of_delivered rfl
    · rename_i hjob
      rw [if_neg hjob] at hactive
      split
      · exact covered_of_delivered rfl
      · rename_i hsent
        rw [if_neg hsent] at hactive
        split
        · rename_i hge
          rw [if_pos hge] at hactive
          exact absurd hactive (by simp [Cell.exhaust, cell.job.exhaust_inactive now hok.job])
        · rename_i hlt
          refine covered_of_lt ?_ (Nat.not_le.mp hlt)
          have hpending := Decidable.not_not.mp hstatus
          simp [JobDispatch.reschedule, hpending]

/-- A row with the same dispatch columns is uncovered only if it was, or if its last holder has
crashed or acknowledged it. -/
theorem Uncovered.before {st : Settings} {w w' : World} {e : Event} {id : UUID} {cell cell' : Cell}
    (hs : step st w e = some w') (hdispatch : cell'.dispatch = cell.dispatch)
    (hack : ¬ Acknowledges w e id) (h : Uncovered w' id cell') :
    Uncovered w id cell ∨
      ∃ r, e = .crash r ∧ cell.dispatch.status = .pending ∧
        cell.dispatch.maxAttempts ≤ cell.dispatch.attempts ∧ w.holds r id = true ∧
        ∀ r', r' ≠ r → w.holds r' id = false := by
  rcases h with hfailed | ⟨hpending, hge, hnone⟩
  · exact Or.inl (Or.inl (hdispatch ▸ hfailed))
  · rw [hdispatch] at hpending hge
    by_cases hheld : ∃ r, w.holds r id = true
    · obtain ⟨r, hr⟩ := hheld
      -- every holder is the one that crashed
      have hcrash : ∀ r', w.holds r' id = true → e = .crash r' := by
        intro r' hr'
        rcases holds_step hs hr' with hkept | hcrash | hacked
        · exact absurd hkept (by simp [hnone r'])
        · exact hcrash
        · exact absurd hacked hack
      refine Or.inr ⟨r, hcrash r hr, hpending, hge, hr, fun r' hne => ?_⟩
      by_contra hr'
      have heq := (hcrash r hr).symm.trans (hcrash r' (by simpa using hr'))
      exact hne (Event.crash.inj heq).symm
    · refine Or.inl (Or.inr ⟨hpending, hge, fun r => ?_⟩)
      by_contra hr
      exact hheld ⟨r, by simpa using hr⟩

/-- **A step that strands nothing keeps every active job covered.** -/
theorem covered_step {st : Settings} {w w' : World} {e : Event} (h : Inv w)
    (hstrands : ¬ Strands w e) (hs : step st w e = some w') : Inv w' := by
  have hwf' := wf_step h.wf hs
  refine ⟨hwf', fun id cell' hcell' hactive => ?_⟩
  have hok' := hwf' id cell' hcell'
  -- a row that keeps its dispatch columns
  have hsame : ∀ cell, w.cells id = some cell → cell'.dispatch = cell.dispatch →
      cell.job.active = true → ¬ Acknowledges w e id → ¬ Uncovered w' id cell' := by
    intro cell hcell hdispatch hjob hack hno
    rcases hno.before hs hdispatch hack with hbefore | ⟨r, rfl, hpending, hge, hr, hothers⟩
    · exact h.covered id cell hcell hjob hbefore
    · exact hstrands ⟨id, cell, hcell, hjob, hpending, hge, hr, hothers⟩
  rcases step_cell hs hcell' with ⟨new, now, -, -, -, rfl⟩ | ⟨cell, hcell, hcase⟩
  · have hnew : (new.cell now).dispatch.status = .pending ∧
        (new.cell now).dispatch.attempts = 0 := by
      cases new <;> exact ⟨rfl, rfl⟩
    have hmax := hok'.maxAttempts
    exact covered_of_lt (by rw [hnew.1]; decide) (by omega)
  · have hok := h.wf id cell hcell
    have hother : (∀ r now, e ≠ .acknowledge r now) → ¬ Acknowledges w e id :=
      fun hne ⟨r, now, _, _, _, he, _⟩ => hne r now he
    rcases hcase with ⟨rfl, hack⟩ | ⟨ev, job, reset, rfl, hjob, -, rfl⟩ |
      ⟨r, recovered, claimed, now, rfl, hid, hdue, rfl⟩ |
      ⟨r, recovered, claimed, now, rfl, -, -, rfl⟩ | ⟨r, sent, claim, rfl, rfl⟩ |
      ⟨r, now, intent, rest, sent, rfl, hpass, hid, rfl⟩
    · exact hsame cell' hcell rfl hactive hack
    · cases reset with
      | some r =>
        have hmax := hok'.maxAttempts
        exact covered_of_lt (fun hno => absurd hno (by simp [Cell.applyReset, JobDispatch.reset]))
          hmax
      | none =>
        cases hbefore : cell.job.active with
        | true => exact hsame cell hcell rfl hbefore (hother (by simp))
        | false =>
          -- the job was finished: a revival, which needs a covered row
          have hrevive : cell.job.revives ev = true := by
            by_contra hno
            have hstill := Job.step_active hok.job hjob (by simpa using hno) hactive
            exact absurd hstill (by simp [hbefore])
          intro hno
          rcases hno.before hs rfl (hother (by simp)) with huncovered | ⟨r, hcrash, -⟩
          · exact hstrands ⟨cell, hcell, hrevive, huncovered⟩
          · exact absurd hcrash (by simp)
    · have hpending : (cell.recovered (id ∈ recovered) now).dispatch.status = .pending := by
        simp only [Cell.due, JobDispatch.due, Bool.and_eq_true, beq_iff_eq] at hdue
        exact hdue.1.1
      refine covered_of_holds ?_ (holds_claimed hs hid hcell')
      show (cell.recovered (id ∈ recovered) now).dispatch.status ≠ .failed
      simp [hpending]
    · obtain ⟨hpending, hlt⟩ := recover_covered hok hactive
      exact covered_of_lt (by simp [hpending]) hlt
    · exact hsame cell hcell rfl hactive (hother (by simp))
    · exact acknowledge_covered hok
        (fun hjob hno => h.covered id cell hcell hjob (Or.inl hno)) hactive

theorem inv_empty : Inv World.empty :=
  ⟨wf_empty, fun _ _ hno => absurd hno (by simp [World.empty])⟩

/-! ## Live passes -/

/-- The pass an event belongs to, after its first transaction. -/
def Event.pass : Event → Option Nat
  | .send r _ | .acknowledge r _ => some r
  | _ => none

/-- Steps of the pass alone, all enabled, after which the row is delivered or the job failed. -/
def Resolves (st : Settings) (w : World) (r : Nat) (id : UUID) : Prop :=
  ∃ es w' cell, (∀ e ∈ es, e.pass = some r) ∧ run (step st) w es = some w' ∧
    w'.cells id = some cell ∧ (cell.dispatch.status = .delivered ∨ cell.job.failed = true)

theorem Resolves.cons {st : Settings} {w w₁ : World} {r : Nat} {id : UUID} {e : Event}
    (he : e.pass = some r) (hs : step st w e = some w₁) (h : Resolves st w₁ r id) :
    Resolves st w r id := by
  obtain ⟨es, w', cell, hpass, hrun, hcell, hdone⟩ := h
  refine ⟨e :: es, w', cell, ?_, run_cons_eq_some.mpr ⟨w₁, hs, hrun⟩, hcell, hdone⟩
  exact List.forall_mem_cons.mpr ⟨he, hpass⟩

/-- The last attempt of an active job ends in a delivered row or a failed job. -/
theorem acknowledge_resolves {cell : Cell} {sent : Bool} (now : Time) (hok : cell.Ok)
    (hactive : cell.job.active = true) (hpending : cell.dispatch.status = .pending)
    (hge : cell.dispatch.maxAttempts ≤ cell.dispatch.attempts) :
    (cell.acknowledge sent now).dispatch.status = .delivered ∨
      (cell.acknowledge sent now).job.failed = true := by
  unfold Cell.acknowledge
  rw [if_neg (by simp [hpending]), if_neg (by simp [hactive]), if_pos hge]
  split
  · exact Or.inl rfl
  · exact Or.inr (cell.job.exhaust_failed now hok.job hactive)

/-- The same for a pass that has sent its first intent: its acknowledgement is due. -/
theorem sent_resolves {st : Settings} {id : UUID} {cell : Cell} {r : Nat} (hok : cell.Ok)
    (hactive : cell.job.active = true) (hpending : cell.dispatch.status = .pending)
    (hge : cell.dispatch.maxAttempts ≤ cell.dispatch.attempts) {intent : Intent}
    {rest : List Intent} {sent : Bool} {w : World} (hcell : w.cells id = some cell)
    (hpass : w.passes r = some ⟨intent :: rest, some sent⟩)
    (hrest : intent.dispatchId ≠ id → ∀ w' : World, w'.cells id = some cell →
      w'.passes r = passOf rest → Resolves st w' r id) : Resolves st w r id := by
  let w' := (w.setPass r (passOf rest)).batch [intent.dispatchId] (Cell.acknowledge · sent 0)
  have hs : step st w (.acknowledge r 0) = some w' := by
    simp only [step, hpass]
    rfl
  have hcell' : w'.cells id =
      some (if id ∈ [intent.dispatchId] then cell.acknowledge sent 0 else cell) :=
    batch_cells_eq_some.mpr ⟨cell, hcell, rfl⟩
  by_cases hid : intent.dispatchId = id
  · rw [if_pos (List.mem_singleton.mpr hid.symm)] at hcell'
    refine Resolves.cons rfl hs ⟨[], w', _, fun _ hno => absurd hno (by simp), rfl, hcell', ?_⟩
    exact acknowledge_resolves 0 hok hactive hpending hge
  · rw [if_neg fun hno => hid (List.mem_singleton.mp hno).symm] at hcell'
    exact Resolves.cons rfl hs (hrest hid w' hcell' (by simp [w']))

/-- **A live pass resolves the rows it holds**, one intent after the other. -/
theorem held_resolves {st : Settings} {id : UUID} {cell : Cell} {r : Nat} (hok : cell.Ok)
    (hactive : cell.job.active = true) (hpending : cell.dispatch.status = .pending)
    (hge : cell.dispatch.maxAttempts ≤ cell.dispatch.attempts) {intents : List Intent}
    {sent : Option Bool} {w : World} (hcell : w.cells id = some cell)
    (hpass : w.passes r = some ⟨intents, sent⟩)
    (hmem : ∃ intent ∈ intents, intent.dispatchId = id) : Resolves st w r id := by
  induction intents generalizing w sent with
  | nil => exact absurd hmem (by simp)
  | cons intent rest ih =>
    have hrest : intent.dispatchId ≠ id → ∀ w' : World, w'.cells id = some cell →
        w'.passes r = passOf rest → Resolves st w' r id := by
      intro hid w' hcell' hpass'
      obtain ⟨i, hi, hidi⟩ := hmem
      have hi' : i ∈ rest := (List.mem_cons.mp hi).resolve_left fun heq => hid (heq ▸ hidi)
      have hne : rest.isEmpty = false := List.isEmpty_eq_false_iff.mpr (List.ne_nil_of_mem hi')
      rw [passOf, hne, if_neg Bool.false_ne_true] at hpass'
      exact ih hcell' hpass' ⟨i, hi', hidi⟩
    cases sent with
    | some sent => exact sent_resolves hok hactive hpending hge hcell hpass hrest
    | none =>
      -- sending fails: nothing but the pass changes
      let w₁ := w.setPass r (some ⟨intent :: rest, some false⟩)
      have hs : step st w (.send r false) = some w₁ := by
        simp only [step, hpass]
        rfl
      exact Resolves.cons rfl hs
        (sent_resolves hok hactive hpending hge hcell (setPass_passes_self ..) hrest)

/-! ## Runs -/

/-- **A job is not stranded**: once it is active, the recovery query selects its row from some time
on, or `claim_due` does, or a live pass holds an intent of the row and its remaining steps deliver
the row or fail the job. -/
def NotStranded (st : Settings) (w : World) (id : UUID) (cell : Cell) : Prop :=
  cell.job.active = true →
    (cell.dispatch.status = .delivered ∧ Eventually (cell.lost st)) ∨
    (cell.dispatch.status = .pending ∧ Eventually cell.due) ∨
    ∃ r, w.holds r id = true ∧ Resolves st w r id

/-- A delivered row of an active job is selected by the recovery from its deadline on. -/
theorem delivered_eventually {st : Settings} {cell : Cell} (hok : cell.Ok)
    (hactive : cell.job.active = true) (hstatus : cell.dispatch.status = .delivered) :
    Eventually (cell.lost st) := by
  have hdelivered := hok.deliveredAt hstatus
  have hjob := hok.job
  unfold Cell.lost
  cases hcell : cell.job with
  | imports s =>
    simp only [hcell, Job.Ok, Job.active] at hjob hactive ⊢
    refine lost_eventually hstatus hdelivered ?_ fun hretrying => hjob.2.1 (by simpa using hretrying)
    cases hs : s.job.status <;> simp_all [Imports.Status.active]
  | media s =>
    simp only [hcell, Job.Ok, Job.active] at hjob hactive ⊢
    refine lost_eventually hstatus hdelivered ?_
      fun hretrying => hjob.1.retryAt (by simpa using hretrying)
    cases hs : s.row.1.status <;> simp_all [Media.MediaJobStatus.active]
  | legacy bundle =>
    simp only [hcell, Job.active] at hactive ⊢
    refine ⟨bundle.updatedAt + seconds 1800 + 1, fun now hnow => ?_⟩
    have hlt : bundle.updatedAt < now - seconds 1800 :=
      Int.lt_sub_right_of_add_lt (Int.lt_of_add_one_le hnow)
    simp [hstatus, hactive, hlt]

theorem not_stranded_of_inv {st : Settings} {w : World} (h : Inv w) {id : UUID} {cell : Cell}
    (hcell : w.cells id = some cell) : NotStranded st w id cell := by
  intro hactive
  have hok := h.wf id cell hcell
  have hcov := h.covered id cell hcell
  cases hstatus : cell.dispatch.status with
  | failed => exact absurd (Or.inl hstatus) (hcov hactive)
  | delivered => exact Or.inl ⟨rfl, delivered_eventually hok hactive hstatus⟩
  | pending =>
    by_cases hlt : cell.dispatch.attempts < cell.dispatch.maxAttempts
    · exact Or.inr (Or.inl ⟨rfl, due_eventually hstatus hlt⟩)
    · have hge := Nat.not_lt.mp hlt
      have hheld : ∃ r, w.holds r id = true := by
        by_contra hnone
        refine hcov hactive (Or.inr ⟨hstatus, hge, fun r => ?_⟩)
        by_contra hr
        exact hnone ⟨r, by simpa using hr⟩
      obtain ⟨r, hr⟩ := hheld
      obtain ⟨pass, hpass, hmem⟩ := holds_iff.mp hr
      exact Or.inr (Or.inr ⟨r, hr, held_resolves hok hactive hstatus hge hcell hpass hmem⟩)

/-- **Along a run that strands nothing, no job is ever stranded.** -/
theorem never_stranded {st : Settings} {es : List Event}
    (hok : Along (step st) (fun w e _ => ¬ Strands w e) World.empty es) :
    Always (step st) (fun w => ∀ id cell, w.cells id = some cell → NotStranded st w id cell)
      World.empty es :=
  always_of_inv
    (fun w e w' (h : Inv w) (hok : ¬ Strands w e) (hs : step st w e = some w') =>
      covered_step h hok hs)
    (fun _ h _ _ hcell => not_stranded_of_inv h hcell) inv_empty hok

/-- Settings in the ranges of `config.py`. -/
def defaultSettings : Settings := ⟨60, 60, 1800, 60, 100⟩

/-- The broker refuses the last attempt and the pass lives to fail the job. -/
theorem never_stranded_exhausted :
    Always (step defaultSettings)
      (fun w => ∀ id cell, w.cells id = some cell → NotStranded defaultSettings w id cell)
      World.empty
      [.add 0 (.page 2) 0, .reconcile 0 [] [0] 0, .crash 0, .reconcile 1 [] [0] 60000000,
        .send 1 false, .acknowledge 1 60000000] := by
  refine never_stranded ?_
  refine (along_cons rfl).mpr ⟨id, (along_cons rfl).mpr ⟨id, (along_cons rfl).mpr ⟨?_, ?_⟩⟩⟩
  · -- the first attempt is lost, and one is left
    rintro ⟨id, cell, hcell, -, -, hge, -⟩
    by_cases hid : id = 0
    · subst hid
      obtain rfl := Option.some.inj hcell
      exact absurd hge (by decide)
    · simp [World.batch, World.setCell, World.setPass, World.empty, hid] at hcell
  · exact (along_cons rfl).mpr ⟨id, (along_cons rfl).mpr ⟨id, (along_cons rfl).mpr ⟨id, trivial⟩⟩⟩

/-- **A job is stranded**: both attempts of a row are claimed by passes that crash before they
acknowledge. The row stays pending with no attempt left and no pass to come back. -/
theorem stranded_after_crash :
    ¬ Always (step defaultSettings)
      (fun w => ∀ id cell, w.cells id = some cell → NotStranded defaultSettings w id cell)
      World.empty
      [.add 0 (.page 2) 0, .reconcile 0 [] [0] 0, .crash 0, .reconcile 1 [] [0] 60000000,
        .crash 1] := by
  intro h
  have hend := h _ [] _ (List.append_nil _).symm rfl 0 _ rfl rfl
  rcases hend with ⟨hno, -⟩ | ⟨-, t, hdue⟩ | ⟨r, hholds, -⟩
  · exact absurd hno (by decide)
  · exact absurd (lt_of_due (hdue t (Int.le_refl t))) (by decide)
  · simp [World.holds, World.setPass, World.batch, World.setCell, World.empty] at hholds

end ComponentKb.Dispatch
