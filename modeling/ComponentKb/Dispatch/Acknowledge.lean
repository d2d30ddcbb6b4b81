import ComponentKb.Dispatch.Cells

/-!
# Acknowledgements and the intents they consume

`mark_delivered` and `mark_delivery_failed` select the row by its id and check that it is `pending`;
the attempt the intent was claimed with is not compared. Whether an acknowledgement finds the intent
it claimed depends on what happened to the row since the claim.

* `acknowledge_takes_iff`: what an acknowledgement delivers or fails, on one row.
* `own_intent_iff`: in every run, each acknowledgement leaves alone an intent that is not its own
  exactly when no late one finds a pending row it would deliver or fail.
-/

namespace ComponentKb.Dispatch

open ComponentKb.Lib

/-- The claim was made before the row's last reset, or before a later claim that was sent. -/
def Cell.late (cell : Cell) (intent : Intent) : Bool :=
  decide (intent.claim ≤ cell.resetAt) || decide (intent.claim < cell.sentUpTo)

/-- **An acknowledgement only consumes the intent it claimed**: when its claim is a late one, it
neither delivers the row nor fails its job. -/
def OwnIntent (w : World) (e : Event) (w' : World) : Prop :=
  ∀ r now intent rest sent cell cell', e = .acknowledge r now →
    w.passes r = some ⟨intent :: rest, some sent⟩ → w.cells intent.dispatchId = some cell →
    cell.late intent = true → w'.cells intent.dispatchId = some cell' →
    (cell'.dispatch.status = .delivered → cell.dispatch.status = .delivered) ∧
      (cell'.job.failed = true → cell.job.failed = true)

/-- The acknowledgement delivers the row or fails its job: the row is pending, and the send
succeeded, or the job is finished, or no attempt is left. -/
def Cell.takes (cell : Cell) (sent : Bool) : Bool :=
  cell.dispatch.status == .pending &&
    (sent || !cell.job.active || decide (cell.dispatch.maxAttempts ≤ cell.dispatch.attempts))

/-- **The late acknowledgement**: the claim is a late one, and the row is pending all the same. -/
def lateAcknowledge (w : World) : Event → Bool
  | .acknowledge r _ =>
    match w.passes r with
    | some ⟨intent :: _, some sent⟩ =>
      (w.cells intent.dispatchId).any fun cell => cell.late intent && cell.takes sent
    | _ => false
  | _ => false

/-- **What an acknowledgement delivers or fails.** -/
theorem acknowledge_takes_iff {cell : Cell} (sent : Bool) (now : Time) (hok : cell.Ok) :
    (((cell.acknowledge sent now).dispatch.status = .delivered →
        cell.dispatch.status = .delivered) ∧
      ((cell.acknowledge sent now).job.failed = true → cell.job.failed = true)) ↔
    cell.takes sent = false := by
  unfold Cell.acknowledge Cell.takes
  by_cases hpending : cell.dispatch.status = .pending
  · rw [if_neg (by simp [hpending])]
    by_cases hactive : cell.job.active = true
    · rw [if_neg (by simp [hactive])]
      cases sent with
      | true => simp [hpending, JobDispatch.deliver]
      | false =>
        have hopen : cell.job.failed = false := by
          by_contra hno
          have hdone := Job.active_of_failed (by simpa using hno)
          exact absurd hactive (by simp [hdone])
        by_cases hge : cell.dispatch.maxAttempts ≤ cell.dispatch.attempts
        · have hfailed : (cell.exhaust now).job.failed = true :=
            cell.job.exhaust_failed now hok.job hactive
          rw [if_neg (by simp), if_pos hge]
          simp [hpending, hge, hfailed, hopen]
        · rw [if_neg (by simp), if_neg hge]
          simp [hpending, hactive, hge, JobDispatch.reschedule]
    · rw [if_pos hactive]
      simp [hpending, hactive, JobDispatch.deliver]
  · rw [if_pos hpending]
    simp [hpending]

/-- One step: the intent of another claim is taken exactly by a late acknowledgement. -/
theorem own_intent_step {st : Settings} {w w' : World} {e : Event} (h : Wf w)
    (hs : step st w e = some w') : OwnIntent w e w' ↔ lateAcknowledge w e = false := by
  cases e with
  | add id new now | job id ev | reconcile r recovered claimed now | send r sent | crash r =>
    exact ⟨fun _ => rfl, fun _ _ _ _ _ _ _ _ he => absurd he (by simp)⟩
  | acknowledge r now =>
    simp only [step] at hs
    split at hs
    · rename_i intent rest sent hpass
      obtain rfl := Option.some.inj hs
      have hlate : lateAcknowledge w (.acknowledge r now) =
          (w.cells intent.dispatchId).any fun cell => cell.late intent && cell.takes sent := by
        simp only [lateAcknowledge, hpass]
      rw [hlate]
      cases hcell : w.cells intent.dispatchId with
      | none =>
        refine ⟨fun _ => rfl, fun _ r' now' intent' rest' sent' cell cell' he hpass' hcell' => ?_⟩
        obtain ⟨rfl, -⟩ := Event.acknowledge.inj he
        obtain ⟨rfl, -⟩ := List.cons.inj (Pass.mk.inj (Option.some.inj (hpass.symm.trans hpass'))).1
        exact absurd (hcell.symm.trans hcell') (by simp)
      | some cell =>
        have hafter : ((w.setPass r (passOf rest)).batch [intent.dispatchId]
            (Cell.acknowledge · sent now)).cells intent.dispatchId =
              some (cell.acknowledge sent now) :=
          batch_cells_eq_some.mpr ⟨cell, hcell, by simp⟩
        have hiff := acknowledge_takes_iff sent now (h _ cell hcell)
        rw [Option.any_some]
        constructor
        · intro hown
          cases hl : cell.late intent with
          | false => rfl
          | true =>
            exact hiff.mp (hown r now intent rest sent cell _ rfl hpass hcell hl hafter)
        · intro hno r' now' intent' rest' sent' cell₁ cell' he hpass' hcell₁ hl hcell'
          obtain ⟨rfl, rfl⟩ := Event.acknowledge.inj he
          obtain ⟨hlist, hsent⟩ := Pass.mk.inj (Option.some.inj (hpass.symm.trans hpass'))
          obtain ⟨rfl, rfl⟩ := List.cons.inj hlist
          obtain rfl := Option.some.inj hsent
          obtain rfl := Option.some.inj (hcell.symm.trans hcell₁)
          obtain rfl := Option.some.inj (hafter.symm.trans hcell')
          rw [hl, Bool.true_and] at hno
          exact hiff.mpr hno
    · exact absurd hs (by simp)

/-- **Every acknowledgement of a run leaves the intents of other claims alone exactly when none of
them is late and finds a row to take.** -/
theorem own_intent_iff {st : Settings} (es : List Event) :
    Along (step st) OwnIntent World.empty es ↔
      Along (step st) (fun w e _ => lateAcknowledge w e = false) World.empty es :=
  along_congr_of_inv (fun _ _ _ h hs => wf_step h hs) (fun _ _ _ h hs => own_intent_step h hs)
    wf_empty

/-- **An intent is lost**: the bundle's worker is fast and puts itself off, by a reset to be sent in
thirty seconds; the pass that sent the bundle then marks the new intent as delivered. -/
theorem intent_lost_to_late_acknowledge :
    ¬ Along (step ⟨60, 60, 1800, 60, 100⟩) OwnIntent World.empty
      [.add 0 (.legacy ⟨.uploaded, .analysis, none, 0⟩) 0, .reconcile 0 [] [0] 0, .send 0 true,
        .acknowledge 0 1, .job 0 (.legacy (.saveAnalysis 2)), .job 0 (.legacy (.apply 3)),
        .reconcile 0 [] [0] 4, .send 0 true, .job 0 (.legacy (.backpressure 5)),
        .acknowledge 0 6] := by
  intro h
  iterate 9 replace h := ((along_cons rfl).mp h).2
  have hown := ((along_cons rfl).mp h).1 0 6 _ _ _ _ _ rfl rfl rfl rfl rfl
  exact absurd (hown.1 rfl) (by decide)

end ComponentKb.Dispatch
