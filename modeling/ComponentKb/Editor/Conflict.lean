import ComponentKb.Lib.Runs
import ComponentKb.Editor.Sync

/-!
# Nothing is saved over a conflict

A conflict is a value of `status`, and `status` is all that stops `edit` and `flush`. The body of a
command that starts in a conflict is stopped by `flush` as well, but its `catch` then publishes
`error`, and the next `flush` finds nothing that stops it.

* `Locked`: what holds of the fields while every conflict is still a `conflict` in the view.
* `locked_step`: every step that does not start the body of a command in a conflict keeps it.
* `never_overwrites`: along a run of such steps every save is sent with the version the local edits
  were derived from, and none is sent between a conflict and `discard`.
-/

namespace ComponentKb.Editor

open ComponentKb.Lib

variable {S C : Type*} [SyncCard C]

/-- **What a save must satisfy.** -/
def SafeSave (s : State S C) : Prop :=
  ∀ state card, s.history.sent = some (.save state card) →
    s.history.derived = some (token card) ∧ s.history.conflicted = false

/-- **What loses a conflict**: the body of a command starts in a conflict, and no drain is under
way. -/
def losesConflict (s : State S C) : Event S C → Bool
  | .startCommand => !s.disposed && s.active.isNone && s.view.status = .conflict
  | _ => false

/-! ## The invariant -/

/-- The local edits are derived from the card in the view. -/
def State.based (s : State S C) : Prop :=
  ∀ card, s.view.card = some card → s.history.derived = some (token card)

/-- What holds while a drain is under way. -/
def State.drainOk (s : State S C) : Prop :=
  match s.active with
  | none => True
  | some .scheduled | some (.awaiting _ _) =>
    s.view.recovery = none ∧ s.view.status ≠ .conflict ∧ s.history.conflicted = false ∧ s.based
  | some (.settled none) =>
    s.view.recovery = none ∧ s.view.status ≠ .conflict ∧ s.view.dirty = false
  | some (.settled (some reason)) =>
    s.view.recovery = none ∧ (s.view.status = .conflict ↔ reason = .conflict)

/-- What holds while a command is under way. -/
def State.flightOk (s : State S C) : Prop :=
  match s.commandFlight with
  | none | some .scheduled => True
  | some .flushing => s.active.isSome
  | some .flushed | some (.operating _) =>
    s.active = none ∧ s.view.recovery = none ∧ s.view.status ≠ .conflict ∧ s.view.dirty = false
  | some (.failing .other) => s.active = none ∧ s.view.status ≠ .conflict
  | some (.failing .conflict) => s.active = none ∧ s.view.recovery = none
  | some .settled => s.active = none

/-- **The invariant** of a controller that is not disposed. -/
structure Locked (s : State S C) : Prop where
  pending : s.view.commandPending = s.commandFlight.isSome
  drain : s.drainOk
  flight : s.flightOk
  waiting : s.view.recovery.isSome → s.view.status ≠ .conflict
  based : s.view.status ≠ .conflict → s.based
  conflict : s.history.conflicted → s.view.status = .conflict ∨
    s.commandFlight = some (.failing .conflict)
  sent : SafeSave s

/-- Nothing of what the invariant reads changes but the wording of the status. -/
theorem Locked.congr {s s' : State S C} (h : Locked s) (hactive : s'.active = s.active)
    (hflight : s'.commandFlight = s.commandFlight)
    (hpending : s'.view.commandPending = s.view.commandPending)
    (hrecovery : s'.view.recovery = s.view.recovery) (hcard : s'.view.card = s.view.card)
    (hhistory : s'.history = s.history)
    (hstatus : s'.view.status = .conflict ↔ s.view.status = .conflict)
    (hdirty : s'.view.dirty = s.view.dirty ∨ s.quiet ∧ s.commandFlight = none) : Locked s' := by
  have hbased : s'.based ↔ s.based := by
    rw [State.based, State.based, hcard, hhistory]
  obtain ⟨h1, h2, h3, h4, h5, h6, h7⟩ := h
  refine ⟨by rw [hpending, hflight, h1], ?_, ?_, ?_, ?_, ?_, ?_⟩
  · unfold State.drainOk at h2 ⊢
    rw [hactive, hrecovery, hhistory, hbased]
    rcases hs : s.active with _ | (_ | _ | _ | failure) <;>
      simp_all [State.quiet]
  · unfold State.flightOk at h3 ⊢
    rw [hactive, hflight, hrecovery]
    rcases hs : s.commandFlight with _ | (_ | _ | _ | _ | (_ | _) | _) <;> simp_all
  · rw [hrecovery]
    exact fun hr hno => h4 hr (hstatus.mp hno)
  · exact fun hno => hbased.mpr (h5 fun hs => hno (hstatus.mpr hs))
  · rw [hhistory, hflight, hstatus]
    exact h6
  · unfold SafeSave at h7 ⊢
    rw [hhistory]
    exact h7

theorem Locked.persist {s : State S C} (h : Locked s) (stored : Bool) :
    Locked (persist s stored) :=
  h.congr rfl rfl rfl rfl rfl rfl Iff.rfl (Or.inl rfl)

/-! ## Edits, timers and flushes -/

theorem Locked.edit {o : SyncOptions S C} {s : State S C} (h : Locked s) (hquiet : s.quiet)
    (state : S) (stored : Bool) : Locked (edit o s state stored) := by
  by_cases hrefuses : s.refusesEdit
  · rw [Editor.edit, if_pos hrefuses]
    exact h
  · rw [Editor.edit, if_neg hrefuses]
    have hflight : s.commandFlight = none := by
      have hpending : s.view.commandPending = false := by
        simp only [State.refusesEdit, Bool.or_eq_true, not_or] at hrefuses
        simpa using hrefuses.1.2
      simpa [h.pending] using hpending
    refine h.congr rfl rfl rfl rfl rfl rfl ?_ (Or.inr ⟨hquiet, hflight⟩)
    by_cases hconflict : s.view.status = .conflict
    · simp [Editor.persist, hconflict]
    · simp only [Editor.persist, hconflict, decide_false, Bool.false_eq_true, if_false, iff_false]
      split <;> decide

/-- No reaction of a command is under way. -/
def Flight.waiting : Flight C → Bool
  | .scheduled | .flushing | .operating _ => true
  | .flushed | .failing _ | .settled => false

omit [SyncCard C] in
theorem waiting_of_quiet {s : State S C} (h : s.quiet) : s.commandFlight.all Flight.waiting := by
  rcases hs : s.commandFlight with _ | (_ | _ | _ | _ | _ | _) <;>
    simp_all [State.quiet, Flight.waiting]

omit [SyncCard C] in
theorem waiting_of_idle {s : State S C} (h : s.idle) : s.commandFlight.all Flight.waiting := by
  rcases hs : s.commandFlight with _ | (_ | _ | _ | _ | _ | _) <;>
    simp_all [State.idle, Flight.waiting]

/-- A conflict that has come in is the status, unless a command still has to publish it. -/
theorem Locked.not_conflicted {s : State S C} (h : Locked s) (hstatus : s.view.status ≠ .conflict)
    (hwaiting : s.commandFlight.all Flight.waiting) : s.history.conflicted = false := by
  by_contra hno
  rcases h.conflict (by simpa using hno) with hconflict | hfailing
  · exact hstatus hconflict
  · simp [hfailing, Flight.waiting] at hwaiting

/-- A drain starts only outside a conflict. -/
theorem Locked.started {s : State S C} (h : Locked s)
    (hwaiting : s.commandFlight.all Flight.waiting) (hrecovery : s.view.recovery = none)
    (hstatus : s.view.status ≠ .conflict) (hdirty : s.view.dirty = true) :
    Locked { s with timer := false, active := some .scheduled } := by
  refine ⟨h.pending, ⟨hrecovery, hstatus, h.not_conflicted hstatus hwaiting, h.based hstatus⟩, ?_,
    h.waiting, h.based, h.conflict, h.sent⟩
  have hflight := h.flight
  unfold State.flightOk at hflight ⊢
  rcases hs : s.commandFlight with _ | (_ | _ | _ | _ | _ | _) <;> simp_all [Flight.waiting]

theorem Locked.flush {s : State S C} (h : Locked s)
    (hwaiting : s.commandFlight.all Flight.waiting) : Locked (flush s).1 := by
  have hsame : Locked { s with timer := false } :=
    h.congr rfl rfl rfl rfl rfl rfl Iff.rfl (Or.inl rfl)
  have hspec := flush_spec s
  generalize Editor.flush s = result at hspec
  cases hspec with
  | disposed => exact h
  | joined => exact hsame
  | stopped => exact hsame
  | clean => exact hsame
  | started _ _ hrecovery hstatus hdirty => exact h.started hwaiting hrecovery hstatus hdirty

/-! ## Drains -/

/-- A drain leaves a command where it waits for it, or before it. -/
theorem Locked.flight_of_active {s : State S C} (h : Locked s) {drain : Drain S C}
    (hactive : s.active = some drain) :
    s.commandFlight = none ∨ s.commandFlight = some .scheduled ∨
      s.commandFlight = some .flushing := by
  have hflight := h.flight
  unfold State.flightOk at hflight
  rcases hs : s.commandFlight with _ | (_ | _ | _ | _ | (_ | _) | _) <;> simp_all

/-- What a drain that is not over can rely on. -/
structure Sending (s : State S C) : Prop where
  locked : Locked s
  live : s.disposed = false
  silent : s.history.sent = none
  recovery : s.view.recovery = none
  status : s.view.status ≠ .conflict
  conflicted : s.history.conflicted = false
  based : s.based
  flight : s.commandFlight = none ∨ s.commandFlight = some .scheduled ∨
    s.commandFlight = some .flushing

theorem Locked.sending {s : State S C} (h : Locked s) (hlive : s.disposed = false)
    (hsilent : s.history.sent = none)
    (hactive : s.active = some .scheduled ∨ ∃ request g, s.active = some (.awaiting request g)) :
    Sending s := by
  have hdrain := h.drain
  unfold State.drainOk at hdrain
  rcases hactive with hactive | ⟨request, g, hactive⟩ <;>
  · simp only [hactive] at hdrain
    obtain ⟨hrecovery, hstatus, hconflicted, hbased⟩ := hdrain
    exact ⟨h, hlive, hsilent, hrecovery, hstatus, hconflicted, hbased, h.flight_of_active hactive⟩

/-- **A drain sends the card the edits are derived from.** -/
theorem Sending.drainLoop {s : State S C} (h : Sending s) : Locked (drainLoop s) := by
  have hspec := drainLoop_spec s
  generalize Editor.drainLoop s = s' at hspec
  obtain ⟨hlocked, hlive, hsilent, hrecovery, hstatus, hconflicted, hbased, hflight⟩ := h
  cases hspec with
  | finished =>
    refine ⟨hlocked.pending, ⟨hrecovery, by simp, rfl⟩, ?_, by simp, fun _ => hbased,
      by simp [hconflicted], hlocked.sent⟩
    rcases hflight with hflight | hflight | hflight <;> simp [State.flightOk, hflight]
  | disposed _ hdisposed => exact absurd hdisposed (by simp [hlive])
  | invalid =>
    refine ⟨hlocked.pending, ⟨hrecovery, by simp⟩, ?_, by simp, fun _ => hbased,
      by simp [hconflicted], hlocked.sent⟩
    rcases hflight with hflight | hflight | hflight <;> simp [State.flightOk, hflight]
  | sent =>
    refine ⟨hlocked.pending, ⟨hrecovery, by simp, hconflicted, hbased⟩, ?_, by simp,
      fun _ => hbased, by simp [hconflicted], ?_⟩
    · rcases hflight with hflight | hflight | hflight <;> simp [State.flightOk, hflight]
    · intro state card hsent
      have hcard := (request_eq_save.mp (Option.some.inj hsent)).1
      exact ⟨hbased card hcard, hconflicted⟩

/-- A failed request: after a conflict the card need not be the one the edits are derived from. -/
theorem Sending.drainFailed {s : State S C} (h : Sending s) (card : Option C) (state : S)
    (failure : Failure) (hcard : failure = .other → card = s.view.card) (stored : Bool) :
    Locked (drainFailed { s with view := { s.view with card := card, state := state } }
      failure stored) := by
  obtain ⟨hlocked, -, hsilent, hrecovery, -, hconflicted, hbased, hflight⟩ := h
  unfold Editor.drainFailed
  refine Locked.persist ?_ stored
  refine ⟨hlocked.pending, ?_, ?_, ?_, ?_, ?_, ?_⟩
  · refine ⟨hrecovery, ?_⟩
    cases failure <;> simp [Failure.status]
  · rcases hflight with hflight | hflight | hflight <;> simp [State.flightOk, hflight]
  · simp [hrecovery]
  · cases failure with
    | conflict => simp [Failure.status]
    | other =>
      intro _ c hc
      exact hbased c (hcard rfl ▸ hc)
  · cases failure <;> simp [Failure.status, hconflicted]
  · simp [SafeSave, hsilent]

/-- An accepted request: the edits are derived from the new card. -/
theorem Sending.accepted {s : State S C} (h : Sending s)
    (hactive : s.active = some .scheduled ∨ ∃ request g, s.active = some (.awaiting request g))
    (card : C) (generation : Nat) (state acknowledged : S) (created stored : Bool) :
    Sending (persist
      { s with
        acknowledged := generation
        baseToken := some (token card)
        view := { s.view with card := some card, state := state }
        history := { s.history with
          derived := some (token card), acknowledged := acknowledged, created := created } }
      stored) := by
  have hbased : ∀ c, some card = some c → some (token card) = some (token c) :=
    fun c hc => by rw [Option.some.inj hc]
  have hsafe : ∀ state c, s.history.sent = some (.save state c) →
      some (token card) = some (token c) ∧ s.history.conflicted = false :=
    fun state c hno => absurd hno (by simp [h.silent])
  refine Locked.sending (.persist ?_ stored) h.live h.silent hactive
  refine ⟨h.locked.pending, ?_, h.locked.flight, h.locked.waiting, fun _ => hbased,
    h.locked.conflict, hsafe⟩
  unfold State.drainOk
  rcases hactive with hs | ⟨_, _, hs⟩ <;> simp only [hs] <;>
    exact ⟨h.recovery, h.status, h.conflicted, hbased⟩

theorem Locked.drainReply {o : SyncOptions S C} {s : State S C} (h : Locked s)
    (hlive : s.disposed = false) (hsilent : s.history.sent = none) {request : Request S C}
    {g : Nat} (hactive : s.active = some (.awaiting request g)) (reply : Reply C) (stored : Bool) :
    Locked (drainReply o s request g reply stored) := by
  have hsending : s.active = some .scheduled ∨ ∃ request g, s.active = some (.awaiting request g) :=
    Or.inr ⟨request, g, hactive⟩
  have hs := h.sending hlive hsilent hsending
  cases reply with
  | failure failure =>
    simp only [Editor.drainReply, hlive, Bool.false_eq_true, if_false]
    exact hs.drainFailed s.view.card s.view.state failure (fun _ => rfl) stored
  | card card =>
    simp only [Editor.drainReply, hlive, Bool.false_eq_true, if_false]
    cases request with
    | save state old =>
      exact (hs.accepted hsending card g s.view.state state s.history.created stored).drainLoop
    | create state key =>
      simp only [created]
      split
      · exact hs.drainFailed (some card) (o.acceptMetadata s.view.state card) .conflict
          (fun hno => absurd hno (by decide)) stored
      · exact (hs.accepted hsending card s.acknowledged (o.acceptMetadata s.view.state card) state
          true stored).drainLoop

/-- A drain that is over hands its failure to the command that waits for it. -/
theorem Locked.finishDrain {s : State S C} (h : Locked s) {failure : Option Failure}
    (hactive : s.active = some (.settled failure)) : Locked (finishDrain s failure) := by
  have hflight := h.flight_of_active hactive
  have hdrain := h.drain
  unfold State.drainOk at hdrain
  rw [hactive] at hdrain
  refine ⟨?_, trivial, ?_, h.waiting, h.based, ?_, h.sent⟩
  · rcases hflight with hf | hf | hf <;> simp [Editor.finishDrain, h.pending, hf]
  · rcases hflight with hf | hf | hf
    · simp [Editor.finishDrain, State.flightOk, hf]
    · simp [Editor.finishDrain, State.flightOk, hf]
    · rcases failure with _ | (_ | _) <;> simp_all [Editor.finishDrain, State.flightOk]
  · intro hconflicted
    have hstatus : s.view.status = .conflict := by
      rcases h.conflict hconflicted with hstatus | hfailing
      · exact hstatus
      · rcases hflight with hf | hf | hf <;> simp [hf] at hfailing
    exact Or.inl hstatus

/-! ## Recovery drafts -/

/-- A controller with no drain under way, and no command past its start. -/
theorem Locked.of_rest {s : State S C} (hpending : s.view.commandPending = s.commandFlight.isSome)
    (hactive : s.active = none)
    (hflight : s.commandFlight = none ∨ s.commandFlight = some .scheduled)
    (hwaiting : s.view.recovery.isSome → s.view.status ≠ .conflict)
    (hbased : s.view.status ≠ .conflict → s.based)
    (hconflict : s.history.conflicted → s.view.status = .conflict)
    (hsilent : s.history.sent = none) : Locked s := by
  refine ⟨hpending, ?_, ?_, hwaiting, hbased, fun hc => Or.inl (hconflict hc), ?_⟩
  · simp [State.drainOk, hactive]
  · rcases hflight with hf | hf <;> simp [State.flightOk, hf]
  · simp [SafeSave, hsilent]

/-- An accepted draft is derived from the version it was written for; when the card has another
version, the view shows a conflict. -/
theorem accept_locked {o : SyncOptions S C} {s : State S C} (recovery : Recovery S) (stored : Bool)
    (hpending : s.view.commandPending = s.commandFlight.isSome) (hactive : s.active = none)
    (hflight : s.commandFlight = none ∨ s.commandFlight = some .scheduled ∧ s.based)
    (hlive : s.disposed = false) (hconflicted : s.history.conflicted = false)
    (hsilent : s.history.sent = none) : Locked (accept o s recovery stored) := by
  unfold accept
  rcases hflight with hflight | ⟨hflight, hbased⟩
  · -- the draft becomes the local state
    have hopen : s.view.commandPending = false := by simp [hpending, hflight]
    simp only [Editor.edit, State.refusesEdit, hlive, hopen, Editor.persist, Option.isSome_none,
      Bool.or_self, Bool.false_eq_true, if_false]
    split
    · rename_i htoken
      refine Locked.of_rest (by simp [hflight]) hactive (Or.inl hflight) (by simp) ?_
        (by simp [hconflicted]) hsilent
      intro _ card hcard
      have hcard : s.view.card = some card := hcard
      show recovery.token = some (token card)
      rw [← htoken, hcard]
      rfl
    · exact Locked.of_rest (by simp [hflight]) hactive (Or.inl hflight) (by simp) (by simp)
        (by simp) hsilent
  · -- `edit` refuses it
    have hopen : s.view.commandPending = true := by simp [hpending, hflight]
    simp only [Editor.edit, State.refusesEdit, hlive, hopen, Bool.or_true, Bool.true_or, if_true]
    split
    · exact Locked.of_rest (by simp [hflight]) hactive (Or.inr hflight) (by simp)
        (fun _ => hbased) (by simp [hconflicted]) hsilent
    · exact Locked.of_rest (by simp [hflight]) hactive (Or.inr hflight) (by simp) (by simp)
        (by simp) hsilent

/-- A draft waits for the user only while nothing is synchronized. -/
theorem Locked.rest_of_recovery {s : State S C} (h : Locked s) {recovery : Recovery S}
    (hrecovery : s.view.recovery = some recovery) (hwaiting : s.commandFlight.all Flight.waiting) :
    s.active = none ∧ (s.commandFlight = none ∨ s.commandFlight = some .scheduled) ∧
      s.view.status ≠ .conflict ∧ s.history.conflicted = false := by
  have hstatus := h.waiting (by simp [hrecovery])
  have hdrain := h.drain
  have hflight := h.flight
  unfold State.drainOk at hdrain
  unfold State.flightOk at hflight
  have hactive : s.active = none := by
    rcases hs : s.active with _ | (_ | _ | _ | _) <;> simp_all
  refine ⟨hactive, ?_, hstatus, h.not_conflicted hstatus hwaiting⟩
  rcases hs : s.commandFlight with _ | (_ | _ | _ | _ | _ | _) <;> simp_all [Flight.waiting]

theorem Locked.recover {o : SyncOptions S C} {s : State S C} (h : Locked s)
    (hlive : s.disposed = false) (hsilent : s.history.sent = none) (hquiet : s.quiet)
    (stored : Bool) : Locked (recover o s stored) := by
  unfold Editor.recover
  split
  · exact h
  · rename_i recovery hrecovery
    obtain ⟨hactive, hflight, hstatus, hconflicted⟩ :=
      h.rest_of_recovery hrecovery (waiting_of_quiet hquiet)
    split
    · exact h.congr rfl rfl rfl rfl rfl rfl Iff.rfl (Or.inl rfl)
    · exact accept_locked recovery stored h.pending hactive
        (hflight.imp_right fun hf => ⟨hf, h.based hstatus⟩) hlive hconflicted hsilent

omit [SyncCard C] in
theorem not_scheduled_of_idle {s : State S C} (h : s.idle) : s.commandFlight ≠ some .scheduled := by
  intro hno
  simp [State.idle, hno] at h

/-- No command waits when the card of a draft arrives: it is accepted at once. -/
theorem Locked.loaded {o : SyncOptions S C} {s : State S C} (h : Locked s)
    (hlive : s.disposed = false) (hsilent : s.history.sent = none) (hidle : s.idle)
    (reply : Reply C) (stored : Bool) : Locked (loaded o s reply stored) := by
  have hsame : Locked { s with loads := s.loads - 1 } :=
    h.congr rfl rfl rfl rfl rfl rfl Iff.rfl (Or.inl rfl)
  cases reply with
  | failure failure =>
    simp only [Editor.loaded, hlive, Bool.false_eq_true, if_false]
    exact h.congr rfl rfl rfl rfl rfl rfl Iff.rfl (Or.inl rfl)
  | card card =>
    simp only [Editor.loaded, hlive, Bool.false_eq_true, if_false]
    split
    · simpa only [hlive] using hsame
    · rename_i recovery hrecovery
      obtain ⟨hactive, hflight, -, hconflicted⟩ :=
        h.rest_of_recovery hrecovery (waiting_of_idle hidle)
      have hnone := hflight.resolve_right (not_scheduled_of_idle hidle)
      exact accept_locked recovery stored h.pending hactive (Or.inl hnone) rfl hconflicted
        hsilent

theorem Locked.discard {o : SyncOptions S C} {s : State S C} (h : Locked s)
    (hsilent : s.history.sent = none) (card : Option C) (state : Option S) :
    Locked (discard o s card state) := by
  unfold Editor.discard
  split
  · exact h
  · rename_i hfree
    simp only [not_or, Option.not_isSome_iff_eq_none] at hfree
    refine Locked.of_rest h.pending hfree.1 (Or.inl hfree.2) (by simp) ?_ (by simp) hsilent
    intro _ c hc
    have hc : (card.orElse fun _ => o.card) = some c := hc
    show (card.orElse fun _ => o.card).map token = some (token c)
    rw [hc]
    rfl

/-! ## Commands -/

theorem Locked.command {s : State S C} (h : Locked s) : Locked (command s) := by
  unfold Editor.command
  split
  · exact h
  · rename_i hfree
    simp only [not_or, Option.not_isSome_iff_eq_none] at hfree
    refine ⟨rfl, h.drain, trivial, h.waiting, h.based, ?_, h.sent⟩
    intro hconflicted
    exact (h.conflict hconflicted).imp_right fun hno => absurd hno (by simp [hfree.2.2])

/-- The body of a command that is stopped by anything but a conflict. -/
theorem Locked.startCommand {s : State S C} (h : Locked s) (hlive : s.disposed = false)
    (hscheduled : s.commandFlight = some .scheduled) (hkeeps : losesConflict s .startCommand = false) :
    Locked (startCommand s) := by
  unfold Editor.startCommand
  have hconflict : s.history.conflicted → s.view.status = .conflict :=
    fun hc => (h.conflict hc).resolve_right (by simp [hscheduled])
  have hpending : s.view.commandPending = true := by simp [h.pending, hscheduled]
  have hspec := flush_spec s
  generalize Editor.flush s = result at hspec
  cases hspec with
  | disposed hno => exact absurd hno (by simp [hlive])
  | joined _ hactive =>
    exact ⟨hpending, h.drain, hactive, h.waiting, h.based, fun hc => Or.inl (hconflict hc), h.sent⟩
  | stopped _ hactive _ =>
    have hstatus : s.view.status ≠ .conflict := by
      intro hno
      simp [losesConflict, hlive, hactive, hno] at hkeeps
    exact ⟨hpending, h.drain, ⟨hactive, hstatus⟩, h.waiting, h.based,
      fun hc => Or.inl (hconflict hc), h.sent⟩
  | clean _ hactive hrecovery hstatus hdirty =>
    exact ⟨hpending, h.drain, ⟨hactive, hrecovery, hstatus, hdirty⟩, h.waiting, h.based,
      fun hc => Or.inl (hconflict hc), h.sent⟩
  | started _ hactive hrecovery hstatus hdirty =>
    have hnew := h.started (by simp [hscheduled, Flight.waiting]) hrecovery hstatus hdirty
    exact ⟨hpending, hnew.drain, rfl, h.waiting, h.based,
      fun hc => Or.inl (hconflict hc), h.sent⟩

theorem Locked.resumeCommand {s : State S C} (h : Locked s)
    (hflushed : s.commandFlight = some .flushed) : Locked (resumeCommand s) := by
  have hflight := h.flight
  unfold State.flightOk at hflight
  rw [hflushed] at hflight
  obtain ⟨hactive, hrecovery, hstatus, hdirty⟩ := hflight
  have hpending : s.view.commandPending = true := by simp [h.pending, hflushed]
  have hconflict : s.history.conflicted → s.view.status = .conflict :=
    fun hc => (h.conflict hc).resolve_right (by simp [hflushed])
  have hfailing : Locked { s with commandFlight := some (.failing .other) } :=
    ⟨hpending, h.drain, ⟨hactive, hstatus⟩, h.waiting, h.based, fun hc => Or.inl (hconflict hc),
      h.sent⟩
  unfold Editor.resumeCommand
  split
  · exact hfailing
  · split
    · exact hfailing
    · exact ⟨hpending, h.drain, ⟨hactive, hrecovery, hstatus, hdirty⟩, h.waiting, h.based,
        fun hc => Or.inl (hconflict hc), h.sent⟩

/-- A card that an operation returns becomes what the next edits are derived from: nothing is
dirty. -/
theorem Locked.commandReply {s : State S C} (h : Locked s) (hlive : s.disposed = false)
    (hsilent : s.history.sent = none) {old : C}
    (hoperating : s.commandFlight = some (.operating old)) (reply : Reply C) :
    Locked (commandReply s reply) := by
  have hflight := h.flight
  unfold State.flightOk at hflight
  rw [hoperating] at hflight
  obtain ⟨hactive, hrecovery, hstatus, hdirty⟩ := hflight
  have hpending : s.view.commandPending = true := by simp [h.pending, hoperating]
  have hconflicted : s.history.conflicted = false :=
    h.not_conflicted hstatus (by simp [hoperating, Flight.waiting])
  cases reply with
  | card card =>
    simp only [Editor.commandReply, hlive, Bool.false_eq_true, if_false]
    refine ⟨hpending, by simp [State.drainOk, hactive], hactive, by simp, ?_,
      by simp [hconflicted], by simp [SafeSave, hsilent]⟩
    intro _ c hc
    have hc : some card = some c := hc
    show some (token card) = some (token c)
    rw [Option.some.inj hc]
  | failure failure =>
    refine ⟨hpending, by simp [Editor.commandReply, State.reported, State.drainOk, hactive], ?_,
      h.waiting, h.based, ?_, by simp [Editor.commandReply, State.reported, SafeSave, hsilent]⟩
    · cases failure with
      | conflict => exact ⟨hactive, hrecovery⟩
      | other => exact ⟨hactive, hstatus⟩
    · cases failure <;> simp [Editor.commandReply, State.reported, hconflicted]

theorem Locked.catchCommand {s : State S C} (h : Locked s) {failure : Failure}
    (hfailing : s.commandFlight = some (.failing failure)) : Locked (catchCommand s failure) := by
  have hflight := h.flight
  unfold State.flightOk at hflight
  rw [hfailing] at hflight
  have hpending : s.view.commandPending = true := by simp [h.pending, hfailing]
  cases failure with
  | conflict =>
    obtain ⟨hactive, hrecovery⟩ := hflight
    exact ⟨hpending, by simp [Editor.catchCommand, State.drainOk, hactive], hactive,
      by simp [Editor.catchCommand, hrecovery], fun hno => absurd rfl hno,
      fun _ => Or.inl rfl, h.sent⟩
  | other =>
    obtain ⟨hactive, hstatus⟩ := hflight
    refine ⟨hpending, by simp [Editor.catchCommand, State.drainOk, hactive], hactive,
      fun _ => by simp [Editor.catchCommand, Failure.status], fun _ => h.based hstatus, ?_, h.sent⟩
    intro hconflicted
    rcases h.conflict hconflicted with hno | hno
    · exact absurd hno hstatus
    · simp [hfailing] at hno

theorem Locked.finishCommand {s : State S C} (h : Locked s)
    (hsettled : s.commandFlight = some .settled) :
    Locked { s with
      commandFlight := none, view := { s.view with commandPending := false } } := by
  refine ⟨rfl, h.drain, trivial, h.waiting, h.based, fun hc => ?_, h.sent⟩
  exact Or.inl ((h.conflict hc).resolve_right (by simp [hsettled]))

/-! ## Steps -/

/-- A disposed controller stays so and sends nothing. -/
def State.Over (s : State S C) : Prop := s.disposed = true ∧ s.history.sent = none

theorem State.Over.accept {o : SyncOptions S C} {s : State S C} (h : s.Over)
    (recovery : Recovery S) (stored : Bool) : (accept o s recovery stored).Over := by
  have hdisposed := h.1
  simp only [Editor.accept, Editor.edit, State.refusesEdit, hdisposed, Bool.true_or, if_true]
  split
  · exact ⟨rfl, h.2⟩
  · exact ⟨rfl, h.2⟩

omit [SyncCard C] in
theorem State.Over.drainLoop {s : State S C} (h : s.Over) : (drainLoop s).Over := by
  have hspec := drainLoop_spec s
  generalize Editor.drainLoop s = s' at hspec
  cases hspec with
  | finished => exact h
  | disposed => exact h
  | invalid => exact h
  | sent _ hlive => exact absurd h.1 (by simp [hlive])

theorem State.Over.react {o : SyncOptions S C} {s s' : State S C} {e : Event S C} (h : s.Over)
    (hs : react o s e = some s') : s'.Over := by
  have hdisposed := h.1
  have hflush : flush s = (s, .rejected) := by simp [flush, hdisposed]
  cases react_spec hs with
  | edit state stored =>
    have hedit : edit o s state stored = s := by simp [edit, State.refusesEdit, hdisposed]
    rwa [hedit]
  | flush | timer => rwa [hflush]
  | command =>
    have hcommand : command s = s := by simp [command, hdisposed]
    rwa [hcommand]
  | recover stored =>
    unfold recover
    split
    · exact h
    · split
      · exact h
      · exact h.accept _ stored
  | discard card state =>
    unfold discard
    split
    · exact h
    · exact h
  | dispose => exact ⟨rfl, h.2⟩
  | setBusy => exact h
  | drainReply reply stored =>
    cases reply
    · simp only [drainReply, hdisposed, if_true]
      exact ⟨rfl, h.2⟩
    · simp only [drainReply, hdisposed, if_true]
      exact h
  | commandReply reply =>
    cases reply
    · simp only [commandReply, hdisposed, if_true]
      exact ⟨rfl, h.2⟩
    · exact h
  | loadReply reply stored =>
    cases reply <;> simp only [loaded, hdisposed, if_true] <;> exact ⟨rfl, h.2⟩
  | startDrain => exact h.drainLoop
  | finishDrain => exact h
  | startCommand =>
    rw [startCommand, hflush]
    exact h
  | resumeCommand =>
    simp only [resumeCommand, hdisposed, if_true]
    exact ⟨rfl, h.2⟩
  | catchCommand => exact h
  | finishCommand => exact h

/-- The invariant of every controller. -/
def Kept (s : State S C) : Prop := Locked s ∨ s.Over

/-- **A step that loses no conflict keeps the invariant.** -/
theorem Locked.react {o : SyncOptions S C} {s s' : State S C} {e : Event S C} (h : Locked s)
    (hlive : s.disposed = false) (hsilent : s.history.sent = none) (hkeeps : losesConflict s e = false)
    (hs : react o s e = some s') : Kept s' := by
  cases react_spec hs with
  | edit state stored hquiet => exact Or.inl (h.edit hquiet state stored)
  | flush hquiet => exact Or.inl (h.flush (waiting_of_quiet hquiet))
  | timer hidle => exact Or.inl (h.flush (waiting_of_idle hidle))
  | command => exact Or.inl h.command
  | recover stored hquiet => exact Or.inl (h.recover hlive hsilent hquiet stored)
  | discard card state => exact Or.inl (h.discard hsilent card state)
  | dispose => exact Or.inr ⟨rfl, hsilent⟩
  | setBusy => exact Or.inl (h.congr rfl rfl rfl rfl rfl rfl Iff.rfl (Or.inl rfl))
  | drainReply reply stored hactive =>
    exact Or.inl (h.drainReply hlive hsilent hactive reply stored)
  | commandReply reply hflight => exact Or.inl (h.commandReply hlive hsilent hflight reply)
  | loadReply reply stored hidle => exact Or.inl (h.loaded hlive hsilent hidle reply stored)
  | startDrain hactive => exact Or.inl (h.sending hlive hsilent (Or.inl hactive)).drainLoop
  | finishDrain hactive => exact Or.inl (h.finishDrain hactive)
  | startCommand hflight => exact Or.inl (h.startCommand hlive hflight hkeeps)
  | resumeCommand hflight => exact Or.inl (h.resumeCommand hflight)
  | catchCommand hflight => exact Or.inl (h.catchCommand hflight)
  | finishCommand hflight => exact Or.inl (h.finishCommand hflight)

/-- The state a step starts from: nothing is sent yet. -/
def State.cleared (s : State S C) : State S C :=
  { s with history := { s.history with sent := none } }

theorem kept_step {o : SyncOptions S C} {s s' : State S C} {e : Event S C} (h : Kept s)
    (hkeeps : losesConflict s e = false) (hs : step o s e = some s') : Kept s' := by
  have hs : react o s.cleared e = some s' := hs
  by_cases hdisposed : s.disposed
  · have hover : s.cleared.Over := ⟨hdisposed, rfl⟩
    exact Or.inr (hover.react hs)
  · have hlive : s.cleared.disposed = false := Bool.eq_false_iff.mpr hdisposed
    rcases h with hlocked | hover
    · have hcleared : Locked s.cleared :=
        ⟨hlocked.pending, hlocked.drain, hlocked.flight, hlocked.waiting, hlocked.based,
          hlocked.conflict, fun _ _ hno => absurd hno (by simp [State.cleared])⟩
      have hkeeps : losesConflict s.cleared e = false := by
        cases e <;> exact hkeeps
      exact hcleared.react hlive rfl hkeeps hs
    · exact absurd hover.1 hdisposed

theorem kept_init (o : SyncOptions S C) (recovery : Option (Recovery S)) (key : String) :
    Kept (init o recovery key) := by
  refine Or.inl (Locked.of_rest rfl rfl (Or.inl rfl) ?_ ?_ (by simp [init]) rfl)
  · intro hsome
    simp only [init] at hsome ⊢
    rw [if_pos hsome]
    decide
  · intro _ card hcard
    have hcard : o.card = some card := hcard
    show o.card.map token = some (token card)
    rw [hcard]
    rfl

theorem Kept.safeSave {s : State S C} (h : Kept s) : SafeSave s := by
  rcases h with hlocked | hover
  · exact hlocked.sent
  · intro state card hsent
    exact absurd hsent (by simp [hover.2])

/-- **Nothing is saved over a conflict.** -/
theorem never_overwrites (o : SyncOptions S C) (recovery : Option (Recovery S)) (key : String)
    (es : List (Event S C))
    (hkeeps : Along (step o) (fun s e _ => losesConflict s e = false) (init o recovery key) es) :
    Always (step o) SafeSave (init o recovery key) es := by
  have hstep : ∀ s e s', Kept s → losesConflict s e = false → step o s e = some s' → Kept s' :=
    fun _ _ _ => kept_step
  exact always_of_inv hstep (fun _ h => h.safeSave) (kept_init o recovery key) hkeeps

/-- A save is answered with a conflict, and the next edits and flushes send nothing. -/
theorem never_overwrites_after_conflict :
    Always (step (titleEditor (some ⟨"uno", 1, some 14⟩))) SafeSave
      (init (titleEditor (some ⟨"uno", 1, some 14⟩)) none "k")
      [.edit "Local" true, .flush, .startDrain, .drainReply (.failure .conflict) true,
        .finishDrain, .edit "Still local" true, .flush] :=
  never_overwrites (titleEditor (some ⟨"uno", 1, some 14⟩)) none "k" _ (by decide)

/-- **A command loses a conflict**: a draft of version 14 is recovered over a card at version 20, a
command is stopped by the conflict, and the next flush sends the draft for version 20. -/
theorem draft_saved_over_conflict :
    ¬ Always (step (titleEditor (some ⟨"uno", 1, some 20⟩))) SafeSave
      (init (titleEditor (some ⟨"uno", 1, some 20⟩)) (some ⟨some 14, "k", some "uno", "Local"⟩) "k")
      [.recover true, .command, .startCommand, .catchCommand, .finishCommand, .flush,
        .startDrain] := by
  intro h
  have hsafe := h _ [] _ (List.append_nil _).symm rfl
  have hno := (hsafe "Local" ⟨"uno", 1, some 20⟩ rfl).1
  exact absurd hno (by decide)

end ComponentKb.Editor
