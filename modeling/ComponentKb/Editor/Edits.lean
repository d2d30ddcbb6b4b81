import ComponentKb.Lib.Runs
import ComponentKb.Editor.Sync

/-!
# No edit is lost

Four pieces of state have to agree at every `await`: what the view shows, the generation the server
has acknowledged, the promises under way, and the draft in the local storage.

* `Tracked`: how they agree. A drain sends what the view showed at the generation it remembers, so
  the view is only called saved when the server has acknowledged exactly that state.
* `tracked_step`, `respects_step`: every step keeps it, and removes a stored draft only when the
  server has acknowledged the state, or the user discards it.
* `no_edit_lost`: the same along every run.

A create is repeated after a failure, with the same key: the server tells the two apart.
-/

namespace ComponentKb.Editor

open ComponentKb.Lib

variable {S C : Type*} [SyncCard C]

/-! ## What is promised -/

/-- The creates, saves and operations of commands that wait for an answer. -/
def State.requests (s : State S C) : Nat :=
  (match s.active with
    | some (.awaiting _ _) => 1
    | _ => 0) +
  match s.commandFlight with
  | some (.operating _) => 1
  | _ => 0

/-- **What holds in every state.** -/
structure Sound (s : State S C) : Prop where
  requests : s.requests ≤ 1
  create : ∀ state key, s.history.sent = some (.create state key) → s.history.created = false
  saved : s.view.dirty = false → s.view.status = .saved → s.view.state = s.history.acknowledged

/-- **What holds of every step.** -/
structure Respects (s : State S C) (e : Event S C) (s' : State S C) : Prop where
  /-- A stored draft is removed by `discard`, or when the server has acknowledged the state of the
  view; it is exactly that state when the last write was accepted. -/
  removed : ∀ draft, s.storage = some draft → s'.storage = none →
    (∃ card state, e = .discard card state) ∨
      (s'.view.dirty = false ∧ s'.view.state = s'.history.acknowledged ∧
        (s.view.localStored → draft.state = s'.view.state))
  /-- A draft the user accepts while no command is pending becomes the local state. -/
  accepted : ∀ draft, s.view.recovery = some draft → s'.view.recovery = none →
    (∃ card state, e = .discard card state) ∨ s.disposed ∨ s.view.commandPending ∨
      (s'.view.state = draft.state ∧ s'.view.dirty)

/-! ## The invariant -/

/-- What holds while a drain is under way. -/
def State.drainTracked (s : State S C) : Prop :=
  match s.active with
  | none | some (.settled (some _)) => True
  | some .scheduled => s.view.dirty ∧ s.view.recovery = none
  | some (.awaiting request g) =>
    s.view.dirty ∧ s.view.recovery = none ∧ s.acknowledged < g ∧ g ≤ s.generation ∧
      ∀ state card, request = .save state card → g = s.generation → s.view.state = state
  | some (.settled none) => s.disposed ∨ s.view.dirty = false ∧ s.view.recovery = none

/-- What holds while a command is under way. -/
def State.flightTracked (s : State S C) : Prop :=
  match s.commandFlight with
  | some .flushed | some (.operating _) =>
    s.active = none ∧ (s.disposed ∨ s.view.dirty = false ∧ s.view.recovery = none)
  | _ => True

/-- What the view, the generations and the storage say of each other. -/
structure Agrees (s : State S C) : Prop where
  le : s.acknowledged ≤ s.generation
  current : s.acknowledged = s.generation → s.view.state = s.history.acknowledged
  stored : s.view.dirty → s.view.localStored → ∀ draft, s.storage = some draft →
    draft.state = s.view.state
  created : s.history.created → s.view.card.isSome

/-- **The invariant.** -/
structure Tracked (s : State S C) : Prop where
  pending : s.view.commandPending = s.commandFlight.isSome
  drain : s.drainTracked
  flight : s.flightTracked
  agrees : Agrees s
  dirty : s.view.dirty ↔ s.acknowledged < s.generation
  create : ∀ state key, s.history.sent = some (.create state key) → s.history.created = false

omit [SyncCard C] in
theorem Tracked.sound {s : State S C} (h : Tracked s) : Sound s := by
  refine ⟨?_, h.create, fun hclean _ => h.agrees.current ?_⟩
  · have hflight := h.flight
    unfold State.flightTracked at hflight
    unfold State.requests
    cases hf : s.commandFlight with
    | none => split <;> simp
    | some flight =>
      cases flight with
      | operating card =>
        rw [hf] at hflight
        simp [hflight.1]
      | _ => split <;> simp
  · have hle := h.agrees.le
    have hnot : ¬ s.acknowledged < s.generation := fun hlt => by simp [h.dirty.mpr hlt] at hclean
    omega

omit [SyncCard C] in
/-- A step that leaves the drafts alone. -/
theorem Respects.of_same {s s' : State S C} {e : Event S C}
    (hstorage : s.storage.isSome → s'.storage.isSome)
    (hrecovery : s'.view.recovery = s.view.recovery) : Respects s e s' := by
  constructor
  · intro draft hdraft hnone
    have hsome := hstorage (by simp [hdraft])
    simp [hnone] at hsome
  · intro draft hdraft hnone
    rw [hrecovery, hdraft] at hnone
    simp at hnone

omit [SyncCard C] in
/-- The fields the invariant reads are the same. -/
theorem Agrees.congr {s s' : State S C} (h : Agrees s)
    (hacknowledged : s'.acknowledged = s.acknowledged) (hgeneration : s'.generation = s.generation)
    (hstate : s'.view.state = s.view.state) (hdirty : s'.view.dirty = s.view.dirty)
    (hlocal : s'.view.localStored = s.view.localStored) (hstorage : s'.storage = s.storage)
    (hcard : s.view.card.isSome → s'.view.card.isSome)
    (hack : s'.history.acknowledged = s.history.acknowledged)
    (hcreated : s'.history.created = s.history.created) : Agrees s' := by
  constructor
  · rw [hacknowledged, hgeneration]
    exact h.le
  · rw [hacknowledged, hgeneration, hstate, hack]
    exact h.current
  · rw [hdirty, hlocal, hstorage, hstate]
    exact h.stored
  · rw [hcreated]
    exact fun hc => hcard (h.created hc)

theorem persist_storage (s : State S C) (stored : Bool) :
    s.storage.isSome → (persist s stored).storage.isSome := by
  intro h
  unfold persist
  split
  · rfl
  · exact h

/-- What is written to the storage is the state of the view. -/
theorem Agrees.persist {s : State S C} (hle : s.acknowledged ≤ s.generation)
    (hcurrent : s.acknowledged = s.generation → s.view.state = s.history.acknowledged)
    (hcreated : s.history.created → s.view.card.isSome) (stored : Bool) :
    Agrees (persist s stored) := by
  refine ⟨hle, hcurrent, ?_, hcreated⟩
  intro _ hstored draft hdraft
  have hstored : stored = true := hstored
  simp only [Editor.persist, hstored, if_true, Option.some.injEq] at hdraft
  rw [← hdraft]
  rfl

/-! ## Edits and flushes -/

theorem Tracked.edit {o : SyncOptions S C} {s : State S C} (h : Tracked s) (hquiet : s.quiet)
    (state : S) (stored : Bool) : Tracked (edit o s state stored) := by
  by_cases hrefuses : s.refusesEdit
  · rw [Editor.edit, if_pos hrefuses]
    exact h
  · rw [Editor.edit, if_neg hrefuses]
    simp only [State.refusesEdit, Bool.or_eq_true, not_or, Bool.not_eq_true] at hrefuses
    obtain ⟨⟨hlive, hpending⟩, hrecovery⟩ := hrefuses
    have hrecovery : s.view.recovery = none := by simpa using hrecovery
    have hflight : s.commandFlight = none := by simpa [h.pending] using hpending
    have hle := h.agrees.le
    refine ⟨h.pending, ?_, ?_, ?_, ?_, h.create⟩
    · have hdrain := h.drain
      unfold State.drainTracked at hdrain ⊢
      rcases hactive : s.active with _ | (_ | ⟨request, g⟩ | (_ | _))
      · trivial
      · exact ⟨rfl, hrecovery⟩
      · simp only [hactive] at hdrain
        obtain ⟨-, -, hlt, hg, -⟩ := hdrain
        refine ⟨rfl, hrecovery, hlt, Nat.le_succ_of_le hg, fun _ _ _ heq => ?_⟩
        have heq : g = s.generation + 1 := heq
        omega
      · simp [State.quiet, hactive] at hquiet
      · trivial
    · simp [State.flightTracked, Editor.persist, hflight]
    · have hbehind : s.acknowledged ≠ s.generation + 1 := by omega
      have hagrees : Agrees (Editor.persist
          { s with
            generation := s.generation + 1
            view := { s.view with state := state, dirty := true } } stored) := by
        refine Agrees.persist ?_ ?_ ?_ stored
        · exact Nat.le_succ_of_le hle
        · exact fun hno => absurd hno hbehind
        · exact h.agrees.created
      exact hagrees.congr rfl rfl rfl rfl rfl rfl (fun hc => hc) rfl rfl
    · have hlt : s.acknowledged < s.generation + 1 := by omega
      simpa [Editor.persist] using hlt

theorem edit_respects {o : SyncOptions S C} {s : State S C} {e : Event S C} (state : S)
    (stored : Bool) : Respects s e (edit o s state stored) := by
  unfold edit
  split
  · exact .of_same (fun h => h) rfl
  · refine .of_same (fun hsome => ?_) rfl
    exact persist_storage { s with view := { s.view with state := state } } stored hsome

omit [SyncCard C] in
theorem Tracked.started {s : State S C} (h : Tracked s) (hlive : s.disposed = false)
    (hrecovery : s.view.recovery = none) (hdirty : s.view.dirty = true) :
    Tracked { s with timer := false, active := some .scheduled } := by
  refine ⟨h.pending, ⟨hdirty, hrecovery⟩, ?_, ?_, h.dirty, h.create⟩
  · have hflight := h.flight
    unfold State.flightTracked at hflight ⊢
    rcases hf : s.commandFlight with _ | (_ | _ | _ | _ | _ | _) <;> simp_all
  · exact h.agrees.congr rfl rfl rfl rfl rfl rfl (fun hc => hc) rfl rfl

omit [SyncCard C] in
/-- Nothing the invariant reads changes. -/
theorem Tracked.timer {s : State S C} (h : Tracked s) : Tracked { s with timer := false } :=
  ⟨h.pending, h.drain, h.flight,
    h.agrees.congr rfl rfl rfl rfl rfl rfl (fun hc => hc) rfl rfl, h.dirty, h.create⟩

omit [SyncCard C] in
theorem Tracked.flush {s : State S C} (h : Tracked s) : Tracked (flush s).1 := by
  have hspec := flush_spec s
  generalize Editor.flush s = result at hspec
  cases hspec with
  | disposed => exact h
  | joined => exact h.timer
  | stopped => exact h.timer
  | clean => exact h.timer
  | started hlive _ hrecovery _ hdirty => exact h.started hlive hrecovery hdirty

omit [SyncCard C] in
theorem flush_respects {s : State S C} {e : Event S C} : Respects s e (flush s).1 := by
  have hspec := flush_spec s
  generalize flush s = result at hspec
  cases hspec <;> exact .of_same (fun h => h) rfl

/-! ## Drains -/

/-- A command that waits for nothing, or for the drain. -/
def State.flightFree (s : State S C) : Prop :=
  ∀ flight, s.commandFlight = some flight →
    flight ≠ .flushed ∧ ∀ card, flight ≠ .operating card

omit [SyncCard C] in
theorem State.flightFree.tracked {s s' : State S C} (h : s.flightFree)
    (hsame : s'.commandFlight = s.commandFlight) : s'.flightTracked := by
  unfold State.flightTracked
  rw [hsame]
  split
  · rename_i hf
    exact absurd rfl (h _ hf).1
  · rename_i card hf
    exact absurd rfl ((h _ hf).2 card)
  · trivial

omit [SyncCard C] in
theorem Tracked.flightFree {s : State S C} (h : Tracked s) {drain : Drain S C}
    (hactive : s.active = some drain) : s.flightFree := by
  have hflight := h.flight
  unfold State.flightTracked at hflight
  intro flight hf
  rw [hf] at hflight
  constructor
  · rintro rfl
    simp [hactive] at hflight
  · rintro card rfl
    simp [hactive] at hflight

/-- What the loop of a drain starts a turn with. -/
structure Draining (s : State S C) : Prop where
  pending : s.view.commandPending = s.commandFlight.isSome
  flight : s.flightFree
  recovery : s.view.recovery = none
  dirty : s.view.dirty
  agrees : Agrees s
  silent : s.history.sent = none

omit [SyncCard C] in
/-- **A turn of the loop**: it sends the state of the view, or finds it acknowledged. -/
theorem Draining.drainLoop {s : State S C} (h : Draining s) : Tracked (drainLoop s) := by
  have hspec := drainLoop_spec s
  generalize Editor.drainLoop s = s' at hspec
  have hle := h.agrees.le
  have hsilent : ∀ state key, s.history.sent = some (.create state key) →
      s.history.created = false := fun _ _ hno => absurd hno (by simp [h.silent])
  cases hspec with
  | finished hdone =>
    refine ⟨h.pending, Or.inr ⟨rfl, h.recovery⟩, h.flight.tracked rfl, ?_, ?_, hsilent⟩
    · exact ⟨hle, h.agrees.current, fun hno => absurd hno (by simp), h.agrees.created⟩
    · simp [hdone]
  | disposed hbehind hdisposed =>
    refine ⟨h.pending, Or.inl hdisposed, h.flight.tracked rfl, ?_, ?_, hsilent⟩
    · exact h.agrees.congr rfl rfl rfl rfl rfl rfl (fun hc => hc) rfl rfl
    · exact ⟨fun _ => by dsimp only; omega, fun _ => h.dirty⟩
  | invalid hbehind =>
    refine ⟨h.pending, trivial, h.flight.tracked rfl, ?_, ?_, hsilent⟩
    · exact h.agrees.congr rfl rfl rfl rfl rfl rfl (fun hc => hc) rfl rfl
    · exact ⟨fun _ => by dsimp only; omega, fun _ => h.dirty⟩
  | sent hbehind =>
    refine ⟨h.pending, ⟨h.dirty, h.recovery, by dsimp only; omega, Nat.le_refl _, ?_⟩,
      h.flight.tracked rfl, ?_, ?_, ?_⟩
    · intro state card hsave _
      exact (request_eq_save.mp hsave).2
    · exact h.agrees.congr rfl rfl rfl rfl rfl rfl (fun hc => hc) rfl rfl
    · exact ⟨fun _ => by dsimp only; omega, fun _ => h.dirty⟩
    · intro state key hcreate
      by_contra hcreated
      have hsome := h.agrees.created (by simpa using hcreated)
      have hnone := (request_eq_create.mp (Option.some.inj hcreate)).1
      simp [hnone] at hsome

omit [SyncCard C] in
/-- A turn removes the stored draft only when it finds the state of the view acknowledged. -/
theorem drainLoop_storage {s : State S C} {draft : Recovery S} (hdraft : s.storage = some draft)
    (hnone : (drainLoop s).storage = none) : s.acknowledged = s.generation ∧
      (drainLoop s).view.dirty = false ∧ (drainLoop s).view.state = s.view.state ∧
      (drainLoop s).history.acknowledged = s.history.acknowledged := by
  have hspec := drainLoop_spec s
  generalize Editor.drainLoop s = s' at hspec hnone ⊢
  cases hspec with
  | finished hdone => exact ⟨hdone, rfl, rfl, rfl⟩
  | disposed => simp [hdraft] at hnone
  | invalid => simp [hdraft] at hnone
  | sent => simp [hdraft] at hnone

omit [SyncCard C] in
theorem drainLoop_recovery (s : State S C) :
    (drainLoop s).view.recovery = s.view.recovery := by
  have hspec := drainLoop_spec s
  generalize Editor.drainLoop s = s' at hspec ⊢
  cases hspec <;> rfl

omit [SyncCard C] in
theorem Tracked.draining {s : State S C} (h : Tracked s) (hsilent : s.history.sent = none)
    (hactive : s.active = some .scheduled ∨ ∃ request g, s.active = some (.awaiting request g)) :
    Draining s := by
  have hdrain := h.drain
  unfold State.drainTracked at hdrain
  rcases hactive with hactive | ⟨request, g, hactive⟩
  · simp only [hactive] at hdrain
    exact ⟨h.pending, h.flightFree hactive, hdrain.2, hdrain.1, h.agrees, hsilent⟩
  · simp only [hactive] at hdrain
    exact ⟨h.pending, h.flightFree hactive, hdrain.2.1, hdrain.1, h.agrees, hsilent⟩

omit [SyncCard C] in
/-- A drain that was scheduled has something to send. -/
theorem Tracked.startDrain {s : State S C} (h : Tracked s) (hsilent : s.history.sent = none)
    (hactive : s.active = some .scheduled) :
    Tracked (drainLoop s) ∧ ∀ e, Respects s e (drainLoop s) := by
  have hdraining := h.draining hsilent (Or.inl hactive)
  refine ⟨hdraining.drainLoop, fun e => .of_same (fun hsome => ?_) (drainLoop_recovery s)⟩
  obtain ⟨draft, hdraft⟩ := Option.isSome_iff_exists.mp hsome
  by_contra hno
  have hdone := (drainLoop_storage hdraft (by simpa using hno)).1
  have hlt := h.dirty.mp hdraining.dirty
  omega

/-- A failed request leaves the edits to the next drain. -/
theorem drainFailed_tracked {s : State S C}
    (hpending : s.view.commandPending = s.commandFlight.isSome) (hflight : s.flightFree)
    (hbehind : s.acknowledged < s.generation) (hcreated : s.history.created → s.view.card.isSome)
    (hsilent : s.history.sent = none) (failure : Failure) (stored : Bool) :
    Tracked (drainFailed s failure stored) := by
  refine ⟨hpending, trivial, hflight.tracked rfl, ?_, ?_, ?_⟩
  · refine Agrees.persist ?_ ?_ ?_ stored
    · exact Nat.le_of_lt hbehind
    · exact fun hno => absurd hno (Nat.ne_of_lt hbehind)
    · exact hcreated
  · exact ⟨fun _ => hbehind, fun _ => rfl⟩
  · exact fun _ _ hno => absurd hno (by simp [drainFailed, persist, hsilent])

/-- The card of an answer is in the view, and the state of the view may have taken metadata from
it. -/
theorem Draining.create {s : State S C} (h : Draining s) (hbehind : s.acknowledged < s.generation)
    (state acknowledged : S) (card : C) (stored : Bool) : Draining (persist
      { s with
        baseToken := some (token card)
        view := { s.view with card := some card, state := state }
        history := { s.history with
          derived := some (token card), acknowledged := acknowledged, created := true } }
      stored) := by
  refine ⟨h.pending, h.flight, h.recovery, h.dirty, ?_, h.silent⟩
  refine Agrees.persist ?_ ?_ ?_ stored
  · exact h.agrees.le
  · exact fun hno => absurd hno (Nat.ne_of_lt hbehind)
  · exact fun _ => rfl

/-- A save acknowledges the generation it was sent at. -/
theorem Draining.save {s : State S C} (h : Draining s) {g : Nat} (hle : g ≤ s.generation)
    {state : S} (hstate : g = s.generation → s.view.state = state) (card : C) (stored : Bool) :
    Draining (persist
      { s with
        acknowledged := g
        baseToken := some (token card)
        view := { s.view with card := some card }
        history := { s.history with derived := some (token card), acknowledged := state } }
      stored) := by
  refine ⟨h.pending, h.flight, h.recovery, h.dirty, ?_, h.silent⟩
  refine Agrees.persist ?_ ?_ ?_ stored
  · exact hle
  · exact hstate
  · exact fun _ => rfl

theorem Tracked.drainReply {o : SyncOptions S C} {s : State S C} (h : Tracked s)
    (hsilent : s.history.sent = none) {request : Request S C} {g : Nat}
    (hactive : s.active = some (.awaiting request g)) (reply : Reply C) (stored : Bool) :
    Tracked (drainReply o s request g reply stored) := by
  have hdraining := h.draining hsilent (Or.inr ⟨request, g, hactive⟩)
  have hdrain := h.drain
  simp only [State.drainTracked, hactive] at hdrain
  obtain ⟨hdirty, -, hlt, hle, hstate⟩ := hdrain
  have hbehind : s.acknowledged < s.generation := by omega
  by_cases hdisposed : s.disposed
  · -- whatever comes in, the drain ends
    cases reply <;> simp only [Editor.drainReply, hdisposed, if_true]
    · refine ⟨h.pending, Or.inl rfl, hdraining.flight.tracked rfl, ?_, h.dirty, h.create⟩
      exact h.agrees.congr rfl rfl rfl rfl rfl rfl (fun hc => hc) rfl rfl
    · refine ⟨h.pending, Or.inl hdisposed, hdraining.flight.tracked rfl, ?_, h.dirty, h.create⟩
      exact h.agrees.congr rfl rfl rfl rfl rfl rfl (fun hc => hc) rfl rfl
  · cases reply with
    | failure failure =>
      simp only [Editor.drainReply, hdisposed, Bool.false_eq_true, if_false]
      exact drainFailed_tracked h.pending hdraining.flight hbehind h.agrees.created hsilent
        failure stored
    | card card =>
      simp only [Editor.drainReply, hdisposed, Bool.false_eq_true, if_false]
      cases request with
      | save state old =>
        exact (hdraining.save hle (hstate state old rfl) card stored).drainLoop
      | create state key =>
        simp only [created]
        split
        · refine drainFailed_tracked ?_ ?_ ?_ ?_ ?_ .conflict stored
          · exact h.pending
          · exact hdraining.flight
          · exact hbehind
          · exact fun _ => rfl
          · exact hsilent
        · exact (hdraining.create hbehind (o.acceptMetadata s.view.state card) state card
            stored).drainLoop

/-- The answer to a drain removes the stored draft only when it acknowledges the state of the
view. -/
theorem Tracked.drainReply_respects {o : SyncOptions S C} {s : State S C} {e : Event S C}
    (h : Tracked s) {request : Request S C} {g : Nat}
    (hactive : s.active = some (.awaiting request g)) (reply : Reply C) (stored : Bool) :
    Respects s e (Editor.drainReply o s request g reply stored) := by
  have hdrain := h.drain
  simp only [State.drainTracked, hactive] at hdrain
  obtain ⟨hdirty, hrecovery, hlt, hle, hstate⟩ := hdrain
  have hfailed : ∀ (s' : State S C) failure, s'.storage = s.storage →
      s'.view.recovery = s.view.recovery → Respects s e (drainFailed s' failure stored) := by
    intro s' failure hstorage hsame
    refine .of_same (fun hsome => ?_) hsame
    refine persist_storage _ stored ?_
    show s'.storage.isSome
    rwa [hstorage]
  by_cases hdisposed : s.disposed
  · cases reply <;> simp only [Editor.drainReply, hdisposed, if_true] <;>
      exact .of_same (fun hsome => hsome) rfl
  · cases reply with
    | failure failure =>
      simp only [Editor.drainReply, hdisposed, Bool.false_eq_true, if_false]
      exact hfailed s failure rfl rfl
    | card card =>
      simp only [Editor.drainReply, hdisposed, Bool.false_eq_true, if_false]
      cases request with
      | save state old =>
        refine ⟨fun draft hdraft hnone => Or.inr ?_, fun draft hno => ?_⟩
        · obtain ⟨written, hwritten⟩ : ∃ written, (persist
              { s with
                acknowledged := g
                baseToken := some (token card)
                view := { s.view with card := some card }
                history := { s.history with derived := some (token card), acknowledged := state } }
              stored).storage = some written :=
            Option.isSome_iff_exists.mp (persist_storage _ stored (by simp [hdraft]))
          obtain ⟨hdone, hclean, hsame, hack⟩ := drainLoop_storage hwritten hnone
          have hview : s.view.state = state := hstate state old rfl hdone
          refine ⟨hclean, ?_, fun hlocal => ?_⟩
          · exact hsame.trans (hview.trans hack.symm)
          · exact (h.agrees.stored hdirty hlocal draft hdraft).trans hsame.symm
        · simp [hrecovery] at hno
      | create state key =>
        simp only [created]
        split
        · exact hfailed _ .conflict rfl rfl
        · refine .of_same (fun hsome => ?_) ((drainLoop_recovery _).trans rfl)
          by_contra hno
          obtain ⟨written, hwritten⟩ := Option.isSome_iff_exists.mp
            (persist_storage { s with
              baseToken := some (token card)
              view := { s.view with
                card := some card, state := o.acceptMetadata s.view.state card }
              history := { s.history with
                derived := some (token card), acknowledged := state, created := true } }
              stored hsome)
          have hdone : s.acknowledged = s.generation :=
            (drainLoop_storage hwritten (by simpa using hno)).1
          omega

omit [SyncCard C] in
/-- The end of a drain frees the command that waits for it. -/
theorem Tracked.finishDrain {s : State S C} (h : Tracked s) {failure : Option Failure}
    (hactive : s.active = some (.settled failure)) : Tracked (finishDrain s failure) := by
  have hfree := h.flightFree hactive
  have hdrain := h.drain
  simp only [State.drainTracked, hactive] at hdrain
  refine ⟨?_, trivial, ?_, ?_, h.dirty, h.create⟩
  · rw [Editor.finishDrain]
    cases hf : s.commandFlight with
    | none => simp [h.pending, hf]
    | some flight => cases flight <;> simp [h.pending, hf]
  · rcases hf : s.commandFlight with _ | (_ | _ | _ | card | _ | _)
    · simp [Editor.finishDrain, State.flightTracked, hf]
    · simp [Editor.finishDrain, State.flightTracked, hf]
    · cases failure with
      | none => simpa [Editor.finishDrain, State.flightTracked, hf] using hdrain
      | some failure => simp [Editor.finishDrain, State.flightTracked, hf]
    · exact absurd rfl (hfree _ hf).1
    · exact absurd rfl ((hfree _ hf).2 card)
    · simp [Editor.finishDrain, State.flightTracked, hf]
    · simp [Editor.finishDrain, State.flightTracked, hf]
  · exact h.agrees.congr rfl rfl rfl rfl rfl rfl (fun hc => hc) rfl rfl

/-! ## Recovery drafts -/

/-- An accepted draft is the next edit. -/
theorem Tracked.accept {o : SyncOptions S C} {s : State S C} (h : Tracked s)
    (hactive : s.active = none) (hquiet : s.quiet) (card : Option C)
    (hcard : s.view.card.isSome → card.isSome) (recovery : Recovery S) (stored : Bool) :
    Tracked (accept o { s with view := { s.view with card := card } } recovery stored) := by
  let s₁ : State S C := { s with
    creationKey := recovery.creationKey
    baseToken := recovery.token
    view := { s.view with card := card, recovery := none } }
  have h₁ : Tracked s₁ := by
    refine ⟨h.pending, ?_, ?_, ?_, h.dirty, h.create⟩
    · simp [s₁, State.drainTracked, hactive]
    · have hflight := h.flight
      unfold State.flightTracked at hflight ⊢
      rcases hf : s.commandFlight with _ | (_ | _ | _ | _ | _ | _) <;> simp_all [s₁]
      · exact hflight.imp_right And.left
      · exact hflight.imp_right And.left
    · exact h.agrees.congr rfl rfl rfl rfl rfl rfl hcard rfl rfl
  have h₂ : Tracked (Editor.edit o s₁ recovery.state stored) := h₁.edit hquiet recovery.state stored
  have h₂' := h₂.agrees
  unfold Editor.accept
  simp only
  split
  · refine ⟨h₂.pending, h₂.drain, h₂.flight, ?_, h₂.dirty, h₂.create⟩
    exact h₂'.congr rfl rfl rfl rfl rfl rfl (fun hc => hc) rfl rfl
  · refine ⟨h₂.pending, h₂.drain, h₂.flight, ?_, h₂.dirty, h₂.create⟩
    exact h₂'.congr rfl rfl rfl rfl rfl rfl (fun hc => hc) rfl rfl

/-- **An accepted draft becomes the local state** unless a command is pending. -/
theorem accept_respects {o : SyncOptions S C} {s : State S C} {e : Event S C} (card : Option C)
    {recovery : Recovery S} (hrecovery : s.view.recovery = some recovery) (stored : Bool) :
    Respects s e (accept o { s with view := { s.view with card := card } } recovery stored) := by
  let s₁ : State S C := { s with
    creationKey := recovery.creationKey
    baseToken := recovery.token
    view := { s.view with card := card, recovery := none } }
  have hedited : (s.storage.isSome → (edit o s₁ recovery.state stored).storage.isSome) ∧
      (s.disposed ∨ s.view.commandPending ∨
        (edit o s₁ recovery.state stored).view.state = recovery.state ∧
          (edit o s₁ recovery.state stored).view.dirty) := by
    unfold edit
    split
    · rename_i hrefuses
      have hrefuses : s.disposed ∨ s.view.commandPending := by
        simpa [s₁, State.refusesEdit] using hrefuses
      exact ⟨fun hsome => hsome, hrefuses.imp_right Or.inl⟩
    · exact ⟨persist_storage { s₁ with view := { s₁.view with state := recovery.state } } stored,
        Or.inr (Or.inr ⟨rfl, rfl⟩)⟩
  unfold accept
  simp only
  constructor
  · intro draft hdraft hnone
    have hsome := hedited.1 (by simp [hdraft])
    split at hnone <;> simp [s₁] at hsome hnone <;> simp [hnone] at hsome
  · intro draft hdraft _
    rw [hrecovery, Option.some.injEq] at hdraft
    subst hdraft
    rcases hedited.2 with hdisposed | hpending | haccepted
    · exact Or.inr (Or.inl hdisposed)
    · exact Or.inr (Or.inr (Or.inl hpending))
    · refine Or.inr (Or.inr (Or.inr ?_))
      split <;> exact haccepted

omit [SyncCard C] in
/-- A draft waits for the user only while nothing is synchronized. -/
theorem Tracked.inactive {s : State S C} (h : Tracked s) {recovery : Recovery S}
    (hrecovery : s.view.recovery = some recovery)
    (hover : ∀ failure, s.active ≠ some (.settled failure)) : s.active = none := by
  have hdrain := h.drain
  unfold State.drainTracked at hdrain
  rcases hactive : s.active with _ | (_ | _ | failure)
  · rfl
  · simp [hactive, hrecovery] at hdrain
  · simp [hactive, hrecovery] at hdrain
  · exact absurd hactive (hover failure)

omit [SyncCard C] in
theorem State.quiet.not_settled {s : State S C} (h : s.quiet) (failure : Option Failure) :
    s.active ≠ some (.settled failure) := by
  intro hno
  simp [State.quiet, hno] at h

omit [SyncCard C] in
theorem State.idle.quiet {s : State S C} (h : s.idle) : s.quiet := by
  rcases hactive : s.active with _ | (_ | _ | _) <;>
    rcases hf : s.commandFlight with _ | (_ | _ | _ | _ | _ | _) <;>
    simp_all [State.idle, State.quiet]

theorem Tracked.recover {o : SyncOptions S C} {s : State S C} {e : Event S C} (h : Tracked s)
    (hquiet : s.quiet) (stored : Bool) :
    Tracked (recover o s stored) ∧ Respects s e (Editor.recover o s stored) := by
  unfold Editor.recover
  split
  · exact ⟨h, .of_same (fun hsome => hsome) rfl⟩
  · rename_i recovery hrecovery
    split
    · refine ⟨⟨h.pending, h.drain, h.flight, ?_, h.dirty, h.create⟩,
        .of_same (fun hsome => hsome) rfl⟩
      exact h.agrees.congr rfl rfl rfl rfl rfl rfl (fun hc => hc) rfl rfl
    · have hactive := h.inactive hrecovery (State.quiet.not_settled hquiet)
      exact ⟨h.accept hactive hquiet s.view.card (fun hc => hc) recovery stored,
        accept_respects s.view.card hrecovery stored⟩

theorem Tracked.loaded {o : SyncOptions S C} {s : State S C} {e : Event S C} (h : Tracked s)
    (hidle : s.idle) (reply : Reply C) (stored : Bool) :
    Tracked (loaded o s reply stored) ∧ Respects s e (Editor.loaded o s reply stored) := by
  have hloads : Tracked { s with loads := s.loads - 1 } := by
    refine ⟨h.pending, h.drain, h.flight, ?_, h.dirty, h.create⟩
    exact h.agrees.congr rfl rfl rfl rfl rfl rfl (fun hc => hc) rfl rfl
  have hsame : Respects s e { s with loads := s.loads - 1 } := .of_same (fun hsome => hsome) rfl
  cases reply with
  | failure failure =>
    unfold Editor.loaded
    simp only
    split
    · exact ⟨hloads, hsame⟩
    · refine ⟨⟨h.pending, h.drain, h.flight, ?_, h.dirty, h.create⟩,
        .of_same (fun hsome => hsome) rfl⟩
      exact h.agrees.congr rfl rfl rfl rfl rfl rfl (fun hc => hc) rfl rfl
  | card card =>
    unfold Editor.loaded
    simp only
    split
    · exact ⟨hloads, hsame⟩
    · split
      · exact ⟨hloads, hsame⟩
      · rename_i recovery hrecovery
        have hquiet := State.idle.quiet hidle
        have hactive := h.inactive hrecovery (State.quiet.not_settled hquiet)
        have haccept := accept_respects (o := o) (s := { s with loads := s.loads - 1 }) (e := e)
          (some card) hrecovery stored
        exact ⟨hloads.accept hactive hquiet (some card) (fun _ => rfl) recovery stored,
          haccept.removed, haccept.accepted⟩

theorem Tracked.discard {o : SyncOptions S C} {s : State S C} (h : Tracked s)
    (card : Option C) (state : Option S) : Tracked (discard o s card state) := by
  unfold Editor.discard
  split
  · exact h
  · rename_i hfree
    simp only [not_or, Option.not_isSome_iff_eq_none] at hfree
    refine ⟨h.pending, ?_, ?_, ?_, by simp, ?_⟩
    · simp [State.drainTracked, hfree.1]
    · simp [State.flightTracked, hfree.2]
    · exact ⟨Nat.le_refl _, fun _ => rfl, fun hno => absurd hno (by simp),
        fun hno => absurd hno (by simp)⟩
    · exact fun _ _ _ => rfl

/-! ## Commands -/

omit [SyncCard C] in
/-- Only the promise of a command changes. -/
theorem Tracked.setFlight {s : State S C} (h : Tracked s) (flight : Flight C)
    (hpending : s.view.commandPending = true)
    (hflight : State.flightTracked { s with commandFlight := some flight }) :
    Tracked { s with commandFlight := some flight } := by
  refine ⟨hpending, h.drain, hflight, ?_, h.dirty, h.create⟩
  exact h.agrees.congr rfl rfl rfl rfl rfl rfl (fun hc => hc) rfl rfl

omit [SyncCard C] in
theorem Tracked.pending_of_flight {s : State S C} (h : Tracked s) {flight : Flight C}
    (hflight : s.commandFlight = some flight) : s.view.commandPending = true := by
  rw [h.pending, hflight]
  rfl

omit [SyncCard C] in
theorem Tracked.command {s : State S C} (h : Tracked s) : Tracked (command s) := by
  unfold Editor.command
  split
  · exact h
  · refine ⟨rfl, h.drain, trivial, ?_, h.dirty, h.create⟩
    exact h.agrees.congr rfl rfl rfl rfl rfl rfl (fun hc => hc) rfl rfl

omit [SyncCard C] in
theorem command_respects {s : State S C} {e : Event S C} : Respects s e (command s) := by
  unfold command
  split <;> exact .of_same (fun hsome => hsome) rfl

omit [SyncCard C] in
/-- A command is past its `flush` only when nothing is dirty. -/
theorem Tracked.startCommand {s : State S C} (h : Tracked s)
    (hscheduled : s.commandFlight = some .scheduled) :
    Tracked (startCommand s) ∧ ∀ e, Respects s e (Editor.startCommand s) := by
  have hpending := h.pending_of_flight hscheduled
  unfold Editor.startCommand
  have hspec := flush_spec s
  generalize Editor.flush s = result at hspec
  cases hspec with
  | disposed => exact ⟨h.setFlight _ hpending trivial, fun e => .of_same (fun hsome => hsome) rfl⟩
  | joined =>
    exact ⟨h.timer.setFlight _ hpending trivial, fun e => .of_same (fun hsome => hsome) rfl⟩
  | stopped =>
    exact ⟨h.timer.setFlight _ hpending trivial, fun e => .of_same (fun hsome => hsome) rfl⟩
  | clean _ hactive hrecovery _ hdirty =>
    exact ⟨h.timer.setFlight _ hpending ⟨hactive, Or.inr ⟨hdirty, hrecovery⟩⟩,
      fun e => .of_same (fun hsome => hsome) rfl⟩
  | started hlive _ hrecovery _ hdirty =>
    exact ⟨(h.started hlive hrecovery hdirty).setFlight _ hpending trivial,
      fun e => .of_same (fun hsome => hsome) rfl⟩

omit [SyncCard C] in
theorem Tracked.resumeCommand {s : State S C} (h : Tracked s)
    (hflushed : s.commandFlight = some .flushed) :
    Tracked (resumeCommand s) ∧ ∀ e, Respects s e (Editor.resumeCommand s) := by
  have hpending := h.pending_of_flight hflushed
  have hflight := h.flight
  unfold State.flightTracked at hflight
  rw [hflushed] at hflight
  unfold Editor.resumeCommand
  split
  · exact ⟨h.setFlight _ hpending trivial, fun e => .of_same (fun hsome => hsome) rfl⟩
  · split
    · exact ⟨h.setFlight _ hpending trivial, fun e => .of_same (fun hsome => hsome) rfl⟩
    · exact ⟨h.setFlight _ hpending hflight, fun e => .of_same (fun hsome => hsome) rfl⟩

theorem Tracked.commandReply {s : State S C} (h : Tracked s) {old : C}
    (hoperating : s.commandFlight = some (.operating old)) (reply : Reply C) :
    Tracked (commandReply s reply) ∧ ∀ e, Respects s e (Editor.commandReply s reply) := by
  have hpending := h.pending_of_flight hoperating
  have hflight := h.flight
  unfold State.flightTracked at hflight
  rw [hoperating] at hflight
  cases reply with
  | card card =>
    unfold Editor.commandReply
    simp only
    split
    · exact ⟨h.setFlight _ hpending trivial, fun e => .of_same (fun hsome => hsome) rfl⟩
    · refine ⟨⟨hpending, ?_, trivial, ?_, h.dirty, h.create⟩,
        fun e => .of_same (fun hsome => hsome) rfl⟩
      · simp [State.drainTracked, hflight.1]
      · exact h.agrees.congr rfl rfl rfl rfl rfl rfl (fun _ => rfl) rfl rfl
  | failure failure =>
    refine ⟨⟨hpending, h.drain, trivial, ?_, h.dirty, h.create⟩,
      fun e => .of_same (fun hsome => hsome) rfl⟩
    exact h.agrees.congr rfl rfl rfl rfl rfl rfl (fun hc => hc) rfl rfl

omit [SyncCard C] in
theorem Tracked.catchCommand {s : State S C} (h : Tracked s) {failure : Failure}
    (hfailing : s.commandFlight = some (.failing failure)) : Tracked (catchCommand s failure) := by
  refine ⟨h.pending_of_flight hfailing, h.drain, trivial, ?_, h.dirty, h.create⟩
  exact h.agrees.congr rfl rfl rfl rfl rfl rfl (fun hc => hc) rfl rfl

/-! ## Steps and runs -/

omit [SyncCard C] in
theorem Tracked.dispose {s : State S C} (h : Tracked s) :
    Tracked { s with disposed := true, timer := false } := by
  refine ⟨h.pending, ?_, ?_, ?_, h.dirty, h.create⟩
  · have hdrain := h.drain
    unfold State.drainTracked at hdrain ⊢
    rcases hactive : s.active with _ | (_ | _ | (_ | _)) <;> simp_all
    exact hdrain.2.2.2.2
  · have hflight := h.flight
    unfold State.flightTracked at hflight ⊢
    rcases hf : s.commandFlight with _ | (_ | _ | _ | _ | _ | _) <;> simp_all
  · exact h.agrees.congr rfl rfl rfl rfl rfl rfl (fun hc => hc) rfl rfl

/-- **Every step keeps the invariant, and the drafts.** -/
theorem tracked_react {o : SyncOptions S C} {s s' : State S C} {e : Event S C} (h : Tracked s)
    (hsilent : s.history.sent = none) (hs : react o s e = some s') :
    Tracked s' ∧ Respects s e s' := by
  cases react_spec hs with
  | edit state stored hquiet => exact ⟨h.edit hquiet state stored, edit_respects state stored⟩
  | flush => exact ⟨h.flush, flush_respects⟩
  | timer => exact ⟨h.flush, flush_respects⟩
  | command => exact ⟨h.command, command_respects⟩
  | recover stored hquiet => exact h.recover hquiet stored
  | discard card state =>
    exact ⟨h.discard card state, fun _ _ _ => Or.inl ⟨card, state, rfl⟩,
      fun _ _ _ => Or.inl ⟨card, state, rfl⟩⟩
  | dispose => exact ⟨h.dispose, .of_same (fun hsome => hsome) rfl⟩
  | setBusy =>
    refine ⟨⟨h.pending, h.drain, h.flight, ?_, h.dirty, h.create⟩,
      .of_same (fun hsome => hsome) rfl⟩
    exact h.agrees.congr rfl rfl rfl rfl rfl rfl (fun hc => hc) rfl rfl
  | drainReply reply stored hactive =>
    exact ⟨h.drainReply hsilent hactive reply stored, h.drainReply_respects hactive reply stored⟩
  | commandReply reply hflight =>
    obtain ⟨htracked, hrespects⟩ := h.commandReply hflight reply
    exact ⟨htracked, hrespects _⟩
  | loadReply reply stored hidle => exact h.loaded hidle reply stored
  | startDrain hactive =>
    obtain ⟨htracked, hrespects⟩ := h.startDrain hsilent hactive
    exact ⟨htracked, hrespects _⟩
  | finishDrain hactive => exact ⟨h.finishDrain hactive, .of_same (fun hsome => hsome) rfl⟩
  | startCommand hflight =>
    obtain ⟨htracked, hrespects⟩ := h.startCommand hflight
    exact ⟨htracked, hrespects _⟩
  | resumeCommand hflight =>
    obtain ⟨htracked, hrespects⟩ := h.resumeCommand hflight
    exact ⟨htracked, hrespects _⟩
  | catchCommand hflight => exact ⟨h.catchCommand hflight, .of_same (fun hsome => hsome) rfl⟩
  | finishCommand =>
    refine ⟨⟨rfl, h.drain, trivial, ?_, h.dirty, h.create⟩, .of_same (fun hsome => hsome) rfl⟩
    exact h.agrees.congr rfl rfl rfl rfl rfl rfl (fun hc => hc) rfl rfl

theorem tracked_step {o : SyncOptions S C} {s s' : State S C} {e : Event S C} (h : Tracked s)
    (hs : step o s e = some s') : Tracked s' ∧ Respects s e s' := by
  have hcleared : Tracked { s with history := { s.history with sent := none } } := by
    refine ⟨h.pending, h.drain, h.flight, ?_, h.dirty, fun _ _ hno => absurd hno (by simp)⟩
    exact h.agrees.congr rfl rfl rfl rfl rfl rfl (fun hc => hc) rfl rfl
  obtain ⟨htracked, hrespects⟩ := tracked_react hcleared rfl hs
  exact ⟨htracked, hrespects.removed, hrespects.accepted⟩

theorem tracked_init (o : SyncOptions S C) (recovery : Option (Recovery S)) (key : String) :
    Tracked (init o recovery key) := by
  refine ⟨rfl, trivial, trivial, ?_, by simp [init], fun _ _ hno => absurd hno (by simp [init])⟩
  exact ⟨Nat.le_refl _, fun _ => rfl, fun hno => absurd hno (by simp [init]),
    fun hno => absurd hno (by simp [init])⟩

/-- **No edit is lost.** -/
theorem no_edit_lost (o : SyncOptions S C) (recovery : Option (Recovery S)) (key : String)
    (es : List (Event S C)) :
    Always (step o) Sound (init o recovery key) es ∧
      Along (step o) Respects (init o recovery key) es := by
  have hstep : ∀ s e s', Tracked s → True → step o s e = some s' → Tracked s' :=
    fun _ _ _ h _ hs => (tracked_step h hs).1
  have hrespects : ∀ s e s', Tracked s → True → step o s e = some s' → Respects s e s' :=
    fun _ _ _ h _ hs => (tracked_step h hs).2
  exact ⟨always_of_inv hstep (fun _ h => h.sound) (tracked_init o recovery key) (along_true _ es),
    along_of_inv hstep hrespects (tracked_init o recovery key) (along_true _ es)⟩

/-- **What is not promised.** A create is sent twice with one key when the first answer does not
arrive; two recoveries read the card at once; and a draft that was stored before a refused write is
removed when the later edit is acknowledged. -/
theorem strict_reading_fails :
    (¬ Always (step (titleEditor none)) (fun s => s.history.creates.Nodup)
      (init (titleEditor none) none "k")
      [.edit "UNO" true, .flush, .startDrain, .drainReply (.failure .other) true, .finishDrain,
        .flush, .startDrain]) ∧
    (¬ Always (step (titleEditor none)) (fun s => s.requests + s.loads ≤ 1)
      (init (titleEditor none) (some ⟨some 1, "k", some "uno", "UNO"⟩) "k")
      [.recover true, .recover true]) ∧
    ∃ s s' draft, run (step (titleEditor (some ⟨"uno", 1, some 14⟩)))
        (init (titleEditor (some ⟨"uno", 1, some 14⟩)) none "k")
        [.edit "UNO" true, .edit "UNO R4" false, .flush, .startDrain] = some s ∧
      step (titleEditor (some ⟨"uno", 1, some 14⟩)) s
        (.drainReply (.card ⟨"uno", 1, some 15⟩) false) = some s' ∧
      s.storage = some draft ∧ s'.storage = none ∧ draft.state ≠ s'.history.acknowledged := by
  refine ⟨fun h => ?_, fun h => ?_, _, _, _, rfl, rfl, rfl, rfl, by decide⟩
  · have hnodup := h _ [] _ (List.append_nil _).symm rfl
    exact absurd hnodup (by decide)
  · have hone := h _ [] _ (List.append_nil _).symm rfl
    exact absurd hone (by decide)

end ComponentKb.Editor
