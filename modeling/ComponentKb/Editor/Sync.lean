import Mathlib.Tactic.Common

/-!
# The editor's synchronization controller

`SyncController` (`editor/sync-controller.ts`) keeps one document of the browser editor in step with
the server. Its methods run to their first `await`; what follows an `await` runs later, as a
reaction. A call by the user interface, a timer and the arrival of a response are tasks of their
own: they start when the reactions that are under way have run. Calls made in one task may follow
each other before any reaction they queued, a timer or a response may not.

The document and the card are any types `S` and `C`. `writeRecovery` may be refused by the browser:
its outcome is an input. Listeners only look at the view and are left out, like `onCard` and
`onSettled`.

Next to the fields of the class, `History` keeps what the properties are about: the version the
local edits were derived from, the state the server acknowledged last, and the requests.
-/

namespace ComponentKb.Editor

inductive SyncStatus where
  | saved | dirty | syncing | invalid | error | conflict | recovery
  deriving DecidableEq, Repr

/-- What the controller reads of a card. -/
class SyncCard (C : Type*) where
  id : C → String
  revision : C → Nat
  editToken : C → Option Nat

/-- `card.edit_token ?? card.revision`. -/
def token {C : Type*} [SyncCard C] (card : C) : Nat :=
  (SyncCard.editToken card).getD (SyncCard.revision card)

/-- `ApiError` with code `revision_conflict`, or any other error. -/
inductive Failure where
  | conflict | other
  deriving DecidableEq, Repr

/-- A recovery draft (`editor/recovery.ts`), but for its version and date. -/
structure Recovery (S : Type*) where
  token : Option Nat
  creationKey : String
  componentId : Option String
  state : S
  deriving DecidableEq, Repr

structure SyncView (S C : Type*) where
  state : S
  card : Option C
  status : SyncStatus
  error : Option Failure
  fieldErrors : List (String × String)
  dirty : Bool
  localStored : Bool
  recovery : Option (Recovery S)
  commandPending : Bool
  transientBusy : Bool

structure SyncOptions (S C : Type*) where
  initial : S
  card : Option C
  validate : S → List (String × String)
  acceptMetadata : S → C → S
  /-- Whether `loadCard` is given. -/
  loadCard : Bool

/-- A request of `drain`. -/
inductive Request (S C : Type*) where
  | create (state : S) (creationKey : String)
  | save (state : S) (card : C)

/-- `active`: the promise of a drain. -/
inductive Drain (S C : Type*) where
  | scheduled
  | awaiting (request : Request S C) (sentGeneration : Nat)
  /-- The drain is over, and the `finally` of its promise has not run. -/
  | settled (failure : Option Failure)

/-- `commandFlight`: the promise of a command. -/
inductive Flight (C : Type*) where
  | scheduled
  /-- Waiting for the promise of the drain. -/
  | flushing
  | flushed
  | operating (card : C)
  | failing (failure : Failure)
  /-- The `finally` has not run. -/
  | settled

/-- What happened, as the properties see it; the controller reads none of it. -/
structure History (S C : Type*) where
  /-- The token of the version the local edits were derived from. -/
  derived : Option Nat
  /-- The server has reported a conflict and nothing was discarded since. -/
  conflicted : Bool
  /-- The state the server acknowledged last, or the one set by `discard`. -/
  acknowledged : S
  /-- A create was acknowledged and nothing was discarded since. -/
  created : Bool
  /-- The keys of the creates, latest first. -/
  creates : List String
  /-- The request the last step sent. -/
  sent : Option (Request S C)

structure State (S C : Type*) where
  view : SyncView S C
  generation : Nat
  acknowledged : Nat
  active : Option (Drain S C)
  timer : Bool
  creationKey : String
  disposed : Bool
  baseToken : Option Nat
  commandFlight : Option (Flight C)
  /-- `loadCard` requests of `recover`. -/
  loads : Nat
  /-- The recovery draft in the local storage. -/
  storage : Option (Recovery S)
  history : History S C

variable {S C : Type*} [SyncCard C]

/-- The constructor. `recovery` is what `readRecovery` returns, `key` the random creation key. -/
def init (o : SyncOptions S C) (recovery : Option (Recovery S)) (key : String) : State S C where
  view :=
    { state := o.initial, card := o.card,
      status := if recovery.isSome then .recovery else .saved,
      error := none, fieldErrors := [], dirty := false, localStored := recovery.isSome,
      recovery := recovery, commandPending := false, transientBusy := false }
  generation := 0
  acknowledged := 0
  active := none
  timer := false
  creationKey := key
  disposed := false
  baseToken := o.card.map token
  commandFlight := none
  loads := 0
  storage := recovery
  history :=
    { derived := o.card.map token, conflicted := false, acknowledged := o.initial,
      created := false, creates := [], sent := none }

/-! ## The methods -/

/-- `persist`; `stored` is the outcome of `writeRecovery`. -/
def persist (s : State S C) (stored : Bool) : State S C :=
  { s with
    storage :=
      if stored then
        some ⟨s.baseToken, s.creationKey, s.view.card.map SyncCard.id, s.view.state⟩
      else s.storage
    view := { s.view with localStored := stored } }

/-- Whether `edit` returns at once. -/
def State.refusesEdit (s : State S C) : Bool :=
  s.disposed || s.view.commandPending || s.view.recovery.isSome

/-- `edit`. -/
def edit (o : SyncOptions S C) (s : State S C) (state : S) (stored : Bool) : State S C :=
  if s.refusesEdit then s
  else
    let fieldErrors := o.validate state
    let blocked := decide (s.view.status = .conflict)
    let edited := persist
      { s with
        generation := s.generation + 1
        view := { s.view with
          state := state, dirty := true, fieldErrors := fieldErrors,
          error := if blocked then s.view.error else none,
          status :=
            if blocked then .conflict else if fieldErrors.isEmpty then .dirty else .invalid } }
      stored
    { edited with timer := !blocked && fieldErrors.isEmpty }

/-- How the promise that `flush` returns stands. -/
inductive Flushed where
  | resolved | rejected | pending
  deriving DecidableEq, Repr

/-- `flush`. -/
def flush (s : State S C) : State S C × Flushed :=
  if s.disposed then (s, .rejected)
  else
    let s := { s with timer := false }
    if s.active.isSome then (s, .pending)
    else if s.view.recovery.isSome ∨ s.view.status = .conflict ∨ ¬ s.view.fieldErrors.isEmpty then
      (s, .rejected)
    else if ¬ s.view.dirty then (s, .resolved)
    else ({ s with active := some .scheduled }, .pending)

/-- What `flush` does, and when. -/
inductive FlushSpec (s : State S C) : State S C × Flushed → Prop
  | disposed : s.disposed = true → FlushSpec s (s, .rejected)
  | joined : s.disposed = false → s.active.isSome → FlushSpec s ({ s with timer := false }, .pending)
  | stopped : s.disposed = false → s.active = none →
      s.view.recovery.isSome ∨ s.view.status = .conflict ∨ s.view.fieldErrors ≠ [] →
      FlushSpec s ({ s with timer := false }, .rejected)
  | clean : s.disposed = false → s.active = none → s.view.recovery = none →
      s.view.status ≠ .conflict → s.view.dirty = false →
      FlushSpec s ({ s with timer := false }, .resolved)
  | started : s.disposed = false → s.active = none → s.view.recovery = none →
      s.view.status ≠ .conflict → s.view.dirty = true →
      FlushSpec s ({ s with timer := false, active := some .scheduled }, .pending)

omit [SyncCard C] in
theorem flush_spec (s : State S C) : FlushSpec s (flush s) := by
  unfold flush
  split
  · exact .disposed ‹_›
  · rename_i hdisposed
    have hdisposed := Bool.eq_false_iff.mpr hdisposed
    dsimp only
    split
    · exact .joined hdisposed ‹_›
    · rename_i hactive
      have hactive : s.active = none := by simpa using hactive
      split
      · rename_i hstop
        exact .stopped hdisposed hactive (by simpa using hstop)
      · rename_i hgo
        simp only [not_or] at hgo
        have hrecovery : s.view.recovery = none := by simpa using hgo.1
        split
        · rename_i hdirty
          exact .clean hdisposed hactive hrecovery hgo.2.1 (by simpa using hdirty)
        · rename_i hdirty
          exact .started hdisposed hactive hrecovery hgo.2.1 (by simpa using hdirty)

/-- The request of one turn of the loop of `drain`. -/
def State.request (s : State S C) : Request S C :=
  match s.view.card with
  | none => .create s.view.state s.creationKey
  | some card => .save s.view.state card

omit [SyncCard C] in
theorem request_eq_save {s : State S C} {state : S} {card : C} :
    s.request = .save state card ↔ s.view.card = some card ∧ s.view.state = state := by
  unfold State.request
  cases s.view.card with
  | none => simp
  | some c =>
    simp only [Request.save.injEq, Option.some.injEq]
    exact And.comm

omit [SyncCard C] in
theorem request_eq_create {s : State S C} {state : S} {key : String} :
    s.request = .create state key ↔
      s.view.card = none ∧ s.view.state = state ∧ s.creationKey = key := by
  unfold State.request
  cases s.view.card <;> simp

def Request.createKey : Request S C → List String
  | .create _ key => [key]
  | .save _ _ => []

/-- One turn of the loop of `drain`, up to its `await`, or its end. -/
def drainLoop (s : State S C) : State S C :=
  if s.acknowledged = s.generation then
    { s with
      storage := none
      active := some (.settled none)
      view := { s.view with
        status := .saved, dirty := false, localStored := false, error := none } }
  else if s.disposed then { s with active := some (.settled none) }
  else if ¬ s.view.fieldErrors.isEmpty then
    { s with
      active := some (.settled (some .other))
      view := { s.view with status := .invalid } }
  else
    { s with
      active := some (.awaiting s.request s.generation)
      view := { s.view with status := .syncing, error := none }
      history := { s.history with
        sent := some s.request, creates := s.request.createKey ++ s.history.creates } }

/-- What one turn of the loop of `drain` does, and when. -/
inductive DrainSpec (s : State S C) : State S C → Prop
  | finished : s.acknowledged = s.generation →
      DrainSpec s { s with
        storage := none
        active := some (.settled none)
        view := { s.view with
          status := .saved, dirty := false, localStored := false, error := none } }
  | disposed : s.acknowledged ≠ s.generation → s.disposed = true →
      DrainSpec s { s with active := some (.settled none) }
  | invalid : s.acknowledged ≠ s.generation → s.disposed = false → s.view.fieldErrors ≠ [] →
      DrainSpec s { s with
        active := some (.settled (some .other))
        view := { s.view with status := .invalid } }
  | sent : s.acknowledged ≠ s.generation → s.disposed = false →
      DrainSpec s { s with
        active := some (.awaiting s.request s.generation)
        view := { s.view with status := .syncing, error := none }
        history := { s.history with
          sent := some s.request, creates := s.request.createKey ++ s.history.creates } }

omit [SyncCard C] in
theorem drainLoop_spec (s : State S C) : DrainSpec s (drainLoop s) := by
  unfold drainLoop
  split
  · exact .finished ‹_›
  · rename_i hbehind
    split
    · exact .disposed hbehind ‹_›
    · rename_i hdisposed
      have hdisposed := Bool.eq_false_iff.mpr hdisposed
      split
      · rename_i herrors
        exact .invalid hbehind hdisposed (by simpa using herrors)
      · exact .sent hbehind hdisposed

/-- The status a failure is published with. -/
def Failure.status : Failure → SyncStatus
  | .conflict => .conflict
  | .other => .error

/-- The `catch` of `drain`. -/
def drainFailed (s : State S C) (failure : Failure) (stored : Bool) : State S C :=
  persist
    { s with
      active := some (.settled (some failure))
      view := { s.view with status := failure.status, error := some failure, dirty := true }
      history := { s.history with
        conflicted := s.history.conflicted || decide (failure = .conflict) } }
    stored

/-- The server's answer to a request of `drain` or of a command. -/
inductive Reply (C : Type*) where
  | card (card : C)
  | failure (failure : Failure)

/-- A conflict that comes in after `dispose` is reported all the same. -/
def State.reported (s : State S C) (failure : Failure) : State S C :=
  { s with history := { s.history with
      conflicted := s.history.conflicted || decide (failure = .conflict) } }

/-- `drain` after the `await` of `create`. -/
def created (o : SyncOptions S C) (s : State S C) (state : S) (card : C) (stored : Bool) :
    State S C :=
  let s := { s with view := { s.view with
    card := some card, state := o.acceptMetadata s.view.state card } }
  if token card ≠ 1 then drainFailed s .conflict stored
  else
    drainLoop (persist
      { s with
        baseToken := some (token card)
        history := { s.history with
          derived := some (token card), acknowledged := state, created := true } }
      stored)

/-- `drain` after the `await` of `save`. -/
def saved (s : State S C) (state : S) (sentGeneration : Nat) (card : C) (stored : Bool) :
    State S C :=
  drainLoop (persist
    { s with
      acknowledged := sentGeneration
      baseToken := some (token card)
      view := { s.view with card := some card }
      history := { s.history with derived := some (token card), acknowledged := state } }
    stored)

/-- `drain` after an `await`. -/
def drainReply (o : SyncOptions S C) (s : State S C) (request : Request S C) (sentGeneration : Nat)
    (reply : Reply C) (stored : Bool) : State S C :=
  match reply with
  | .card card =>
    if s.disposed then { s with active := some (.settled none) }
    else
      match request with
      | .create state _ => created o s state card stored
      | .save state _ => saved s state sentGeneration card stored
  | .failure failure =>
    if s.disposed then { s.reported failure with active := some (.settled none) }
    else drainFailed s failure stored

/-- `recover` from the assignment of `creationKey` on. -/
def accept (o : SyncOptions S C) (s : State S C) (recovery : Recovery S) (stored : Bool) :
    State S C :=
  let s := { s with
    creationKey := recovery.creationKey
    baseToken := recovery.token
    view := { s.view with recovery := none } }
  let derived := if s.refusesEdit then s.history.derived else recovery.token
  let s := edit o s recovery.state stored
  let s := { s with history := { s.history with derived := derived } }
  if s.view.card.map token = recovery.token then s
  else
    { s with
      timer := false
      view := { s.view with status := .conflict, error := some .conflict } }

/-- `recover` up to its first `await`. -/
def recover (o : SyncOptions S C) (s : State S C) (stored : Bool) : State S C :=
  match s.view.recovery with
  | none => s
  | some recovery =>
    if s.view.card.isNone ∧ recovery.componentId.any (· ≠ "") ∧ o.loadCard then
      { s with loads := s.loads + 1 }
    else accept o s recovery stored

/-- `recover` after the `await` of `loadCard`. -/
def loaded (o : SyncOptions S C) (s : State S C) (reply : Reply C) (stored : Bool) : State S C :=
  let s := { s with loads := s.loads - 1 }
  match reply with
  | .card card =>
    if s.disposed then s
    else
      match s.view.recovery with
      | none => s
      | some recovery => accept o { s with view := { s.view with card := some card } } recovery stored
  | .failure failure =>
    if s.disposed then s else { s with view := { s.view with error := some failure } }

/-- `discard`. -/
def discard (o : SyncOptions S C) (s : State S C) (card : Option C) (state : Option S) :
    State S C :=
  if s.active.isSome ∨ s.commandFlight.isSome then s
  else
    let card' := card.orElse fun _ => o.card
    let state' := state.getD o.initial
    { s with
      timer := false
      storage := none
      generation := 0
      acknowledged := 0
      baseToken := card'.map token
      view := { s.view with
        state := state', card := card', status := .saved, dirty := false, recovery := none,
        error := none, fieldErrors := [], localStored := false }
      history := { s.history with
        derived := card'.map token, conflicted := false, acknowledged := state', created := false } }

/-- `command`, up to its first reaction. -/
def command (s : State S C) : State S C :=
  if s.disposed ∨ s.view.transientBusy ∨ s.commandFlight.isSome then s
  else
    { s with
      commandFlight := some .scheduled
      view := { s.view with commandPending := true } }

/-- A command after the `await` of its operation. -/
def commandReply (s : State S C) (reply : Reply C) : State S C :=
  match reply with
  | .card card =>
    if s.disposed then { s with commandFlight := some .settled }
    else
      { s with
        commandFlight := some .settled
        baseToken := some (token card)
        view := { s.view with card := some card, status := .saved, error := none }
        history := { s.history with derived := some (token card) } }
  | .failure failure => { s.reported failure with commandFlight := some (.failing failure) }

/-! ## Tasks and reactions -/

inductive Event (S C : Type*) where
  -- calls
  | edit (state : S) (stored : Bool)
  | flush
  | command
  | recover (stored : Bool)
  | discard (card : Option C) (state : Option S)
  | dispose
  | setBusy (busy : Bool)
  -- other tasks
  | timer
  | drainReply (reply : Reply C) (stored : Bool)
  | commandReply (reply : Reply C)
  | loadReply (reply : Reply C) (stored : Bool)
  -- reactions
  | startDrain
  | finishDrain
  | startCommand
  | resumeCommand
  | catchCommand
  | finishCommand

/-- No reaction of an earlier task is under way. -/
def State.quiet (s : State S C) : Bool :=
  (match s.active with
    | some (.settled _) => false
    | _ => true) &&
  match s.commandFlight with
  | none | some .scheduled | some .flushing | some (.operating _) => true
  | some .flushed | some (.failing _) | some .settled => false

/-- No reaction is waiting to run. -/
def State.idle (s : State S C) : Bool :=
  (match s.active with
    | none | some (.awaiting _ _) => true
    | _ => false) &&
  match s.commandFlight with
  | none | some .flushing | some (.operating _) => true
  | _ => false

/-- The promise of the drain settles. -/
def finishDrain (s : State S C) (failure : Option Failure) : State S C :=
  { s with
    active := none
    commandFlight :=
      match s.commandFlight with
      | some .flushing => some (failure.elim .flushed .failing)
      | flight => flight }

/-- The body of a command, up to the `await` of `flush`. -/
def startCommand (s : State S C) : State S C :=
  let (s, result) := flush s
  { s with commandFlight := some (match result with
    | .resolved => .flushed
    | .rejected => .failing .other
    | .pending => .flushing) }

/-- The body of a command after the `await` of `flush`. -/
def resumeCommand (s : State S C) : State S C :=
  if s.disposed then { s with commandFlight := some (.failing .other) }
  else
    match s.view.card with
    | none => { s with commandFlight := some (.failing .other) }
    | some card => { s with commandFlight := some (.operating card) }

/-- The `catch` of a command. -/
def catchCommand (s : State S C) (failure : Failure) : State S C :=
  { s with
    commandFlight := some .settled
    view := { s.view with error := some failure, status := failure.status } }

/-- What an event does; `none` when it cannot happen. -/
def react (o : SyncOptions S C) (s : State S C) : Event S C → Option (State S C)
  | .edit state stored => if s.quiet then some (edit o s state stored) else none
  | .flush => if s.quiet then some (flush s).1 else none
  | .command => if s.quiet then some (command s) else none
  | .recover stored => if s.quiet then some (recover o s stored) else none
  | .discard card state => if s.quiet then some (discard o s card state) else none
  | .dispose => if s.quiet then some { s with disposed := true, timer := false } else none
  | .setBusy busy =>
    if s.quiet then some { s with view := { s.view with transientBusy := busy } } else none
  | .timer => if s.idle ∧ s.timer then some (flush s).1 else none
  | .drainReply reply stored =>
    match s.active with
    | some (.awaiting request sentGeneration) =>
      if s.idle then some (drainReply o s request sentGeneration reply stored) else none
    | _ => none
  | .commandReply reply =>
    match s.commandFlight with
    | some (.operating _) => if s.idle then some (commandReply s reply) else none
    | _ => none
  | .loadReply reply stored =>
    if s.idle ∧ 0 < s.loads then some (loaded o s reply stored) else none
  | .startDrain =>
    match s.active with
    | some .scheduled => some (drainLoop s)
    | _ => none
  | .finishDrain =>
    match s.active with
    | some (.settled failure) => some (finishDrain s failure)
    | _ => none
  | .startCommand =>
    match s.commandFlight with
    | some .scheduled => some (startCommand s)
    | _ => none
  | .resumeCommand =>
    match s.commandFlight with
    | some .flushed => some (resumeCommand s)
    | _ => none
  | .catchCommand =>
    match s.commandFlight with
    | some (.failing failure) => some (catchCommand s failure)
    | _ => none
  | .finishCommand =>
    match s.commandFlight with
    | some .settled =>
      some { s with commandFlight := none, view := { s.view with commandPending := false } }
    | _ => none

/-- What a step does, and when it is enabled. -/
inductive ReactSpec (o : SyncOptions S C) (s : State S C) : Event S C → State S C → Prop
  | edit (state : S) (stored : Bool) : s.quiet → ReactSpec o s (.edit state stored)
      (edit o s state stored)
  | flush : s.quiet → ReactSpec o s .flush (flush s).1
  | command : s.quiet → ReactSpec o s .command (command s)
  | recover (stored : Bool) : s.quiet → ReactSpec o s (.recover stored) (recover o s stored)
  | discard (card : Option C) (state : Option S) : s.quiet →
      ReactSpec o s (.discard card state) (discard o s card state)
  | dispose : s.quiet → ReactSpec o s .dispose { s with disposed := true, timer := false }
  | setBusy (busy : Bool) : s.quiet →
      ReactSpec o s (.setBusy busy) { s with view := { s.view with transientBusy := busy } }
  | timer : s.idle → ReactSpec o s .timer (flush s).1
  | drainReply {request : Request S C} {sentGeneration : Nat} (reply : Reply C) (stored : Bool) :
      s.active = some (.awaiting request sentGeneration) → s.idle →
      ReactSpec o s (.drainReply reply stored) (drainReply o s request sentGeneration reply stored)
  | commandReply {card : C} (reply : Reply C) : s.commandFlight = some (.operating card) → s.idle →
      ReactSpec o s (.commandReply reply) (commandReply s reply)
  | loadReply (reply : Reply C) (stored : Bool) : s.idle →
      ReactSpec o s (.loadReply reply stored) (loaded o s reply stored)
  | startDrain : s.active = some .scheduled → ReactSpec o s .startDrain (drainLoop s)
  | finishDrain {failure : Option Failure} : s.active = some (.settled failure) →
      ReactSpec o s .finishDrain (finishDrain s failure)
  | startCommand : s.commandFlight = some .scheduled →
      ReactSpec o s .startCommand (startCommand s)
  | resumeCommand : s.commandFlight = some .flushed →
      ReactSpec o s .resumeCommand (resumeCommand s)
  | catchCommand {failure : Failure} : s.commandFlight = some (.failing failure) →
      ReactSpec o s .catchCommand (catchCommand s failure)
  | finishCommand : s.commandFlight = some .settled → ReactSpec o s .finishCommand
      { s with commandFlight := none, view := { s.view with commandPending := false } }

theorem react_spec {o : SyncOptions S C} {s s' : State S C} {e : Event S C}
    (h : react o s e = some s') : ReactSpec o s e s' := by
  cases e with
  | edit state stored =>
    obtain ⟨hquiet, hs⟩ := Option.ite_none_right_eq_some.mp h
    exact Option.some.inj hs ▸ .edit state stored hquiet
  | flush =>
    obtain ⟨hquiet, hs⟩ := Option.ite_none_right_eq_some.mp h
    exact Option.some.inj hs ▸ .flush hquiet
  | command =>
    obtain ⟨hquiet, hs⟩ := Option.ite_none_right_eq_some.mp h
    exact Option.some.inj hs ▸ .command hquiet
  | recover stored =>
    obtain ⟨hquiet, hs⟩ := Option.ite_none_right_eq_some.mp h
    exact Option.some.inj hs ▸ .recover stored hquiet
  | discard card state =>
    obtain ⟨hquiet, hs⟩ := Option.ite_none_right_eq_some.mp h
    exact Option.some.inj hs ▸ .discard card state hquiet
  | dispose =>
    obtain ⟨hquiet, hs⟩ := Option.ite_none_right_eq_some.mp h
    exact Option.some.inj hs ▸ .dispose hquiet
  | setBusy busy =>
    obtain ⟨hquiet, hs⟩ := Option.ite_none_right_eq_some.mp h
    exact Option.some.inj hs ▸ .setBusy busy hquiet
  | timer =>
    obtain ⟨hidle, hs⟩ := Option.ite_none_right_eq_some.mp h
    exact Option.some.inj hs ▸ .timer hidle.1
  | loadReply reply stored =>
    obtain ⟨hidle, hs⟩ := Option.ite_none_right_eq_some.mp h
    exact Option.some.inj hs ▸ .loadReply reply stored hidle.1
  | drainReply reply stored =>
    simp only [react] at h
    split at h
    · rename_i hactive
      obtain ⟨hidle, hs⟩ := Option.ite_none_right_eq_some.mp h
      exact Option.some.inj hs ▸ .drainReply reply stored hactive hidle
    · cases h
  | commandReply reply =>
    simp only [react] at h
    split at h
    · rename_i hflight
      obtain ⟨hidle, hs⟩ := Option.ite_none_right_eq_some.mp h
      exact Option.some.inj hs ▸ .commandReply reply hflight hidle
    · cases h
  | startDrain =>
    simp only [react] at h
    split at h
    · exact Option.some.inj h ▸ .startDrain ‹_›
    · cases h
  | finishDrain =>
    simp only [react] at h
    split at h
    · exact Option.some.inj h ▸ .finishDrain ‹_›
    · cases h
  | startCommand =>
    simp only [react] at h
    split at h
    · exact Option.some.inj h ▸ .startCommand ‹_›
    · cases h
  | resumeCommand =>
    simp only [react] at h
    split at h
    · exact Option.some.inj h ▸ .resumeCommand ‹_›
    · cases h
  | catchCommand =>
    simp only [react] at h
    split at h
    · exact Option.some.inj h ▸ .catchCommand ‹_›
    · cases h
  | finishCommand =>
    simp only [react] at h
    split at h
    · exact Option.some.inj h ▸ .finishCommand ‹_›
    · cases h

/-- One step: nothing is sent yet. -/
def step (o : SyncOptions S C) (s : State S C) (e : Event S C) : Option (State S C) :=
  react o { s with history := { s.history with sent := none } } e

/-! ## An editor of titles -/

/-- A card with all that the controller reads of it. -/
structure ComponentCard where
  id : String
  revision : Nat
  editToken : Option Nat
  deriving DecidableEq, Repr

instance : SyncCard ComponentCard where
  id := ComponentCard.id
  revision := ComponentCard.revision
  editToken := ComponentCard.editToken

/-- The editor of a title, opened on a card or on a new one. -/
def titleEditor (card : Option ComponentCard) : SyncOptions String ComponentCard where
  initial := ""
  card := card
  validate := fun _ => []
  acceptMetadata := fun title _ => title
  loadCard := true

end ComponentKb.Editor
