import ComponentKb.Lib.Checked

/-!
# Computations with a log

A computation that may fail, and that writes an event to a log for each thing it asks of its
surroundings. What it is answered may depend on the whole log, so the surroundings may be an
adversary. A failure leaves the log as it is.

* `Triple P x Q E`: from a log with `P`, the computation ends with `Q` or fails with `E`.
* `Triple.bind`, `Triple.ask`, `Triple.of`, `Triple.handle`: the rules.
-/

namespace ComponentKb.Lib

/-- A computation that writes events `ω` and fails with `ε`. -/
abbrev Logged (ω ε : Type) := ExceptT ε (StateM (List ω))

namespace Logged

variable {ω ε α β : Type}

/-- What a computation ends with, and the log after it. -/
def outcome (x : Logged ω ε α) (log : List ω) : Except ε α × List ω := x log

/-- A computation that asks nothing. -/
def of (x : Except ε α) : Logged ω ε α := fun log => (x, log)

/-- Asks the surroundings, and writes down what they answered. -/
def ask (answer : List ω → Except ε α) (event : Except ε α → ω) : Logged ω ε α :=
  fun log => (answer log, log ++ [event (answer log)])

/-- Turns a failure into another. -/
def handle (f : ε → ε) (x : Logged ω ε α) : Logged ω ε α :=
  fun log => ((x.outcome log).1.mapError f, (x.outcome log).2)

theorem outcome_bind (x : Logged ω ε α) (f : α → Logged ω ε β) (log : List ω) :
    (x >>= f).outcome log = match x.outcome log with
      | (.ok a, log) => (f a).outcome log
      | (.error e, log) => (.error e, log) := by
  unfold outcome
  simp only [bind, ExceptT.bind, ExceptT.mk, StateT.bind, ExceptT.bindCont]
  cases x log with
  | mk result log => cases result <;> rfl

/-- From a log with `P`, a computation ends with `Q` of its result, or fails with `E`. -/
def Triple (P : List ω → Prop) (x : Logged ω ε α) (Q : α → List ω → Prop)
    (E : ε → List ω → Prop) : Prop :=
  ∀ log, P log → match x.outcome log with
    | (.ok a, log) => Q a log
    | (.error e, log) => E e log

variable {P P' : List ω → Prop} {Q : α → List ω → Prop} {R : β → List ω → Prop}
  {E E' : ε → List ω → Prop} {x : Logged ω ε α}

namespace Triple

theorem bind {f : α → Logged ω ε β} (hx : Triple P x Q E) (hf : ∀ a, Triple (Q a) (f a) R E) :
    Triple P (x >>= f) R E := by
  intro log hlog
  have h := hx log hlog
  rw [outcome_bind]
  cases hresult : x.outcome log with
  | mk result log' =>
    rw [hresult] at h
    cases result with
    | ok a => exact hf a log' h
    | error e => exact h

theorem of {x : Except ε α} (hok : ∀ a log, x = .ok a → P log → Q a log)
    (herror : ∀ e log, x = .error e → P log → E e log) : Triple P (of x) Q E := by
  intro log hlog
  cases x with
  | ok a => exact hok a log rfl hlog
  | error e => exact herror e log rfl hlog

theorem pure {a : α} (h : ∀ log, P log → Q a log) : Triple P (pure a : Logged ω ε α) Q E := h

theorem throw {e : ε} (h : ∀ log, P log → E e log) : Triple P (throw e : Logged ω ε α) Q E := h

theorem ask {answer : List ω → Except ε α} {event : Except ε α → ω}
    (hok : ∀ log a, P log → answer log = .ok a → Q a (log ++ [event (.ok a)]))
    (herror : ∀ log e, P log → answer log = .error e → E e (log ++ [event (.error e)])) :
    Triple P (ask answer event) Q E := by
  intro log hlog
  change match (answer log, log ++ [event (answer log)]) with
    | (.ok a, log) => Q a log
    | (.error e, log) => E e log
  cases hanswer : answer log with
  | ok a => exact hok log a hlog hanswer
  | error e => exact herror log e hlog hanswer

/-- A failure that was turned into another is judged as what it was. -/
theorem handle {f : ε → ε} (hx : Triple P x Q fun e => E (f e)) : Triple P (handle f x) Q E := by
  intro log hlog
  have h := hx log hlog
  change match ((x.outcome log).1.mapError f, (x.outcome log).2) with
    | (.ok a, log) => Q a log
    | (.error e, log) => E e log
  cases hresult : x.outcome log with
  | mk result log' =>
    rw [hresult] at h
    cases result <;> exact h

theorem weaken {Q' : α → List ω → Prop} (hx : Triple P x Q E) (hpre : ∀ log, P' log → P log)
    (hpost : ∀ a log, Q a log → Q' a log) (herror : ∀ e log, E e log → E' e log) :
    Triple P' x Q' E' := by
  intro log hlog
  have h := hx log (hpre log hlog)
  cases hresult : x.outcome log with
  | mk result log' =>
    rw [hresult] at h
    cases result with
    | ok a => exact hpost a log' h
    | error e => exact herror e log' h

/-- What holds for each value of a variable holds where there is such a value. -/
theorem exists_pre {ι : Type*} {P : ι → List ω → Prop} (h : ∀ i, Triple (P i) x Q E) :
    Triple (fun log => ∃ i, P i log) x Q E := by
  rintro log ⟨i, hlog⟩
  exact h i log hlog

theorem ite {p : Prop} [Decidable p] {y : Logged ω ε α} (hx : p → Triple P x Q E)
    (hy : ¬ p → Triple P y Q E) : Triple P (if p then x else y) Q E := by
  by_cases h : p
  · rw [if_pos h]
    exact hx h
  · rw [if_neg h]
    exact hy h

end Triple

end Logged

end ComponentKb.Lib
