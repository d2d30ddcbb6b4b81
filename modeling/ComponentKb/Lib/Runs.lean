import Mathlib.Logic.Function.Basic
import Mathlib.Tactic.Common

/-!
# Runs of an executable transition system

`step : σ → ε → Option σ` is the transition function of a system: `none` when the event is not
enabled. `run` follows a list of events, `Always` says that a property holds of every state on the
way and `Along` that it holds of every step taken; `Stays` says that from the first state with `Q`
on, every later state is related to it.

* `run_inv`, `always_of_inv`, `along_of_inv`, `along_of_always`: the invariant rules. A condition `ok` on the steps of
  the run may be assumed, so that a system that keeps its invariant only on some steps still has a
  rule.
* `stays_iff_along`: for a preorder `R` that keeps `Q`, the two forms of "once `Q`, always `R`"
  (over every split of the run, and step by step) agree.
* `stays_of_along`: what every step keeps stays.
-/

namespace ComponentKb.Lib

variable {σ ε : Type*} {step : σ → ε → Option σ}

/-- The state a list of events leads to; `none` when one of them is not enabled. -/
def run (step : σ → ε → Option σ) (s : σ) : List ε → Option σ
  | [] => some s
  | e :: es => (step s e).bind fun s' => run step s' es

/-- `P` holds of every step the events take from `s`, up to the first one that is not enabled. -/
def Along (step : σ → ε → Option σ) (P : σ → ε → σ → Prop) (s : σ) : List ε → Prop
  | [] => True
  | e :: es =>
    match step s e with
    | none => True
    | some s' => P s e s' ∧ Along step P s' es

/-- `P` holds of every state the run passes through. -/
def Always (step : σ → ε → Option σ) (P : σ → Prop) (s : σ) (es : List ε) : Prop :=
  ∀ before after t, es = before ++ after → run step s before = some t → P t

/-- From the first state satisfying `Q` on, every later state of the run is related to it. -/
def Stays (step : σ → ε → Option σ) (Q : σ → Prop) (R : σ → σ → Prop) (s : σ) (es : List ε) :
    Prop :=
  ∀ before after rest mid fin, es = before ++ (after ++ rest) → run step s before = some mid →
    Q mid → run step mid after = some fin → R mid fin

/-- `Along` is decided by running the events. -/
def decideAlong {P : σ → ε → σ → Prop} [∀ s e s', Decidable (P s e s')] (s : σ) :
    (es : List ε) → Decidable (Along step P s es)
  | [] => isTrue trivial
  | e :: es =>
    match h : step s e with
    | none => isTrue (by rw [Along, h]; trivial)
    | some s' =>
      haveI : Decidable (Along step P s' es) := decideAlong s' es
      decidable_of_iff (P s e s' ∧ Along step P s' es) (by rw [Along, h])

instance {P : σ → ε → σ → Prop} [∀ s e s', Decidable (P s e s')] (s : σ) (es : List ε) :
    Decidable (Along step P s es) := decideAlong s es

@[simp] theorem run_nil (s : σ) : run step s [] = some s := rfl

theorem run_cons (s : σ) (e : ε) (es : List ε) :
    run step s (e :: es) = (step s e).bind fun s' => run step s' es := rfl

theorem run_cons_eq_some {s t : σ} {e : ε} {es : List ε} :
    run step s (e :: es) = some t ↔ ∃ s', step s e = some s' ∧ run step s' es = some t := by
  rw [run_cons, Option.bind_eq_some_iff]

theorem run_append (s : σ) (xs ys : List ε) :
    run step s (xs ++ ys) = (run step s xs).bind fun s' => run step s' ys := by
  induction xs generalizing s with
  | nil => rfl
  | cons e es ih =>
    rw [List.cons_append, run_cons, run_cons, Option.bind_assoc]
    exact congrArg _ (funext fun s' => ih s')

theorem along_cons {P : σ → ε → σ → Prop} {s s' : σ} {e : ε} {es : List ε}
    (h : step s e = some s') :
    Along step P s (e :: es) ↔ P s e s' ∧ Along step P s' es := by
  rw [Along, h]

/-! ## Invariants -/

section Invariant

variable {Inv : σ → Prop} {ok P : σ → ε → σ → Prop}

/-- **The invariant rule.** What every allowed step keeps holds at the end of every run whose
steps are allowed. -/
theorem run_inv (hstep : ∀ s e s', Inv s → ok s e s' → step s e = some s' → Inv s') :
    ∀ {es : List ε} {s t : σ}, Inv s → Along step ok s es → run step s es = some t → Inv t
  | [], _, _, hs, _, h => Option.some.inj h ▸ hs
  | e :: es, s, t, hs, hok, h => by
    obtain ⟨s', he, h'⟩ := run_cons_eq_some.mp h
    obtain ⟨hoke, hoks⟩ := (along_cons he).mp hok
    exact run_inv hstep (hstep s e s' hs hoke he) hoks h'

/-- What follows at each step from the invariant and the condition holds along the run. -/
theorem along_of_inv (hstep : ∀ s e s', Inv s → ok s e s' → step s e = some s' → Inv s')
    (hP : ∀ s e s', Inv s → ok s e s' → step s e = some s' → P s e s') :
    ∀ {es : List ε} {s : σ}, Inv s → Along step ok s es → Along step P s es
  | [], _, _, _ => trivial
  | e :: es, s, hs, hok => by
    cases he : step s e with
    | none => rw [Along, he]; trivial
    | some s' =>
      obtain ⟨hoke, hoks⟩ := (along_cons he).mp hok
      exact (along_cons he).mpr
        ⟨hP s e s' hs hoke he, along_of_inv hstep hP (hstep s e s' hs hoke he) hoks⟩

theorem along_true (s : σ) (es : List ε) : Along step (fun _ _ _ => True) s es := by
  induction es generalizing s with
  | nil => trivial
  | cons e es ih =>
    cases he : step s e with
    | none => rw [Along, he]; trivial
    | some s' => exact (along_cons he).mpr ⟨trivial, ih s'⟩

/-- A condition on the events alone. -/
theorem along_of_mem {allowed : ε → Prop} {es : List ε} (h : ∀ e ∈ es, allowed e) (s : σ) :
    Along step (fun _ e _ => allowed e) s es := by
  induction es generalizing s with
  | nil => trivial
  | cons e es ih =>
    obtain ⟨he, hes⟩ := List.forall_mem_cons.mp h
    cases hs : step s e with
    | none => rw [Along, hs]; trivial
    | some s' => exact (along_cons hs).mpr ⟨he, ih hes s'⟩

theorem along_and {s : σ} {es : List ε} :
    Along step (fun s e s' => P s e s' ∧ ok s e s') s es ↔
      Along step P s es ∧ Along step ok s es := by
  induction es generalizing s with
  | nil => exact ⟨fun _ => ⟨trivial, trivial⟩, fun _ => trivial⟩
  | cons e es ih =>
    cases he : step s e with
    | none =>
      rw [Along, Along, Along, he]
      exact ⟨fun _ => ⟨trivial, trivial⟩, fun _ => trivial⟩
    | some s' =>
      rw [along_cons he, along_cons he, along_cons he, ih]
      exact and_and_and_comm

theorem along_append {s : σ} {xs ys : List ε} (h : Along step P s (xs ++ ys)) :
    Along step P s xs ∧ ∀ t, run step s xs = some t → Along step P t ys := by
  induction xs generalizing s with
  | nil => exact ⟨trivial, fun t ht => Option.some.inj ht ▸ h⟩
  | cons e es ih =>
    cases he : step s e with
    | none =>
      refine ⟨by rw [Along, he]; trivial, fun t ht => ?_⟩
      rw [run_cons, he] at ht
      exact absurd ht (by simp)
    | some s' =>
      obtain ⟨hP, hrest⟩ := (along_cons he).mp (List.cons_append ▸ h)
      obtain ⟨hxs, hys⟩ := ih hrest
      refine ⟨(along_cons he).mpr ⟨hP, hxs⟩, fun t ht => hys t ?_⟩
      rw [run_cons, he] at ht
      exact ht

/-- What the invariant implies holds in every state of the run. -/
theorem always_of_inv {P : σ → Prop}
    (hstep : ∀ s e s', Inv s → ok s e s' → step s e = some s' → Inv s')
    (hP : ∀ s, Inv s → P s) {es : List ε} {s : σ} (hs : Inv s) (hok : Along step ok s es) :
    Always step P s es := by
  rintro before after t rfl hrun
  exact hP t (run_inv hstep hs (along_append hok).1 hrun)

/-- A condition on the steps that a property of the states reached forces, along every run that
keeps the property. -/
theorem along_of_always {P : σ → Prop}
    (hstep : ∀ s e s', Inv s → ok s e s' → step s e = some s' → Inv s')
    (hforced : ∀ s e s', Inv s → step s e = some s' → P s' → ok s e s') :
    ∀ {es : List ε} {s : σ}, Inv s → Always step P s es → Along step ok s es
  | [], _, _, _ => trivial
  | e :: es, s, hs, halways => by
    cases he : step s e with
    | none =>
      rw [Along, he]
      trivial
    | some s' =>
      have hP : P s' := halways [e] es s' rfl (by rw [run_cons, he]; rfl)
      have hok := hforced s e s' hs he hP
      refine (along_cons he).mpr
        ⟨hok, along_of_always hstep hforced (hstep s e s' hs hok he) ?_⟩
      rintro before after t rfl hrun
      refine halways (e :: before) after t rfl ?_
      rw [run_cons, he]
      exact hrun

/-- Two conditions on steps that agree under an invariant agree along every run; `allowed` may
restrict the events of the run. -/
theorem along_congr_of_mem {Q : σ → ε → σ → Prop} {allowed : ε → Prop}
    (hstep : ∀ s e s', allowed e → Inv s → step s e = some s' → Inv s')
    (hiff : ∀ s e s', allowed e → Inv s → step s e = some s' → (P s e s' ↔ Q s e s')) :
    ∀ {es : List ε} {s : σ}, (∀ e ∈ es, allowed e) → Inv s →
      (Along step P s es ↔ Along step Q s es)
  | [], _, _, _ => Iff.rfl
  | e :: es, s, hes, hs => by
    obtain ⟨hallowed, hrest⟩ := List.forall_mem_cons.mp hes
    cases he : step s e with
    | none =>
      rw [Along, Along, he]
    | some s' =>
      rw [along_cons he, along_cons he, hiff s e s' hallowed hs he,
        along_congr_of_mem hstep hiff hrest (hstep s e s' hallowed hs he)]

/-- Two conditions that agree on the steps of a run. -/
theorem along_congr_of_along {Q : σ → ε → σ → Prop}
    (hiff : ∀ s e s', ok s e s' → step s e = some s' → (P s e s' ↔ Q s e s')) :
    ∀ {es : List ε} {s : σ}, Along step ok s es → (Along step P s es ↔ Along step Q s es)
  | [], _, _ => Iff.rfl
  | e :: es, s, hok => by
    cases he : step s e with
    | none =>
      rw [Along, Along, he]
    | some s' =>
      obtain ⟨hoke, hoks⟩ := (along_cons he).mp hok
      rw [along_cons he, along_cons he, hiff s e s' hoke he, along_congr_of_along hiff hoks]

theorem along_congr_of_inv {Q : σ → ε → σ → Prop}
    (hstep : ∀ s e s', Inv s → step s e = some s' → Inv s')
    (hiff : ∀ s e s', Inv s → step s e = some s' → (P s e s' ↔ Q s e s')) {es : List ε} {s : σ}
    (hs : Inv s) : Along step P s es ↔ Along step Q s es :=
  have hall : ∀ e ∈ es, (fun _ : ε => True) e := fun _ _ => trivial
  along_congr_of_mem (fun s e s' _ => hstep s e s') (fun s e s' _ => hiff s e s') hall hs

end Invariant

/-! ## Stability -/

section Stays

variable {Q : σ → Prop} {R : σ → σ → Prop}

theorem run_related (hrefl : ∀ a, R a a) (htrans : ∀ a b c, R a b → R b c → R a c)
    (hQ : ∀ a b, Q a → R a b → Q b) :
    ∀ {es : List ε} {a b : σ}, Along step (fun s _ s' => Q s → R s s') a es → Q a →
      run step a es = some b → R a b
  | [], a, _, _, _, h => Option.some.inj h ▸ hrefl a
  | e :: es, a, b, hal, ha, h => by
    obtain ⟨a', he, h'⟩ := run_cons_eq_some.mp h
    obtain ⟨h1, h2⟩ := (along_cons he).mp hal
    exact htrans a a' b (h1 ha) (run_related hrefl htrans hQ h2 (hQ a a' ha (h1 ha)) h')

/-- What every step does to a state, a run does to it. -/
theorem run_of_step (hrefl : ∀ a, R a a) (htrans : ∀ a b c, R a b → R b c → R a c)
    (hstep : ∀ a e b, step a e = some b → R a b) :
    ∀ {es : List ε} {a b : σ}, run step a es = some b → R a b
  | [], a, _, h => Option.some.inj h ▸ hrefl a
  | e :: es, a, b, h => by
    obtain ⟨a', he, h'⟩ := run_cons_eq_some.mp h
    exact htrans a a' b (hstep a e a' he) (run_of_step hrefl htrans hstep h')

/-- **Stability, step by step.** -/
theorem stays_iff_along (hrefl : ∀ a, R a a) (htrans : ∀ a b c, R a b → R b c → R a c)
    (hQ : ∀ a b, Q a → R a b → Q b) {s : σ} {es : List ε} :
    Stays step Q R s es ↔ Along step (fun a _ b => Q a → R a b) s es := by
  constructor
  · intro h
    induction es generalizing s with
    | nil => trivial
    | cons e es ih =>
      cases he : step s e with
      | none => rw [Along, he]; trivial
      | some s' =>
        refine (along_cons he).mpr ⟨fun hs => ?_, ih fun before after rest mid fin hes hb => ?_⟩
        · exact h [] [e] es s s' rfl rfl hs (by rw [run_cons, he]; rfl)
        · refine h (e :: before) after rest mid fin (by rw [hes]; rfl) ?_
          rw [run_cons, he]
          exact hb
  · rintro h before after rest mid fin rfl hb hmid hfin
    have hafter := (along_append ((along_append h).2 mid hb)).1
    exact run_related hrefl htrans hQ hafter hmid hfin

/-- What every step keeps, once it holds, holds from then on. -/
theorem stays_of_along {s : σ} {es : List ε} (h : Along step (fun a _ b => Q a → Q b) s es) :
    Stays step Q (fun _ b => Q b) s es := by
  rintro before after rest mid fin rfl hbefore hmid hafter
  have hafter' := (along_append ((along_append h).2 mid hbefore)).1
  exact run_inv (fun _ _ _ hq hkeep _ => hkeep hq) hmid hafter' hafter

end Stays

end ComponentKb.Lib
