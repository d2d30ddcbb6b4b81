import ComponentKb.Lib.Checked
import Mathlib

/-!
# The exact condition of a checked computation

A computation in `Except` that builds values through checking constructors returns on some inputs
and fails on the others. `Passes x P Q` says which: `x` returns exactly when `P` holds, and what it
returns has `Q`. The condition is about the inputs, so the rules put the conditions of the parts
together without the values in between:

* `Passes.bind`: one computation after another; the second may rely on what the first returned.
* `Passes.demand`, `Passes.bind_demand`: one check, and a check before the rest.
* `Passes.mapM`, `Passes.option`: the same computation for every element, or for the one there is.
* `Passes.congr`, `Passes.mono`: another form of the condition, a weaker result.
-/

namespace ComponentKb.Lib

variable {ε α β γ : Type}

/-- `x` returns exactly when `P` holds, and what it returns has `Q`. -/
structure Passes (x : Except ε α) (P : Prop) (Q : α → Prop) : Prop where
  returns_iff : (∃ a, x = .ok a) ↔ P
  result : ∀ a, x = .ok a → Q a

/-- A check that keeps the proof of what it found. -/
def demand (p : Prop) [Decidable p] (error : ε) : Except ε (PLift p) :=
  if h : p then .ok ⟨h⟩ else .error error

/-- The error of a computation, if it fails. -/
def failure : Except ε α → Option ε
  | .error e => some e
  | .ok _ => none

theorem not_returns_of_failure {x : Except ε α} {e : ε} (h : failure x = some e) :
    ¬ ∃ a, x = .ok a := by
  rintro ⟨a, rfl⟩
  cases h

namespace Passes

variable {x : Except ε α} {f : α → Except ε β} {P P' : Prop} {Q Q' : α → Prop} {R : β → Prop}

theorem pure {a : α} (h : Q a) : Passes (Pure.pure a : Except ε α) True Q where
  returns_iff := iff_of_true ⟨a, rfl⟩ trivial
  result _ ha := Except.ok.inj ha ▸ h

theorem error {e : ε} : Passes (.error e : Except ε α) False Q where
  returns_iff := iff_of_false (fun ⟨_, ha⟩ => by cases ha) id
  result _ ha := by cases ha

theorem congr (h : Passes x P Q) (hP : P ↔ P') : Passes x P' Q :=
  ⟨h.returns_iff.trans hP, h.result⟩

theorem mono (h : Passes x P Q) (hQ : ∀ a, Q a → Q' a) : Passes x P Q' :=
  ⟨h.returns_iff, fun a ha => hQ a (h.result a ha)⟩

/-- A result may be read together with the condition. -/
theorem keep (h : Passes x P Q) : Passes x P fun a => P ∧ Q a :=
  ⟨h.returns_iff, fun a ha => ⟨h.returns_iff.mp ⟨a, ha⟩, h.result a ha⟩⟩

/-- **One computation after another.** -/
theorem bind (hx : Passes x P Q) (hf : ∀ a, Q a → Passes (f a) P' R) :
    Passes (x >>= f) (P ∧ P') R where
  returns_iff := by
    constructor
    · rintro ⟨b, hb⟩
      obtain ⟨a, ha, hb⟩ := bind_eq_ok.mp hb
      exact ⟨hx.returns_iff.mp ⟨a, ha⟩, (hf a (hx.result a ha)).returns_iff.mp ⟨b, hb⟩⟩
    · rintro ⟨hP, hP'⟩
      obtain ⟨a, ha⟩ := hx.returns_iff.mpr hP
      obtain ⟨b, hb⟩ := (hf a (hx.result a ha)).returns_iff.mpr hP'
      exact ⟨b, bind_eq_ok.mpr ⟨a, ha, hb⟩⟩
  result b hb := by
    obtain ⟨a, ha, hb⟩ := bind_eq_ok.mp hb
    exact (hf a (hx.result a ha)).result b hb

theorem demand {p : Prop} [Decidable p] {e : ε} :
    Passes (Lib.demand p e) p fun _ => True := by
  unfold Lib.demand
  split
  · next h => exact ⟨iff_of_true ⟨⟨h⟩, rfl⟩ h, fun _ _ => trivial⟩
  · next h => exact error.congr (iff_of_false id h)

/-- A check before the rest, which may rely on it. -/
theorem bind_demand {p : Prop} [Decidable p] {e : ε} {g : PLift p → Except ε β}
    (hg : ∀ h : p, Passes (g ⟨h⟩) P' R) : Passes (Lib.demand p e >>= g) (p ∧ P') R :=
  demand.bind fun ⟨h⟩ _ => hg h

/-- A check that always passes there. -/
theorem bind_met {p : Prop} [Decidable p] {e : ε} {g : PLift p → Except ε β} (hp : p)
    (hg : Passes (g ⟨hp⟩) P' R) : Passes (Lib.demand p e >>= g) P' R :=
  (bind_demand (g := g) fun _ => hg).congr (and_iff_right hp)

/-- The last check of a computation. -/
theorem last {p : Prop} [Decidable p] {e : ε} {g : PLift p → Except ε β}
    (hg : ∀ h : p, ∃ b, g ⟨h⟩ = .ok b ∧ R b) : Passes (Lib.demand p e >>= g) p R := by
  refine (bind_demand fun h => ?_).congr (and_iff_left trivial)
  obtain ⟨b, hb, hR⟩ := hg h
  exact hb ▸ pure hR

/-- A value that may be missing. -/
theorem fromSome {o : Option α} {e : ε} :
    Passes (Lib.fromSome o e) (o ≠ none) fun a => o = some a := by
  cases o with
  | none => exact error.congr (iff_of_false id fun h => h rfl)
  | some a =>
    exact ⟨iff_of_true ⟨a, rfl⟩ (Option.some_ne_none a),
      fun b hb => congrArg some (Except.ok.inj hb)⟩

theorem map {g : α → β} (hx : Passes x P fun a => R (g a)) : Passes (g <$> x) P R where
  returns_iff := by
    rw [← hx.returns_iff]
    cases x <;> simp
  result b hb := by
    cases x with
    | error e => cases hb
    | ok a => exact Except.ok.inj hb ▸ hx.result a rfl

/-- The same computation for every element of a list. -/
theorem mapM {S : α → Prop} {T : α → β → Prop} {xs : List α}
    (h : ∀ a ∈ xs, Passes (f a) (S a) (T a)) :
    Passes (xs.mapM f) (∀ a ∈ xs, S a) fun bs => List.Forall₂ T xs bs := by
  induction xs with
  | nil => exact (pure List.Forall₂.nil).congr (by simp)
  | cons a xs ih =>
    obtain ⟨ha, hxs⟩ := List.forall_mem_cons.mp h
    rw [List.mapM_cons]
    refine (ha.bind fun b hb => (ih hxs).bind fun bs hbs => pure (.cons hb hbs)).congr ?_
    rw [List.forall_mem_cons, and_true]

/-- Each result of the computations belongs to an element. -/
theorem exists_of_mem {T : α → β → Prop} {xs : List α} {bs : List β} (h : List.Forall₂ T xs bs)
    {b : β} (hb : b ∈ bs) : ∃ a ∈ xs, T a b := by
  induction h with
  | nil => cases hb
  | cons hab _ ih =>
    rcases List.mem_cons.mp hb with rfl | hb
    · exact ⟨_, List.mem_cons_self, hab⟩
    · obtain ⟨a, ha, hT⟩ := ih hb
      exact ⟨a, List.mem_cons_of_mem _ ha, hT⟩

/-- Each element has a result of its computation. -/
theorem exists_of_mem' {T : α → β → Prop} {xs : List α} {bs : List β} (h : List.Forall₂ T xs bs)
    {a : α} (ha : a ∈ xs) : ∃ b ∈ bs, T a b :=
  exists_of_mem (List.Forall₂.flip (R := flip T) h) ha

/-- The computation for the value there is, if there is one. -/
theorem option {S : α → Prop} {T : α → β → Prop} {o : Option α}
    (h : ∀ a, o = some a → Passes (f a) (S a) (T a)) :
    Passes (o.mapM f) (∀ a, o = some a → S a) fun b =>
      (o = none ∧ b = none) ∨ ∃ a b', o = some a ∧ b = some b' ∧ T a b' := by
  cases o with
  | none =>
    exact ⟨iff_of_true ⟨none, rfl⟩ (by simp), fun b hb => .inl ⟨rfl, (Except.ok.inj hb).symm⟩⟩
  | some a =>
    have hmap : (some a).mapM f = some <$> f a := rfl
    rw [hmap]
    exact (map ((h a rfl).mono fun b hb => .inr ⟨a, b, rfl, rfl, hb⟩)).congr (by simp)

end Passes

end ComponentKb.Lib
