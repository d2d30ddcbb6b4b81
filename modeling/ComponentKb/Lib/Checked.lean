import Mathlib.Tactic.Common

/-!
# Checked computations

A function that checks its input, fails with the first error it finds and otherwise returns a value
is a `do` block in `Except`. Its callers want to know what holds when it returned: the lemmas here
take the block apart, one line at a time, into the checks that passed and the values they gave.

* `bind_eq_ok`, `seq_eq_ok`, `require_eq_ok`, `fromSome_eq_ok`, `each_eq_ok`: one line of a block.
* `ite_error_eq_ok`: a branch that fails.
* `mapM_map_eq_iff`: a computation for each element of a list, and a change of its results.
-/

namespace ComponentKb.Lib

variable {ε α β : Type*}

/-- Fails unless the condition holds. -/
def require (p : Prop) [Decidable p] (error : ε) : Except ε Unit :=
  if p then .ok () else .error error

/-- Fails on `none`. -/
def fromSome (x : Option α) (error : ε) : Except ε α :=
  match x with
  | some a => .ok a
  | none => .error error

theorem bind_eq_ok {α β : Type} {x : Except ε α} {f : α → Except ε β} {b : β} :
    (x >>= f) = .ok b ↔ ∃ a, x = .ok a ∧ f a = .ok b := by
  cases x with
  | error e =>
    constructor
    · intro h
      cases h
    · rintro ⟨a, hno, -⟩
      cases hno
  | ok a =>
    constructor
    · intro h
      exact ⟨a, rfl, h⟩
    · rintro ⟨a', ha, h⟩
      cases ha
      exact h

theorem pure_eq_ok {a b : α} : (pure a : Except ε α) = .ok b ↔ a = b :=
  Except.ok.injEq a b ▸ Iff.rfl

@[simp] theorem require_eq_ok {p : Prop} [Decidable p] {error : ε} {u : Unit} :
    require p error = .ok u ↔ p := by
  unfold require
  split <;> simp_all

@[simp] theorem fromSome_eq_ok {x : Option α} {error : ε} {a : α} :
    fromSome x error = .ok a ↔ x = some a := by
  cases x <;> simp [fromSome]

/-- A line that checks something and gives nothing back. -/
theorem seq_eq_ok {β : Type} {x : Except ε Unit} {f : Unit → Except ε β} {b : β} :
    (x >>= f) = .ok b ↔ x = .ok () ∧ f () = .ok b := by
  rw [bind_eq_ok]
  constructor
  · rintro ⟨⟨⟩, hx, hf⟩
    exact ⟨hx, hf⟩
  · rintro ⟨hx, hf⟩
    exact ⟨(), hx, hf⟩

/-- A branch that fails. -/
theorem ite_error_eq_ok {p : Prop} [Decidable p] {error : ε} {x : Except ε α} {a : α} :
    (if p then .error error else x) = .ok a ↔ ¬ p ∧ x = .ok a := by
  split <;> simp_all

/-- A check made only under a condition. -/
theorem ite_check_eq_ok {p : Prop} [Decidable p] {x : Except ε Unit} {u : Unit} :
    (if p then x else .ok ()) = .ok u ↔ (p → x = .ok ()) := by
  split <;> simp_all

theorem map_eq_ok {f : α → β} {x : Except ε α} {b : β} :
    x.map f = .ok b ↔ ∃ a, x = .ok a ∧ f a = b := by
  cases x <;> simp [Except.map]

theorem mapError_eq_ok {ε' : Type*} {f : ε → ε'} {x : Except ε α} {a : α} :
    x.mapError f = .ok a ↔ x = .ok a := by
  cases x <;> simp [Except.mapError]

/-- Checks the elements of a list, one after the other. -/
def each {α : Type} (check : α → Except ε Unit) : List α → Except ε Unit
  | [] => .ok ()
  | x :: xs => check x >>= fun _ => each check xs

theorem each_eq_ok {α : Type} {check : α → Except ε Unit} {xs : List α} {u : Unit} :
    each check xs = .ok u ↔ ∀ x ∈ xs, check x = .ok () := by
  induction xs with
  | nil => simp [each]
  | cons x xs ih =>
    rw [each, seq_eq_ok, ih, List.forall_mem_cons]

/-! ## A computation for each element -/

section MapM

variable {α β : Type}

theorem mapM_congr {m : Type → Type*} [Monad m] [LawfulMonad m] {f g : α → m β} {xs : List α}
    (h : ∀ x ∈ xs, f x = g x) : xs.mapM f = xs.mapM g := by
  induction xs with
  | nil => rfl
  | cons x xs ih =>
    obtain ⟨hx, hxs⟩ := List.forall_mem_cons.mp h
    rw [List.mapM_cons, List.mapM_cons, hx, ih hxs]

theorem mapM_ok {f : α → Except ε β} {xs : List α} (h : ∀ x ∈ xs, ∃ y, f x = .ok y) :
    ∃ ys, xs.mapM f = .ok ys := by
  induction xs with
  | nil => exact ⟨[], rfl⟩
  | cons x xs ih =>
    obtain ⟨⟨y, hy⟩, hxs⟩ := List.forall_mem_cons.mp h
    obtain ⟨ys, hys⟩ := ih hxs
    rw [List.mapM_cons, hy, hys]
    exact ⟨y :: ys, rfl⟩

/-- Each result is related to its element. -/
theorem mapM_related {f : α → Except ε β} {T : α → β → Prop} {xs : List α}
    (h : ∀ x ∈ xs, ∃ y, f x = .ok y ∧ T x y) :
    ∃ ys, xs.mapM f = .ok ys ∧ List.Forall₂ T xs ys := by
  induction xs with
  | nil => exact ⟨[], rfl, .nil⟩
  | cons x xs ih =>
    obtain ⟨⟨y, hy, hrelated⟩, hxs⟩ := List.forall_mem_cons.mp h
    obtain ⟨ys, hys, hall⟩ := ih hxs
    rw [List.mapM_cons, hy, hys]
    exact ⟨y :: ys, rfl, .cons hrelated hall⟩

theorem mem_of_mapM {f : α → Except ε β} {xs : List α} {y : β} :
    ∀ {ys : List β}, xs.mapM f = .ok ys → y ∈ ys → ∃ x ∈ xs, f x = .ok y := by
  induction xs with
  | nil =>
    rintro ys h hy
    cases h
    exact absurd hy List.not_mem_nil
  | cons x xs ih =>
    intro ys h hy
    rw [List.mapM_cons] at h
    obtain ⟨z, hz, h⟩ := bind_eq_ok.mp h
    obtain ⟨zs, hzs, h⟩ := bind_eq_ok.mp h
    cases h
    rcases List.mem_cons.mp hy with rfl | hy
    · exact ⟨x, List.mem_cons_self, hz⟩
    · obtain ⟨x', hx', hy⟩ := ih hzs hy
      exact ⟨x', List.mem_cons_of_mem x hx', hy⟩

theorem mem_of_mapM_some {f : α → Option β} {xs : List α} {y : β} :
    ∀ {ys : List β}, xs.mapM f = some ys → y ∈ ys → ∃ x ∈ xs, f x = some y := by
  induction xs with
  | nil =>
    rintro ys h hy
    cases h
    exact absurd hy List.not_mem_nil
  | cons x xs ih =>
    intro ys h hy
    rw [List.mapM_cons] at h
    obtain ⟨z, hz, h⟩ := Option.bind_eq_some_iff.mp h
    obtain ⟨zs, hzs, h⟩ := Option.bind_eq_some_iff.mp h
    cases h
    rcases List.mem_cons.mp hy with rfl | hy
    · exact ⟨x, List.mem_cons_self, hz⟩
    · obtain ⟨x', hx', hy⟩ := ih hzs hy
      exact ⟨x', List.mem_cons_of_mem x hx', hy⟩

theorem mapM_ok_iff {f : α → Except ε β} {xs : List α} :
    (∃ ys, xs.mapM f = .ok ys) ↔ ∀ x ∈ xs, ∃ y, f x = .ok y := by
  refine ⟨fun h => ?_, mapM_ok⟩
  induction xs with
  | nil => exact List.forall_mem_nil _
  | cons x xs ih =>
    obtain ⟨zs, h⟩ := h
    rw [List.mapM_cons] at h
    obtain ⟨y, hy, h⟩ := bind_eq_ok.mp h
    obtain ⟨ys, hys, -⟩ := bind_eq_ok.mp h
    exact List.forall_mem_cons.mpr ⟨⟨y, hy⟩, ih ⟨ys, hys⟩⟩

/-- A change of the results leaves the list as it is iff it leaves each of them. -/
theorem mapM_map_eq_iff {f : α → Except ε β} {g : β → β} {xs : List α}
    (h : ∀ x ∈ xs, ∃ y, f x = .ok y) :
    (xs.mapM fun x => (f x).map g) = xs.mapM f ↔ ∀ x ∈ xs, ∀ y, f x = .ok y → g y = y := by
  induction xs with
  | nil => simp
  | cons x xs ih =>
    obtain ⟨⟨y, hy⟩, hxs⟩ := List.forall_mem_cons.mp h
    obtain ⟨ys, hys⟩ := mapM_ok hxs
    obtain ⟨zs, hzs⟩ := mapM_ok (f := fun x => (f x).map g)
      fun x hx => (hxs x hx).imp' g fun y hy => by rw [hy]; rfl
    have hleft : ((x :: xs).mapM fun x => (f x).map g) = .ok (g y :: zs) := by
      rw [List.mapM_cons, hy, hzs]
      rfl
    have hright : (x :: xs).mapM f = .ok (y :: ys) := by
      rw [List.mapM_cons, hy, hys]
      rfl
    have ih := ih hxs
    rw [hys, hzs, Except.ok.injEq] at ih
    rw [hleft, hright, Except.ok.injEq, List.cons.injEq, List.forall_mem_cons, ih, hy]
    exact and_congr_left fun _ => ⟨fun hg z hz => Except.ok.inj hz ▸ hg, fun hall => hall y rfl⟩

end MapM

end ComponentKb.Lib
