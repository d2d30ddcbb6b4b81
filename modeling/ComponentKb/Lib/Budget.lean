import ComponentKb.Lib.Runs
import Mathlib.Order.Basic

/-!
# Budgets and leases over runs

Two accounts that the state of a system keeps of its own run. A counter that some steps spend from
and others refill tells how often the run spent since it was last refilled. A stamp that a step
either leaves or sets to its own time is never older than the run it was made in.

* `spentSince_eq`: the counter is the number of steps that spent.
* `stamp_le`: no step of the run sets the stamp back.
-/

namespace ComponentKb.Lib

variable {σ ε : Type*} {step : σ → ε → Option σ}

section Budget

variable {spends refills : σ → ε → Bool} {count : σ → ℕ}

/-- How many steps of the run spent since the last one that refilled, with `n` before the run. -/
def spentSince (step : σ → ε → Option σ) (spends refills : σ → ε → Bool) (n : ℕ) (s : σ) :
    List ε → ℕ
  | [] => n
  | e :: es =>
    match step s e with
    | none => n
    | some s' =>
      spentSince step spends refills
        (if refills s e then 0 else if spends s e then n + 1 else n) s' es

/-- The counter keeps the account of a step. -/
def Accounts (spends refills : σ → ε → Bool) (count : σ → ℕ) (s : σ) (e : ε) (s' : σ) : Prop :=
  count s' = if refills s e then 0 else if spends s e then count s + 1 else count s

/-- **The counter is the account.** -/
theorem spentSince_eq {s t : σ} {es : List ε} (h : Along step (Accounts spends refills count) s es)
    (hrun : run step s es = some t) :
    spentSince step spends refills (count s) s es = count t := by
  induction es generalizing s with
  | nil => exact congrArg count (Option.some.inj hrun)
  | cons e es ih =>
    obtain ⟨s', hs, hrest⟩ := run_cons_eq_some.mp hrun
    obtain ⟨haccount, halong⟩ := (along_cons hs).mp h
    rw [spentSince, hs, ← ih halong hrest, haccount]

end Budget

section Lease

variable {τ : Type*} [Preorder τ] {stamp : σ → Option τ} {time : ε → τ}

/-- A step leaves the stamp, or sets it to its own time. -/
def Stamps (stamp : σ → Option τ) (time : ε → τ) (s : σ) (e : ε) (s' : σ) : Prop :=
  stamp s' = stamp s ∨ stamp s' = some (time e)

/-- **A stamp is not set back.** -/
theorem stamp_le {s t : σ} {es : List ε} {first : τ} (h : Along step (Stamps stamp time) s es)
    (htimes : ∀ e ∈ es, first ≤ time e) (hfirst : stamp s = some first)
    (hrun : run step s es = some t) : ∃ last, stamp t = some last ∧ first ≤ last := by
  have hinv : ∀ a e b, (∃ x, stamp a = some x ∧ first ≤ x) →
      (Stamps stamp time a e b ∧ first ≤ time e) → step a e = some b →
      ∃ x, stamp b = some x ∧ first ≤ x := by
    rintro a e b ⟨x, hx, hle⟩ ⟨hstamp | hstamp, he⟩ -
    · exact ⟨x, hstamp.trans hx, hle⟩
    · exact ⟨time e, hstamp, he⟩
  exact run_inv hinv ⟨first, hfirst, le_refl first⟩
    (along_and.mpr ⟨h, along_of_mem htimes s⟩) hrun

end Lease

end ComponentKb.Lib
