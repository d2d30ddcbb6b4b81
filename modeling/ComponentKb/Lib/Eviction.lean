import Mathlib.Data.List.Perm.Subperm
import Mathlib.Logic.Function.Basic
import Mathlib.Tactic.Common

/-!
# Entries that are evicted

A store of entries under keys, the order in which it enumerates them, and a loop that removes the
first keys of a list until fewer than a limit are left.

* `evict_apply`: the loop removes the victims, and nothing else.
* `length_survivors`: fewer than the limit are left.
-/

namespace ComponentKb.Lib.Eviction

variable {κ ν : Type*}

/-- Entries under keys. -/
abbrev Store (κ ν : Type*) := κ → Option ν

/-- The keys of a store, in some order. -/
structure Enumerates (keys : List κ) (store : Store κ ν) : Prop where
  nodup : keys.Nodup
  mem : ∀ k, k ∈ keys ↔ store k ≠ none

/-! ## Victims and survivors -/

section Lists

variable {keys : List κ} {k : κ} {limit : Nat}

/-- The keys that `evict` removes. -/
def victims (limit : Nat) (keys : List κ) : List κ := keys.take (keys.length + 1 - limit)

/-- The keys that `evict` leaves. -/
def survivors (limit : Nat) (keys : List κ) : List κ := keys.drop (keys.length + 1 - limit)

theorem victims_append_survivors (limit : Nat) (keys : List κ) :
    victims limit keys ++ survivors limit keys = keys := List.take_append_drop _ keys

theorem length_survivors (h : 0 < limit) : (survivors limit keys).length < limit := by
  rw [survivors, List.length_drop]
  omega

theorem mem_keys : k ∈ keys ↔ k ∈ victims limit keys ∨ k ∈ survivors limit keys := by
  conv_lhs => rw [← victims_append_survivors limit keys]
  exact List.mem_append

theorem disjoint_victims (h : keys.Nodup) (hk : k ∈ victims limit keys) :
    k ∉ survivors limit keys := by
  rw [← victims_append_survivors limit keys] at h
  exact fun hs => (List.nodup_append.mp h).2.2 k hk k hs rfl

theorem victims_eq_nil (h : keys.length < limit) : victims limit keys = [] := by
  rw [victims, show keys.length + 1 - limit = 0 by omega, List.take_zero]

theorem victims_ne_nil (hlimit : 0 < limit) (h : limit ≤ keys.length) :
    victims limit keys ≠ [] := by
  intro hnil
  have hlength := congrArg List.length hnil
  rw [victims, List.length_take, List.length_nil] at hlength
  omega

end Lists

/-! ## The loop -/

variable [DecidableEq κ]

def set (store : Store κ ν) (key : κ) (value : ν) : Store κ ν := Function.update store key (some value)

def remove (store : Store κ ν) (key : κ) : Store κ ν := Function.update store key none

/-- Removes keys from the front of a list while it has `limit` or more. -/
def evict (limit : Nat) : List κ → Store κ ν → Store κ ν
  | [], store => store
  | k :: keys, store =>
    if limit ≤ (k :: keys).length then evict limit keys (remove store k) else store

variable {store : Store κ ν} {key k : κ}

@[simp] theorem set_self (value : ν) : set store key value key = some value :=
  Function.update_self ..

theorem set_of_ne (value : ν) (h : k ≠ key) : set store key value k = store k :=
  Function.update_of_ne h ..

@[simp] theorem remove_self : remove store key key = none := Function.update_self ..

theorem remove_of_ne (h : k ≠ key) : remove store key k = store k := Function.update_of_ne h ..

theorem foldl_remove (keys : List κ) (store : Store κ ν) (k : κ) :
    keys.foldl remove store k = if k ∈ keys then none else store k := by
  induction keys generalizing store with
  | nil => rfl
  | cons key keys ih =>
    rw [List.foldl_cons, ih]
    by_cases hk : k = key
    · simp [hk]
    · simp [hk, remove_of_ne hk]

/-- **The loop removes the victims, and nothing else.** -/
theorem evict_apply (limit : Nat) (keys : List κ) (store : Store κ ν) (k : κ) :
    evict limit keys store k = if k ∈ victims limit keys then none else store k := by
  induction keys generalizing store with
  | nil => simp [evict, victims]
  | cons key keys ih =>
    rw [evict]
    by_cases hfull : limit ≤ (key :: keys).length
    · have hvictims : victims limit (key :: keys) = key :: victims limit keys := by
        rw [List.length_cons] at hfull
        rw [victims, victims, List.length_cons,
          show keys.length + 1 + 1 - limit = (keys.length + 1 - limit) + 1 by omega,
          List.take_succ_cons]
      rw [if_pos hfull, ih, hvictims]
      by_cases hk : k = key
      · simp [hk]
      · simp [hk, remove_of_ne hk]
    · have hvictims : victims limit (key :: keys) = [] := by
        rw [victims, show (key :: keys).length + 1 - limit = 0 by omega, List.take_zero]
      rw [if_neg hfull, hvictims]
      simp

end ComponentKb.Lib.Eviction
