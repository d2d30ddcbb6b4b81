import Mathlib.Data.List.Nodup

/-!
# Merging a list by key

The elements of a list are taken one after the other. One whose key is there already is joined to
the element with that key, and any other one is added at the end.

* `nodup_merge`, `mem_keys_merge`: one element is left for each key.
* **`exists_merge_iff`**: what the elements of a key hold is what the element left for it holds, if
  joining keeps the key and what both hold.
-/

namespace ComponentKb.Lib.Merging

variable {α κ β : Type*} [DecidableEq κ] (key : α → κ) (join : α → α → α)

/-- One more element. -/
def absorb : List α → α → List α
  | [], a => [a]
  | b :: merged, a => if key b = key a then join b a :: merged else b :: absorb merged a

/-- All elements. -/
def merge (xs : List α) : List α := xs.foldl (absorb key join) []

variable {key join} {xs merged : List α} {a : α} {k : κ} {x : β}

theorem keys_absorb (hkey : ∀ a b, key (join a b) = key a) :
    (absorb key join merged a).map key =
      if key a ∈ merged.map key then merged.map key else merged.map key ++ [key a] := by
  induction merged with
  | nil => rfl
  | cons b merged ih =>
    unfold absorb
    by_cases hb : key b = key a
    · rw [if_pos hb, List.map_cons, hkey, List.map_cons, if_pos]
      exact hb ▸ List.mem_cons_self
    · rw [if_neg hb, List.map_cons, ih, List.map_cons]
      by_cases ha : key a ∈ merged.map key
      · rw [if_pos ha, if_pos (List.mem_cons_of_mem _ ha)]
      · rw [if_neg ha, if_neg, List.cons_append]
        intro hmem
        rcases List.mem_cons.mp hmem with hkeys | hmem
        · exact hb hkeys.symm
        · exact ha hmem

theorem nodup_absorb (hkey : ∀ a b, key (join a b) = key a) (h : (merged.map key).Nodup) :
    ((absorb key join merged a).map key).Nodup := by
  rw [keys_absorb hkey]
  split
  · exact h
  · rename_i ha
    refine h.append (List.nodup_singleton _) fun k hk hk' => ?_
    rw [List.mem_singleton.mp hk'] at hk
    exact ha hk

theorem exists_absorb_iff (holds : α → β → Prop) (hkey : ∀ a b, key (join a b) = key a)
    (hjoin : ∀ a b, key a = key b → ∀ x, holds (join a b) x ↔ holds a x ∨ holds b x) :
    (∃ m ∈ absorb key join merged a, key m = k ∧ holds m x) ↔
      (∃ m ∈ merged, key m = k ∧ holds m x) ∨ (key a = k ∧ holds a x) := by
  induction merged with
  | nil => simp [absorb]
  | cons b merged ih =>
    unfold absorb
    by_cases hb : key b = key a
    · rw [if_pos hb, List.exists_mem_cons_iff, List.exists_mem_cons_iff, hkey, hjoin b a hb, hb]
      rw [and_or_left, or_assoc, or_assoc]
      exact or_congr_right or_comm
    · rw [if_neg hb, List.exists_mem_cons_iff, List.exists_mem_cons_iff, ih, or_assoc]

/-- **What the elements of a key hold, the one that is left holds.** -/
theorem exists_merge_iff (holds : α → β → Prop) (hkey : ∀ a b, key (join a b) = key a)
    (hjoin : ∀ a b, key a = key b → ∀ x, holds (join a b) x ↔ holds a x ∨ holds b x) :
    (∃ m ∈ merge key join xs, key m = k ∧ holds m x) ↔ ∃ a ∈ xs, key a = k ∧ holds a x := by
  -- with what was merged before in front, for the induction
  suffices h : ∀ before, (∃ m ∈ xs.foldl (absorb key join) before, key m = k ∧ holds m x) ↔
      (∃ m ∈ before, key m = k ∧ holds m x) ∨ ∃ a ∈ xs, key a = k ∧ holds a x by
    unfold merge
    simpa using h []
  induction xs with
  | nil => simp
  | cons a xs ih =>
    intro before
    rw [List.foldl_cons, ih, exists_absorb_iff holds hkey hjoin, List.exists_mem_cons_iff, or_assoc]

theorem nodup_merge (hkey : ∀ a b, key (join a b) = key a) (xs : List α) :
    ((merge key join xs).map key).Nodup := by
  unfold merge
  suffices h : ∀ before : List α, (before.map key).Nodup →
      ((xs.foldl (absorb key join) before).map key).Nodup from h [] List.nodup_nil
  induction xs with
  | nil => exact fun _ => id
  | cons a xs ih => exact fun before h => ih _ (nodup_absorb hkey h)

theorem mem_keys_merge (hkey : ∀ a b, key (join a b) = key a) :
    k ∈ (merge key join xs).map key ↔ k ∈ xs.map key := by
  have hiff : (∃ m ∈ merge key join xs, key m = k ∧ True) ↔ ∃ a ∈ xs, key a = k ∧ True :=
    exists_merge_iff (fun _ (_ : Unit) => True) hkey (fun _ _ _ _ => or_self_iff.symm) (x := ())
  simpa using hiff

end ComponentKb.Lib.Merging
