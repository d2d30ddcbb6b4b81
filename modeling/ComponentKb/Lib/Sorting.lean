import Mathlib

/-!
# Sorting and counting by a key

* `sortBy_congr`: a list whose keys differ is sorted the same way in whatever order it comes.
* `sum_tally`: the classes of a list are counted without rest.
-/

namespace ComponentKb.Lib.Sorting

variable {α κ : Type*}

section Sorted

variable [LinearOrder κ] {key : α → κ} {xs ys : List α}

/-- `sorted(xs, key=key)`. -/
def sortBy (key : α → κ) (xs : List α) : List α := xs.insertionSort fun a b => key a ≤ key b

theorem sortBy_perm (key : α → κ) (xs : List α) : (sortBy key xs).Perm xs :=
  List.perm_insertionSort _ xs

@[simp] theorem mem_sortBy {a : α} : a ∈ sortBy key xs ↔ a ∈ xs := (sortBy_perm key xs).mem_iff

theorem sortBy_pairwise (key : α → κ) (xs : List α) :
    (sortBy key xs).Pairwise fun a b => key a ≤ key b := by
  have htotal : Std.Total fun a b : α => key a ≤ key b := ⟨fun a b => le_total (key a) (key b)⟩
  have htrans : IsTrans α fun a b : α => key a ≤ key b := ⟨fun _ _ _ => le_trans⟩
  exact List.pairwise_insertionSort _ xs

/-- The order in which a list comes does not matter, if its keys differ. -/
theorem sortBy_congr (h : xs.Perm ys) (hkeys : (xs.map key).Nodup) :
    sortBy key xs = sortBy key ys := by
  have hperm : (sortBy key xs).Perm (sortBy key ys) :=
    (sortBy_perm key xs).trans (h.trans (sortBy_perm key ys).symm)
  refine hperm.eq_of_pairwise ?_ (sortBy_pairwise key xs) (sortBy_pairwise key ys)
  intro a b ha hb hab hba
  exact List.inj_on_of_nodup_map hkeys (mem_sortBy.mp ha)
    (h.mem_iff.mpr (mem_sortBy.mp hb)) (le_antisymm hab hba)

theorem sortBy_eq_self (h : xs.Pairwise fun a b => key a ≤ key b) : sortBy key xs = xs := by
  have htotal : Std.Total fun a b : α => key a ≤ key b := ⟨fun a b => le_total (key a) (key b)⟩
  have htrans : IsTrans α fun a b : α => key a ≤ key b := ⟨fun _ _ _ => le_trans⟩
  exact List.Pairwise.insertionSort_eq h

/-- The keys of a sorted list are sorted. -/
theorem map_key_sortBy (key : α → κ) (xs : List α) :
    (sortBy key xs).map key = sortBy id ((sortBy key xs).map key) := by
  have hsorted : ((sortBy key xs).map key).Pairwise fun a b => id a ≤ id b :=
    List.pairwise_map.mpr (sortBy_pairwise key xs)
  exact (sortBy_eq_self hsorted).symm

/-- Two lists in the order of keys that differ are the same if they have the same elements. -/
theorem eq_of_sorted (hx : (xs.map key).Nodup) (hy : (ys.map key).Nodup)
    (hxs : xs.map key = sortBy id (xs.map key)) (hys : ys.map key = sortBy id (ys.map key))
    (h : ∀ a, a ∈ xs ↔ a ∈ ys) : xs = ys := by
  have hsorted : ∀ zs : List α, zs.map key = sortBy id (zs.map key) →
      zs.Pairwise fun a b => key a ≤ key b := by
    intro zs hzs
    have hpairwise := sortBy_pairwise id (zs.map key)
    rw [← hzs] at hpairwise
    exact List.pairwise_map.mp hpairwise
  have hperm : xs.Perm ys := (List.perm_ext_iff_of_nodup hx.of_map hy.of_map).mpr h
  rw [← sortBy_eq_self (hsorted xs hxs), ← sortBy_eq_self (hsorted ys hys)]
  exact sortBy_congr hperm hx

end Sorted

section Tally

variable [DecidableEq κ] {classOf : α → κ} {classes : List κ}

/-- How many of a list are in a class. -/
def tally (classOf : α → κ) (xs : List α) (k : κ) : Nat := (xs.filter fun x => classOf x = k).length

theorem tally_perm {xs ys : List α} (h : xs.Perm ys) (k : κ) :
    tally classOf xs k = tally classOf ys k := (h.filter _).length_eq

theorem sum_indicator {k : κ} (hclasses : classes.Nodup) (h : k ∈ classes) :
    (classes.map fun c => if k = c then 1 else 0).sum = 1 := by
  induction classes with
  | nil => cases h
  | cons c classes ih =>
    obtain ⟨hfresh, hclasses⟩ := List.nodup_cons.mp hclasses
    rw [List.map_cons, List.sum_cons]
    by_cases hk : k = c
    · have hnone : (classes.map fun c => if k = c then 1 else 0).sum = 0 := by
        rw [List.sum_eq_zero]
        intro n hn
        obtain ⟨d, hd, rfl⟩ := List.mem_map.mp hn
        rw [if_neg]
        rintro rfl
        exact hfresh (hk ▸ hd)
      rw [if_pos hk, hnone]
    · rw [if_neg hk, ih hclasses ((List.mem_cons.mp h).resolve_left hk)]

/-- **Every element is counted once.** -/
theorem sum_tally (hclasses : classes.Nodup) {xs : List α} (h : ∀ x ∈ xs, classOf x ∈ classes) :
    (classes.map (tally classOf xs)).sum = xs.length := by
  induction xs with
  | nil =>
    rw [List.sum_eq_zero]
    · rfl
    · intro n hn
      obtain ⟨k, -, rfl⟩ := List.mem_map.mp hn
      rfl
  | cons x xs ih =>
    have hrest := ih fun y hy => h y (List.mem_cons_of_mem x hy)
    have hstep : tally classOf (x :: xs) =
        fun k => (if classOf x = k then 1 else 0) + tally classOf xs k := by
      funext k
      unfold tally
      rw [List.filter_cons]
      by_cases hk : classOf x = k
      · simp [hk, Nat.add_comm]
      · simp [hk]
    rw [hstep, List.sum_map_add, sum_indicator hclasses (h x List.mem_cons_self), hrest,
      List.length_cons, Nat.add_comm]

/-- A group of elements in the class of its name is all of that class. -/
theorem tally_flatMap {β : Type*} {name : β → κ} {members : β → List α} {groups : List β}
    (hnames : (groups.map name).Nodup) (h : ∀ g ∈ groups, ∀ x ∈ members g, classOf x = name g)
    {g : β} (hg : g ∈ groups) :
    tally classOf (groups.flatMap members) (name g) = (members g).length := by
  have hnone : ∀ d ∈ groups, name d ≠ name g → (members d).filter (classOf · = name g) = [] := by
    intro d hd hne
    refine List.filter_eq_nil_iff.mpr fun x hx => ?_
    rw [h d hd x hx]
    simpa using hne
  have hall : (members g).filter (classOf · = name g) = members g :=
    List.filter_eq_self.mpr fun x hx => by simp [h g hg x hx]
  unfold tally
  clear h
  induction groups with
  | nil => cases hg
  | cons d groups ih =>
    obtain ⟨hfresh, hrest⟩ := List.nodup_cons.mp hnames
    rw [List.flatMap_cons, List.filter_append, List.length_append]
    rcases List.mem_cons.mp hg with rfl | hg
    · have hothers : (groups.flatMap members).filter (classOf · = name g) = [] := by
        rw [List.filter_flatMap, List.flatMap_eq_nil_iff]
        intro d hd
        refine hnone d (List.mem_cons_of_mem g hd) fun hsame => hfresh ?_
        exact hsame ▸ List.mem_map_of_mem hd
      rw [hall, hothers, List.length_nil, Nat.add_zero]
    · have hother : name d ≠ name g := fun hsame =>
        hfresh (hsame ▸ List.mem_map_of_mem hg)
      rw [hnone d List.mem_cons_self hother, List.length_nil, Nat.zero_add]
      exact ih hrest hg fun e he => hnone e (List.mem_cons_of_mem d he)

end Tally

end ComponentKb.Lib.Sorting
