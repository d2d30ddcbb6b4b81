import Mathlib.Data.List.Nodup
import Mathlib.Tactic.Common

/-!
# Tables as lists of rows

A table is the list of its rows in the order they were inserted, and a row is found by its key.
`replace` is an `UPDATE` of the row with a key, `remove` a `DELETE`.

* `lookup_replace`, `lookup_append`, `lookup_map`, `lookup_remove`: what a later `SELECT` by key finds.
* `mem_replace`, `map_key_replace`: what a later `SELECT` by anything else finds.
-/

namespace ComponentKb.Lib

variable {α κ : Type*} [DecidableEq κ] {key : α → κ} {rows : List α} {k : κ}

/-- The row with a key. -/
def lookup (key : α → κ) (rows : List α) (k : κ) : Option α :=
  rows.find? fun row => key row = k

/-- The table with the row of `new`'s key replaced by `new`. -/
def replace (key : α → κ) (rows : List α) (new : α) : List α :=
  rows.map fun row => if key row = key new then new else row

/-- The table without the row with a key. -/
def remove (key : α → κ) (rows : List α) (k : κ) : List α :=
  rows.filter fun row => key row ≠ k

theorem mem_of_lookup {row : α} (h : lookup key rows k = some row) : row ∈ rows :=
  List.mem_of_find?_eq_some h

theorem key_of_lookup {row : α} (h : lookup key rows k = some row) : key row = k := by
  simpa using List.find?_some h

theorem lookup_eq_none : lookup key rows k = none ↔ ∀ row ∈ rows, key row ≠ k := by
  simp [lookup]

theorem lookup_isSome : (lookup key rows k).isSome ↔ ∃ row ∈ rows, key row = k := by
  rw [← Option.ne_none_iff_isSome, ne_eq, lookup_eq_none]
  simp

/-- A row is the one that its key finds where no two rows have the same. -/
theorem lookup_of_mem (hnodup : (rows.map key).Nodup) {row : α} (h : row ∈ rows) :
    lookup key rows (key row) = some row := by
  have hsome : (lookup key rows (key row)).isSome := lookup_isSome.mpr ⟨row, h, rfl⟩
  obtain ⟨found, hfound⟩ := Option.isSome_iff_exists.mp hsome
  rw [hfound]
  exact congrArg some
    (List.inj_on_of_nodup_map hnodup (mem_of_lookup hfound) h (key_of_lookup hfound))

theorem lookup_nil : lookup key ([] : List α) k = none := rfl

theorem lookup_cons (row : α) (rows : List α) (k : κ) :
    lookup key (row :: rows) k = if key row = k then some row else lookup key rows k := by
  unfold lookup
  by_cases h : key row = k
  · rw [List.find?_cons_of_pos (by simpa using h), if_pos h]
  · rw [List.find?_cons_of_neg (by simpa using h), if_neg h]

theorem lookup_append (new : α) :
    lookup key (rows ++ [new]) k =
      (lookup key rows k).or (if key new = k then some new else none) := by
  induction rows with
  | nil =>
    rw [List.nil_append, lookup_cons, lookup_nil, Option.none_or]
  | cons row rows ih =>
    rw [List.cons_append, lookup_cons, lookup_cons, ih]
    by_cases h : key row = k
    · rw [if_pos h, if_pos h, Option.some_or]
    · rw [if_neg h, if_neg h]

/-- An update changes what is found under the key of the new row only. -/
theorem lookup_replace (new : α) :
    lookup key (replace key rows new) k =
      if key new = k then (lookup key rows k).map fun _ => new else lookup key rows k := by
  induction rows with
  | nil => simp [replace, lookup]
  | cons row rows ih =>
    rw [replace, List.map_cons, lookup_cons, lookup_cons]
    rw [replace] at ih
    rw [ih]
    by_cases hrow : key row = key new
    · rw [if_pos hrow, hrow]
      by_cases hk : key new = k
      · rw [if_pos hk, if_pos hk, if_pos hk, Option.map_some]
      · rw [if_neg hk, if_neg hk, if_neg hk, if_neg hk]
    · rw [if_neg hrow]
      by_cases hk : key new = k
      · have hne : key row ≠ k := fun h => hrow (h.trans hk.symm)
        rw [if_pos hk, if_neg hne, if_pos hk, if_neg hne]
      · rw [if_neg hk, if_neg hk]

/-- A row that is found is found in a longer table. -/
theorem lookup_append_of_isSome {new : α} (h : (lookup key rows k).isSome) :
    lookup key (rows ++ [new]) k = lookup key rows k := by
  obtain ⟨row, hrow⟩ := Option.isSome_iff_exists.mp h
  rw [lookup_append, hrow, Option.some_or]

theorem lookup_replace_self {old : α} {new : α} (h : lookup key rows (key new) = some old) :
    lookup key (replace key rows new) (key new) = some new := by
  rw [lookup_replace, if_pos rfl, h, Option.map_some]

theorem lookup_replace_ne {new : α} (h : key new ≠ k) :
    lookup key (replace key rows new) k = lookup key rows k := by
  rw [lookup_replace, if_neg h]

/-- An update or a view of all rows that keeps their keys. -/
theorem lookup_map {β : Type*} {key' : β → κ} {f : α → β} (h : ∀ row, key' (f row) = key row) :
    lookup key' (rows.map f) k = (lookup key rows k).map f := by
  induction rows with
  | nil => rfl
  | cons row rows ih =>
    rw [List.map_cons, lookup_cons, lookup_cons, h, ih]
    by_cases hk : key row = k
    · rw [if_pos hk, if_pos hk, Option.map_some]
    · rw [if_neg hk, if_neg hk]

theorem lookup_remove (k' : κ) :
    lookup key (remove key rows k) k' = if k = k' then none else lookup key rows k' := by
  induction rows with
  | nil => simp [remove, lookup]
  | cons row rows ih =>
    rw [remove] at ih ⊢
    by_cases hrow : key row = k
    · rw [List.filter_cons_of_neg (by simpa using hrow), ih, lookup_cons]
      by_cases hk : k = k'
      · rw [if_pos hk, if_pos hk]
      · rw [if_neg hk, if_neg hk, if_neg fun h => hk (hrow.symm.trans h)]
    · rw [List.filter_cons_of_pos (by simpa using hrow), lookup_cons, ih, lookup_cons]
      by_cases hk : k = k'
      · rw [if_pos hk, if_pos hk, if_neg fun h => hrow (h.trans hk.symm)]
      · rw [if_neg hk, if_neg hk]

theorem mem_replace {new row : α} (h : row ∈ replace key rows new) : row = new ∨ row ∈ rows := by
  obtain ⟨old, hold, rfl⟩ := List.mem_map.mp h
  split
  · exact Or.inl rfl
  · exact Or.inr hold

theorem mem_replace_of_ne {new row : α} (h : row ∈ rows) (hne : key row ≠ key new) :
    row ∈ replace key rows new :=
  List.mem_map.mpr ⟨row, h, if_neg hne⟩

/-- The second of two updates of a row is the one that stays. -/
theorem replace_replace {a b : α} (h : key a = key b) :
    replace key (replace key rows a) b = replace key rows b := by
  unfold replace
  rw [List.map_map]
  refine List.map_congr_left fun row _ => ?_
  by_cases hrow : key row = key b
  · rw [Function.comp_apply, if_pos (hrow.trans h.symm), if_pos h, if_pos hrow]
  · have hne : key row ≠ key a := fun hra => hrow (hra.trans h)
    rw [Function.comp_apply, if_neg hne, if_neg hrow]

theorem map_key_replace (new : α) : (replace key rows new).map key = rows.map key := by
  rw [replace, List.map_map]
  refine List.map_congr_left fun row _ => ?_
  by_cases h : key row = key new
  · simp [h]
  · simp [h]

/-- When no key occurs twice, an `UPDATE` changes one row in its place. -/
theorem replace_split (hnodup : (rows.map key).Nodup) {old new : α}
    (h : lookup key rows (key new) = some old) :
    ∃ front back, rows = front ++ old :: back ∧ replace key rows new = front ++ new :: back := by
  obtain ⟨front, back, rfl⟩ := List.append_of_mem (mem_of_lookup h)
  have hkey := key_of_lookup h
  rw [List.map_append, List.map_cons, List.nodup_middle, List.nodup_cons, List.mem_append] at hnodup
  obtain ⟨hother, -⟩ := hnodup
  have hkept : ∀ part : List α, key old ∉ part.map key → replace key part new = part := by
    intro part hnot
    unfold replace
    refine (List.map_congr_left fun row hrow => if_neg fun heq => hnot ?_).trans (List.map_id part)
    rw [hkey, ← heq]
    exact List.mem_map_of_mem hrow
  refine ⟨front, back, rfl, ?_⟩
  have hsplit : replace key (front ++ old :: back) new =
      replace key front new ++ new :: replace key back new := by
    unfold replace
    rw [List.map_append, List.map_cons, if_pos hkey]
  rw [hsplit, hkept front fun hmem => hother (Or.inl hmem),
    hkept back fun hmem => hother (Or.inr hmem)]

/-- A view of the rows after an update of one of them that the view follows. -/
theorem map_replace {β : Type*} {f : α → β} {g : β → β} (hnodup : (rows.map key).Nodup)
    {old new : α} (h : lookup key rows (key new) = some old) (hg : f new = g (f old)) :
    (replace key rows new).map f =
      rows.map fun row => if key row = key new then g (f row) else f row := by
  rw [replace, List.map_map]
  refine List.map_congr_left fun row hrow => ?_
  by_cases hkey : key row = key new
  · have hold : row = old := List.inj_on_of_nodup_map hnodup hrow (mem_of_lookup h)
      (hkey.trans (key_of_lookup h).symm)
    rw [Function.comp_apply, if_pos hkey, if_pos hkey, hg, hold]
  · rw [Function.comp_apply, if_neg hkey, if_neg hkey]

/-- How many rows have a property, after an update of one of them. -/
theorem countP_replace {p : α → Bool} (hnodup : (rows.map key).Nodup) {old new : α}
    (h : lookup key rows (key new) = some old) :
    (replace key rows new).countP p + (if p old then 1 else 0) =
      rows.countP p + (if p new then 1 else 0) := by
  obtain ⟨front, back, hrows, hreplace⟩ := replace_split hnodup h
  rw [hreplace, hrows, List.countP_append, List.countP_append, List.countP_cons, List.countP_cons]
  omega

end ComponentKb.Lib
