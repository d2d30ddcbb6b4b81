import ComponentKb.Lib.Table
import Mathlib.Data.List.Induction
import Mathlib.Data.List.Sort

/-!
# One query for many owners

Rows that belong to owners are read in a batch: one query selects the rows of all the owners wanted,
sorted by owner and then in the order that the rows of one owner have, and a dictionary collects
them by owner. What the dictionary holds for an owner is what a query for that owner alone finds.

* `filter_insertionSort`: a stable sort of a part is the part of the stable sort.
* `entry_collect`: the dictionary holds, for each key, its values in the order they came.
* `entry_keyed`, `entry_transform`: what is made of the rows on the way into the dictionary.
* **`entry_select`**: the batch agrees with the query for one owner.
* `lookup_dictionary`: a dictionary of single values holds, for each key, the last that came.
* `firsts`: the first row of each key, in the order they came; `firsts_flatMap` finds the values that
  a join repeats once each.
-/

namespace ComponentKb.Lib.Batch

variable {σ κ α : Type*}

/-! ## Sorting a part -/

section Sorting

variable {r : α → α → Prop} [DecidableRel r] [IsTrans α r]

theorem filter_orderedInsert {p : α → Bool} (a : α) {xs : List α} (hsorted : xs.Pairwise r) :
    (xs.orderedInsert r a).filter p =
      if p a then (xs.filter p).orderedInsert r a else xs.filter p := by
  induction xs with
  | nil => by_cases hp : p a <;> simp [hp]
  | cons b xs ih =>
    obtain ⟨hb, hxs⟩ := List.pairwise_cons.mp hsorted
    by_cases hab : r a b
    · rw [List.orderedInsert_cons_of_le r xs hab]
      by_cases hp : p a
      · rw [List.filter_cons_of_pos hp, if_pos hp]
        -- everything that is left after the filter is above `b`, so above `a`
        have hall : ∀ c ∈ (b :: xs).filter p, r a c := by
          intro c hc
          rcases List.mem_cons.mp (List.mem_filter.mp hc).1 with rfl | hc
          · exact hab
          · exact IsTrans.trans a b c hab (hb c hc)
        cases hfilter : (b :: xs).filter p with
        | nil => rfl
        | cons c cs =>
          rw [hfilter] at hall
          rw [List.orderedInsert_cons_of_le r cs (hall c List.mem_cons_self)]
      · rw [List.filter_cons_of_neg hp, if_neg hp]
    · rw [List.orderedInsert_of_not_le r xs hab]
      by_cases hpb : p b
      · rw [List.filter_cons_of_pos hpb, List.filter_cons_of_pos hpb, ih hxs]
        by_cases hp : p a
        · rw [if_pos hp, if_pos hp, List.orderedInsert_of_not_le r _ hab]
        · rw [if_neg hp, if_neg hp]
      · rw [List.filter_cons_of_neg hpb, List.filter_cons_of_neg hpb, ih hxs]

/-- **A stable sort of a part is the part of the stable sort.** -/
theorem filter_insertionSort [Std.Total r] (p : α → Bool) (xs : List α) :
    (xs.insertionSort r).filter p = (xs.filter p).insertionSort r := by
  induction xs with
  | nil => rfl
  | cons a xs ih =>
    rw [List.insertionSort_cons, filter_orderedInsert a (List.pairwise_insertionSort r xs), ih]
    by_cases hp : p a
    · rw [if_pos hp, List.filter_cons_of_pos hp, List.insertionSort_cons]
    · rw [if_neg hp, List.filter_cons_of_neg hp]

/-- `ORDER BY f`. -/
def sortedBy {ι : Type*} [LE ι] (f : α → ι) (a b : α) : Prop := f a ≤ f b

section SortedBy

variable {ι : Type*} [LinearOrder ι] (f : α → ι)

instance : DecidableRel (sortedBy f) := fun _ _ => inferInstanceAs (Decidable (_ ≤ _))

instance : Std.Total (sortedBy f) := ⟨fun a b => le_total (f a) (f b)⟩

instance : IsTrans α (sortedBy f) := ⟨fun _ _ _ hab hbc => le_trans hab hbc⟩

end SortedBy

/-- Rows that are numbered in their order are sorted by their numbers. -/
theorem sorted_zipIdx (xs : List α) : xs.zipIdx.Pairwise (sortedBy Prod.snd) := by
  have hsnd : (xs.zipIdx.map Prod.snd).Pairwise (· ≤ ·) := by
    rw [List.zipIdx_map_snd]
    exact List.pairwise_le_range'
  rw [List.pairwise_map] at hsnd
  exact hsnd

end Sorting

/-! ## Tables, queries and dictionaries -/

section Dictionary

variable [DecidableEq κ]

/-- The rows of all owners, each with the key of its owner. -/
def table (key : σ → κ) (rows : σ → List α) (owners : List σ) : List (κ × α) :=
  owners.flatMap fun owner => (rows owner).map fun row => (key owner, row)

/-- `groups.setdefault(key, []).append(value)`. -/
def append (groups : List (κ × List α)) (row : κ × α) : List (κ × List α) :=
  match lookup Prod.fst groups row.1 with
  | some group => replace Prod.fst groups (row.1, group.2 ++ [row.2])
  | none => groups ++ [(row.1, [row.2])]

/-- The dictionary of rows by key. -/
def collect (rows : List (κ × α)) : List (κ × List α) := rows.foldl append []

/-- `groups.get(key, ())`. -/
def entry (groups : List (κ × List α)) (key : κ) : List α :=
  ((lookup Prod.fst groups key).map Prod.snd).getD []

theorem entry_append (groups : List (κ × List α)) (row : κ × α) (key : κ) :
    entry (append groups row) key =
      if row.1 = key then entry groups key ++ [row.2] else entry groups key := by
  unfold append entry
  cases hfound : lookup Prod.fst groups row.1 with
  | none =>
    simp only
    rw [lookup_append]
    by_cases hkey : row.1 = key
    · rw [if_pos hkey, if_pos hkey, ← hkey, hfound]
      rfl
    · rw [if_neg hkey, if_neg hkey, Option.or_none]
  | some group =>
    simp only
    rw [lookup_replace]
    by_cases hkey : row.1 = key
    · rw [if_pos hkey, if_pos hkey, ← hkey, hfound]
      rfl
    · rw [if_neg hkey, if_neg hkey]

/-- A dictionary holds, for each key, its values in the order they came. -/
theorem entry_collect (rows : List (κ × α)) (key : κ) :
    entry (collect rows) key = (rows.filter fun row => row.1 = key).map Prod.snd := by
  have hfrom : ∀ (rows : List (κ × α)) (groups : List (κ × List α)),
      entry (rows.foldl append groups) key =
        entry groups key ++ (rows.filter fun row => row.1 = key).map Prod.snd := by
    intro rows
    induction rows with
    | nil =>
      intro groups
      exact (List.append_nil _).symm
    | cons row rows ih =>
      intro groups
      rw [List.foldl_cons, ih, entry_append]
      by_cases hkey : row.1 = key
      · rw [if_pos hkey, List.filter_cons_of_pos (by simpa using hkey), List.map_cons,
          List.append_assoc, List.singleton_append]
      · rw [if_neg hkey, List.filter_cons_of_neg (by simpa using hkey)]
  exact hfrom rows []

/-- What is made of the rows, under a key that a row has; a row of which nothing is made is passed
over. -/
def keyed {β ρ : Type*} (key : ρ → κ) (value : ρ → Option β) (rows : List ρ) : List (κ × β) :=
  rows.filterMap fun row => (value row).map fun made => (key row, made)

theorem entry_keyed {β ρ : Type*} (key : ρ → κ) (value : ρ → Option β) (rows : List ρ) (k : κ) :
    entry (collect (keyed key value rows)) k =
      (rows.filter fun row => key row = k).filterMap value := by
  rw [entry_collect, keyed]
  induction rows with
  | nil => rfl
  | cons row rows ih =>
    cases hvalue : value row with
    | none =>
      rw [List.filterMap_cons_none (by rw [hvalue]; rfl), ih]
      by_cases hkey : key row = k
      · rw [List.filter_cons_of_pos (by simpa using hkey), List.filterMap_cons_none hvalue]
      · rw [List.filter_cons_of_neg (by simpa using hkey)]
    | some made =>
      rw [List.filterMap_cons_some (by rw [hvalue]; rfl)]
      by_cases hkey : key row = k
      · rw [List.filter_cons_of_pos (by simpa using hkey),
          List.filter_cons_of_pos (by simpa using hkey), List.map_cons,
          List.filterMap_cons_some hvalue, ih]
      · rw [List.filter_cons_of_neg (by simpa using hkey),
          List.filter_cons_of_neg (by simpa using hkey), ih]

/-- What is made of the rows of each owner. -/
def transform {β : Type*} (f : α → Option β) (rows : List (κ × α)) : List (κ × β) :=
  keyed Prod.fst (fun row => f row.2) rows

theorem entry_transform {β : Type*} (f : α → Option β) (rows : List (κ × α)) (key : κ) :
    entry (collect (transform f rows)) key = (entry (collect rows) key).filterMap f := by
  rw [transform, entry_keyed, entry_collect, List.filterMap_map]
  rfl

theorem mem_entry {rows : List (κ × α)} {key : κ} {value : α} :
    value ∈ entry (collect rows) key ↔ (key, value) ∈ rows := by
  rw [entry_collect, List.mem_map]
  constructor
  · rintro ⟨row, hrow, rfl⟩
    obtain ⟨hmem, hkey⟩ := List.mem_filter.mp hrow
    rw [← of_decide_eq_true hkey]
    exact hmem
  · intro hmem
    exact ⟨(key, value), List.mem_filter.mpr ⟨hmem, by simp⟩, rfl⟩

/-- The rows of one owner in a table of owners with different keys. -/
theorem filter_table {key : σ → κ} {rows : σ → List α} {owners : List σ}
    (hnodup : (owners.map key).Nodup) {owner : σ} (howner : owner ∈ owners) :
    (table key rows owners).filter (fun row => row.1 = key owner) =
      (rows owner).map fun row => (key owner, row) := by
  induction owners with
  | nil => cases howner
  | cons first owners ih =>
    rw [List.map_cons, List.nodup_cons] at hnodup
    have hcons : table key rows (first :: owners) =
        ((rows first).map fun row => (key first, row)) ++ table key rows owners := rfl
    rw [hcons, List.filter_append]
    rcases List.mem_cons.mp howner with rfl | hmem
    · -- no later owner has the key
      have hrest : (table key rows owners).filter (fun row => row.1 = key owner) = [] := by
        rw [List.filter_eq_nil_iff]
        intro row hrow
        obtain ⟨other, hother, hrow⟩ := List.mem_flatMap.mp hrow
        obtain ⟨value, -, rfl⟩ := List.mem_map.mp hrow
        simpa using fun hkey : key other = key owner => hnodup.1 (hkey ▸ List.mem_map_of_mem hother)
      rw [hrest, List.append_nil, List.filter_map]
      simp [Function.comp_def]
    · have hne : key first ≠ key owner :=
        fun hkey => hnodup.1 (hkey ▸ List.mem_map_of_mem hmem)
      rw [ih hnodup.2 hmem, List.filter_map]
      simp [Function.comp_def, hne]

end Dictionary

section Select

variable [LinearOrder κ]

/-- `ORDER BY owner, r`. -/
def byOwner (r : α → α → Prop) (a b : κ × α) : Prop := a.1 < b.1 ∨ (a.1 = b.1 ∧ r a.2 b.2)

instance (r : α → α → Prop) [DecidableRel r] : DecidableRel (byOwner (κ := κ) r) :=
  fun _ _ => inferInstanceAs (Decidable (_ ∨ _))

/-- `WHERE owner IN (keys) ORDER BY owner, r`. -/
def select (r : α → α → Prop) [DecidableRel r] (keys : List κ) (rows : List (κ × α)) :
    List (κ × α) :=
  (rows.filter fun row => row.1 ∈ keys).insertionSort (byOwner r)

variable (r : α → α → Prop) [DecidableRel r] [Std.Total r] [IsTrans α r]

instance : Std.Total (byOwner (κ := κ) r) where
  total a b := by
    rcases lt_trichotomy a.1 b.1 with hlt | heq | hlt
    · exact Or.inl (Or.inl hlt)
    · exact (total_of r a.2 b.2).imp (fun h => Or.inr ⟨heq, h⟩) fun h => Or.inr ⟨heq.symm, h⟩
    · exact Or.inr (Or.inl hlt)

instance : IsTrans (κ × α) (byOwner r) where
  trans a b c hab hbc := by
    rcases hab with hab | ⟨hab, hr⟩ <;> rcases hbc with hbc | ⟨hbc, hr'⟩
    · exact Or.inl (hab.trans hbc)
    · exact Or.inl (hbc ▸ hab)
    · exact Or.inl (hab ▸ hbc)
    · exact Or.inr ⟨hab.trans hbc, IsTrans.trans _ _ _ hr hr'⟩

/-- The rows of one owner in the batch are those that a query for it alone finds. -/
theorem filter_select {key : σ → κ} {rows : σ → List α} {owners : List σ}
    (hnodup : (owners.map key).Nodup) {owner : σ} (howner : owner ∈ owners) {keys : List κ}
    (hkey : key owner ∈ keys) :
    (select r keys (table key rows owners)).filter (fun row => row.1 = key owner) =
      ((rows owner).insertionSort r).map fun row => (key owner, row) := by
  have hwanted : ∀ row : κ × α, row ∈ table key rows owners →
      (decide (row.1 = key owner) && decide (row.1 ∈ keys)) = decide (row.1 = key owner) := by
    intro row _
    by_cases h : row.1 = key owner
    · simp [h, hkey]
    · simp [h]
  rw [select, filter_insertionSort, List.filter_filter, List.filter_congr hwanted,
    filter_table hnodup howner]
  exact (List.map_insertionSort r (byOwner r) (fun row => (key owner, row)) (rows owner)
    fun a _ b _ => by simp [byOwner]).symm

/-- **The batch agrees with the query for one owner.** -/
theorem entry_select {key : σ → κ} {rows : σ → List α} {owners : List σ}
    (hnodup : (owners.map key).Nodup) {owner : σ} (howner : owner ∈ owners) {keys : List κ}
    (hkey : key owner ∈ keys) :
    entry (collect (select r keys (table key rows owners))) (key owner) =
      (rows owner).insertionSort r := by
  rw [entry_collect, filter_select r hnodup howner hkey, List.map_map]
  exact List.map_id _

end Select

/-! ## One value for a key -/

section Single

variable [DecidableEq κ]

/-- `values[key] = value`. -/
def assign (values : List (κ × α)) (row : κ × α) : List (κ × α) :=
  if (lookup Prod.fst values row.1).isSome then replace Prod.fst values row else values ++ [row]

/-- `{key: value for row in rows}`. -/
def dictionary (rows : List (κ × α)) : List (κ × α) := rows.foldl assign []

/-- `values.get(key)`. -/
def get (values : List (κ × α)) (key : κ) : Option α := (lookup Prod.fst values key).map Prod.snd

theorem lookup_assign (values : List (κ × α)) (row : κ × α) (key : κ) :
    lookup Prod.fst (assign values row) key =
      if row.1 = key then some row else lookup Prod.fst values key := by
  unfold assign
  cases hfound : lookup Prod.fst values row.1 with
  | none =>
    rw [if_neg (by simp), lookup_append]
    by_cases hkey : row.1 = key
    · rw [if_pos hkey, if_pos hkey, ← hkey, hfound]
      rfl
    · rw [if_neg hkey, if_neg hkey, Option.or_none]
  | some old =>
    rw [Option.isSome_some, if_pos rfl, lookup_replace]
    by_cases hkey : row.1 = key
    · rw [if_pos hkey, if_pos hkey, ← hkey, hfound]
      rfl
    · rw [if_neg hkey, if_neg hkey]

/-- A dictionary holds, for each key, the last row that came. -/
theorem lookup_dictionary (rows : List (κ × α)) (key : κ) :
    lookup Prod.fst (dictionary rows) key = (rows.filter fun row => row.1 = key).getLast? := by
  induction rows using List.reverseRecOn with
  | nil => rfl
  | append_singleton rows row ih =>
    have hstep : dictionary (rows ++ [row]) = assign (dictionary rows) row := by
      rw [dictionary, List.foldl_append]
      rfl
    rw [hstep, lookup_assign, ih, List.filter_append]
    by_cases hkey : row.1 = key
    · rw [if_pos hkey, List.filter_cons_of_pos (by simpa using hkey), List.filter_nil,
        List.getLast?_concat]
    · rw [if_neg hkey, List.filter_cons_of_neg (by simpa using hkey), List.filter_nil,
        List.append_nil]

theorem get_dictionary (rows : List (κ × α)) (key : κ) :
    get (dictionary rows) key = ((rows.filter fun row => row.1 = key).map Prod.snd).getLast? := by
  rw [get, lookup_dictionary, List.getLast?_map]

/-- Rows with different keys: at most one has a key. -/
theorem filter_of_nodup {key : α → κ} {rows : List α} (hnodup : (rows.map key).Nodup) (k : κ) :
    rows.filter (fun row => key row = k) = (lookup key rows k).toList := by
  induction rows with
  | nil => rfl
  | cons row rows ih =>
    rw [List.map_cons, List.nodup_cons] at hnodup
    rw [lookup_cons]
    by_cases hkey : key row = k
    · have hrest : rows.filter (fun row => key row = k) = [] := by
        rw [List.filter_eq_nil_iff]
        intro other hother
        simpa using fun h : key other = k =>
          hnodup.1 (hkey.trans h.symm ▸ List.mem_map_of_mem hother)
      rw [List.filter_cons_of_pos (by simpa using hkey), hrest, if_pos hkey]
      rfl
    · rw [List.filter_cons_of_neg (by simpa using hkey), ih hnodup.2, if_neg hkey]

/-- A choice among rows with different keys. -/
theorem lookup_filter_of_nodup {key : α → κ} {rows : List α} (hnodup : (rows.map key).Nodup)
    (p : α → Bool) (k : κ) : lookup key (rows.filter p) k = (lookup key rows k).filter p := by
  have hswap : ∀ row ∈ rows, (decide (key row = k) && p row) = (p row && decide (key row = k)) :=
    fun _ _ => Bool.and_comm _ _
  have hhead : lookup key (rows.filter p) k =
      ((rows.filter p).filter fun row => key row = k).head? := List.head?_filter.symm
  rw [hhead, List.filter_filter, List.filter_congr hswap, ← List.filter_filter,
    filter_of_nodup hnodup]
  cases lookup key rows k with
  | none => rfl
  | some row => by_cases hp : p row <;> simp [hp, Option.filter]

/-- A join with a dictionary finds at most one row. -/
theorem filter_pair {values : List (κ × α)} [DecidableEq α]
    (hnodup : (values.map Prod.fst).Nodup) (key : κ) (value : α) :
    values.filter (fun row => key = row.1 ∧ value = row.2) =
      if get values key = some value then [(key, value)] else [] := by
  have hsplit : values.filter (fun row => key = row.1 ∧ value = row.2) =
      (values.filter fun row => row.1 = key).filter fun row => value = row.2 := by
    rw [List.filter_filter]
    refine List.filter_congr fun row _ => ?_
    rw [Bool.decide_and, Bool.and_comm, decide_eq_decide.mpr (@eq_comm _ key row.1)]
  rw [hsplit, filter_of_nodup hnodup]
  unfold get
  cases hfound : lookup Prod.fst values key with
  | none => simp
  | some row =>
    obtain rfl : row.1 = key := key_of_lookup hfound
    by_cases hsame : value = row.2
    · simp [hsame]
    · simp [hsame, Ne.symm hsame]

/-- Rows with different keys are found in the dictionary as they are found in the table. -/
theorem get_dictionary_of_nodup {key : α → κ} {rows : List α} (hnodup : (rows.map key).Nodup)
    (k : κ) : get (dictionary (rows.map fun row => (key row, row))) k = lookup key rows k := by
  rw [get_dictionary, List.filter_map, List.map_map]
  change ((rows.filter fun row => key row = k).map id).getLast? = _
  rw [List.map_id, filter_of_nodup hnodup]
  cases lookup key rows k <;> rfl

theorem get_dictionary_map {β : Type*} (f : α → β) (rows : List (κ × α)) (key : κ) :
    get (dictionary (rows.map fun row => (row.1, f row.2))) key =
      (get (dictionary rows) key).map f := by
  rw [get_dictionary, get_dictionary, List.filter_map, List.map_map, ← List.getLast?_map,
    List.map_map]
  rfl

/-- A choice that the key decides leaves the values of the keys chosen. -/
theorem get_dictionary_filter (p : κ → Bool) (rows : List (κ × α)) (key : κ) :
    get (dictionary (rows.filter fun row => p row.1)) key =
      if p key then get (dictionary rows) key else none := by
  have hkeep : ∀ row : κ × α, row ∈ rows →
      (decide (row.1 = key) && p row.1) = (decide (row.1 = key) && p key) := by
    intro row _
    by_cases hkey : row.1 = key
    · rw [hkey]
    · simp [hkey]
  rw [get_dictionary, get_dictionary, List.filter_filter, List.filter_congr hkeep]
  by_cases hp : p key
  · simp [hp]
  · simp [hp]

theorem mem_of_get {values : List (κ × α)} {key : κ} {value : α} (h : get values key = some value) :
    (key, value) ∈ values := by
  obtain ⟨row, hrow, rfl⟩ := Option.map_eq_some_iff.mp h
  rw [← key_of_lookup hrow]
  exact mem_of_lookup hrow

theorem collect_concat (rows : List (κ × α)) (row : κ × α) :
    collect (rows ++ [row]) = append (collect rows) row := by
  rw [collect, List.foldl_append]
  rfl

theorem collect_nodup (rows : List (κ × α)) : ((collect rows).map Prod.fst).Nodup := by
  induction rows using List.reverseRecOn with
  | nil => exact List.nodup_nil
  | append_singleton rows row ih =>
    rw [collect_concat]
    unfold append
    cases hfound : lookup Prod.fst (collect rows) row.1 with
    | some group =>
      simp only
      rw [map_key_replace]
      exact ih
    | none =>
      simp only
      rw [List.map_append]
      refine List.nodup_append.mpr ⟨ih, List.nodup_singleton _, ?_⟩
      rintro _ hmem _ hnew rfl
      obtain ⟨group, hgroup, hkey⟩ := List.mem_map.mp hmem
      exact lookup_eq_none.mp hfound group hgroup (hkey.trans (List.mem_singleton.mp hnew))

theorem get_collect (rows : List (κ × α)) (key : κ) : get (collect rows) key =
    if entry (collect rows) key = [] then none else some (entry (collect rows) key) := by
  have hfilled : ∀ group ∈ collect rows, group.2 ≠ [] := by
    induction rows using List.reverseRecOn with
    | nil => exact fun _ hmem => absurd hmem List.not_mem_nil
    | append_singleton rows row ih =>
      intro group hgroup
      rw [collect_concat] at hgroup
      unfold append at hgroup
      split at hgroup
      · rcases mem_replace hgroup with rfl | hmem
        · exact List.concat_ne_nil _ _
        · exact ih group hmem
      · rcases List.mem_append.mp hgroup with hmem | hmem
        · exact ih group hmem
        · rw [List.mem_singleton.mp hmem]
          exact List.cons_ne_nil _ _
  unfold get entry
  cases hfound : lookup Prod.fst (collect rows) key with
  | none => rfl
  | some group => exact (if_neg (hfilled group (mem_of_lookup hfound))).symm

/-- What is made of the values of each key, where nothing is made of no values. -/
theorem get_collect_map {β : Type*} (f : List α → β) (rows : List (κ × α)) (key : κ) :
    (get ((collect rows).map fun group => (group.1, f group.2)) key).getD (f []) =
      f (entry (collect rows) key) := by
  rw [get, lookup_map fun _ => rfl, entry]
  cases lookup Prod.fst (collect rows) key <;> rfl

theorem get_map {β : Type*} (f : α → β) (values : List (κ × α)) (key : κ) :
    get (values.map fun row => (row.1, f row.2)) key = (get values key).map f := by
  rw [get, get, lookup_map fun _ => rfl, Option.map_map, Option.map_map]
  rfl

end Single

/-! ## Rows repeated by a join -/

section Firsts

variable [DecidableEq κ] {key : α → κ}

/-- The first row of each key, in the order they came; `seen` are the keys met before. -/
def firsts (key : α → κ) : (seen : List κ) → List α → List α
  | _, [] => []
  | seen, row :: rows =>
    if key row ∈ seen then firsts key seen rows else row :: firsts key (key row :: seen) rows

/-- Only the keys of the rows matter. -/
theorem firsts_congr {rows : List α} : ∀ {seen seen' : List κ},
    (∀ row ∈ rows, key row ∈ seen ↔ key row ∈ seen') →
      firsts key seen rows = firsts key seen' rows := by
  induction rows with
  | nil => exact fun _ => rfl
  | cons row rows ih =>
    intro seen seen' h
    obtain ⟨hrow, hrows⟩ := List.forall_mem_cons.mp h
    rw [firsts, firsts, ih hrows]
    by_cases hseen : key row ∈ seen
    · rw [if_pos hseen, if_pos (hrow.mp hseen)]
    · rw [if_neg hseen, if_neg (mt hrow.mpr hseen)]
      refine congrArg _ (ih fun other hother => ?_)
      rw [List.mem_cons, List.mem_cons, hrows other hother]

/-- A choice that the key decides may be made before or after. -/
theorem filter_firsts {p : α → Bool} (hp : ∀ a b, key a = key b → p a = p b) (rows : List α) :
    ∀ seen : List κ, (firsts key seen rows).filter p = firsts key seen (rows.filter p) := by
  induction rows with
  | nil => exact fun _ => rfl
  | cons row rows ih =>
    intro seen
    rw [firsts]
    by_cases hrow : p row
    · rw [List.filter_cons_of_pos hrow, firsts]
      by_cases hseen : key row ∈ seen
      · rw [if_pos hseen, if_pos hseen, ih]
      · rw [if_neg hseen, if_neg hseen, List.filter_cons_of_pos hrow, ih]
    · rw [List.filter_cons_of_neg hrow]
      by_cases hseen : key row ∈ seen
      · rw [if_pos hseen, ih]
      · rw [if_neg hseen, List.filter_cons_of_neg hrow, ih]
        -- the key now seen is of no row that the choice keeps
        refine firsts_congr fun other hother => ?_
        have hne : key other ≠ key row := by
          intro hkey
          rw [← hp other row hkey] at hrow
          exact hrow (List.mem_filter.mp hother).2
        rw [List.mem_cons, or_iff_right hne]

theorem firsts_seen {rows : List α} {seen : List κ} (h : ∀ row ∈ rows, key row ∈ seen)
    (rest : List α) : firsts key seen (rows ++ rest) = firsts key seen rest := by
  induction rows with
  | nil => rfl
  | cons row rows ih =>
    obtain ⟨hrow, hrows⟩ := List.forall_mem_cons.mp h
    rw [List.cons_append, firsts, if_pos hrow, ih hrows]

/-- Values that a join repeats are found once each, in their order. -/
theorem firsts_flatMap {β : Type*} {name : β → κ} {rows : β → List α} {value : α → β}
    {xs : List β} (hnodup : (xs.map name).Nodup) (hne : ∀ x ∈ xs, rows x ≠ [])
    (hrows : ∀ x ∈ xs, ∀ row ∈ rows x, key row = name x ∧ value row = x) :
    ∀ seen : List κ, (∀ x ∈ xs, name x ∉ seen) →
      (firsts key seen (xs.flatMap rows)).map value = xs := by
  induction xs with
  | nil => exact fun _ _ => rfl
  | cons x xs ih =>
    intro seen hseen
    rw [List.map_cons, List.nodup_cons] at hnodup
    obtain ⟨hx, hxs⟩ := List.forall_mem_cons.mp hrows
    obtain ⟨hnex, hnexs⟩ := List.forall_mem_cons.mp hne
    obtain ⟨hseenx, hseenxs⟩ := List.forall_mem_cons.mp hseen
    rw [List.flatMap_cons]
    cases hfirst : rows x with
    | nil => exact absurd hfirst hnex
    | cons row more =>
      rw [hfirst] at hx
      obtain ⟨⟨hkey, hvalue⟩, hmore⟩ := List.forall_mem_cons.mp hx
      have hkeys : ∀ other ∈ more, key other ∈ key row :: seen := by
        intro other hother
        rw [(hmore other hother).1, ← hkey]
        exact List.mem_cons_self
      have hnew : ∀ y ∈ xs, name y ∉ key row :: seen := by
        intro y hy hmem
        rcases List.mem_cons.mp hmem with heq | hmem
        · exact hnodup.1 (hkey ▸ heq ▸ List.mem_map_of_mem hy)
        · exact hseenxs y hy hmem
      rw [List.cons_append, firsts, if_neg (hkey ▸ hseenx), firsts_seen hkeys, List.map_cons,
        hvalue, ih hnodup.2 hnexs hxs _ hnew]

end Firsts

end ComponentKb.Lib.Batch
