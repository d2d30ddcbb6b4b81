import Mathlib.Tactic.Common

/-!
# Unique indexes

A table is a list of rows. Its unique indexes, the primary key among them, say which rows clash
(`sharing`); a foreign key says which rows it has to refer to. `insertNew` is
`INSERT … ON CONFLICT DO NOTHING`: a row that clashes with a stored one is dropped, and any other
row has to satisfy the foreign keys.

* `insertNew_of_clash`, `exists_insertNew`: when the statement goes through.
* `insertAll`: the statement for each of a list of rows.
* `Inserted`, `insertNew_spec`: what the table holds afterwards.
* `Inserted.exists_of`: the row, or one that stands for it, is there.
-/

namespace ComponentKb.Lib.Index

variable {α κ : Type}

/-- Two rows have one entry in an index. A row without an entry shares none. -/
def sharing [DecidableEq κ] (entry : α → Option κ) (a b : α) : Prop :=
  entry a ≠ none ∧ entry a = entry b

instance [DecidableEq κ] (entry : α → Option κ) : DecidableRel (sharing entry) :=
  fun _ _ => inferInstanceAs (Decidable (_ ∧ _))

@[simp] theorem sharing_some [DecidableEq κ] {key : α → κ} {a b : α} :
    sharing (fun x => some (key x)) a b ↔ key a = key b := by
  simp [sharing]

/-- The table `rows'` after a row was put into `rows`. -/
structure Inserted (clash : α → α → Prop) (rows rows' : List α) (row : α) : Prop where
  kept : ∀ x ∈ rows, x ∈ rows'
  origin : ∀ x ∈ rows', x ∈ rows ∨ (x = row ∧ ∀ y ∈ rows, ¬ clash row y)
  there : ∃ x ∈ rows', x = row ∨ (x ∈ rows ∧ clash row x)

section

variable {clash : α → α → Prop} {rows rows' : List α} {row : α} {P : α → Prop}

/-- The row, or the stored one it clashed with, has what both have. -/
theorem Inserted.exists_of (h : Inserted clash rows rows' row) (hrow : P row)
    (hclash : ∀ x ∈ rows, clash row x → P x) : ∃ x ∈ rows', P x := by
  obtain ⟨x, hx, rfl | ⟨hmem, hx'⟩⟩ := h.there
  · exact ⟨x, hx, hrow⟩
  · exact ⟨x, hx, hclash x hmem hx'⟩

/-- What the stored rows and the new one have, every row has. -/
theorem Inserted.forall_of (h : Inserted clash rows rows' row) (hrows : ∀ x ∈ rows, P x)
    (hrow : P row) : ∀ x ∈ rows', P x :=
  fun x hx => (h.origin x hx).elim (hrows x) fun hx => hx.1 ▸ hrow

end

section

variable (clash : α → α → Prop) [DecidableRel clash] (refers : α → Prop) [DecidablePred refers]

/-- `INSERT … ON CONFLICT DO NOTHING`; `none` when a foreign key is violated. -/
def insertNew (rows : List α) (row : α) : Option (List α) :=
  if ∃ x ∈ rows, clash row x then some rows
  else if refers row then some (rows ++ [row])
  else none

variable {clash refers} {rows rows' : List α} {row : α}

theorem insertNew_of_clash (h : ∃ x ∈ rows, clash row x) :
    insertNew clash refers rows row = some rows := if_pos h

theorem insertNew_spec (h : insertNew clash refers rows row = some rows') :
    Inserted clash rows rows' row := by
  unfold insertNew at h
  split at h
  · next hclash =>
    obtain rfl := Option.some.inj h
    obtain ⟨x, hx, hxrow⟩ := hclash
    exact ⟨fun _ => id, fun _ => .inl, x, hx, .inr ⟨hx, hxrow⟩⟩
  · next hclash =>
    split at h
    · obtain rfl := Option.some.inj h
      refine ⟨fun x hx => List.mem_append_left _ hx, fun x hx => ?_, row, by simp, .inl rfl⟩
      refine (List.mem_append.mp hx).imp id fun hrow => ⟨List.mem_singleton.mp hrow, ?_⟩
      exact fun y hy hyrow => hclash ⟨y, hy, hyrow⟩
    · cases h

/-- A row that satisfies the foreign keys goes through. -/
theorem exists_insertNew (h : refers row) :
    ∃ rows', insertNew clash refers rows row = some rows' ∧ Inserted clash rows rows' row := by
  by_cases hclash : ∃ x ∈ rows, clash row x
  · have hsame : insertNew clash refers rows row = some rows := insertNew_of_clash hclash
    exact ⟨rows, hsame, insertNew_spec hsame⟩
  · have hnew : insertNew clash refers rows row = some (rows ++ [row]) := by
      rw [insertNew, if_neg hclash, if_pos h]
    exact ⟨_, hnew, insertNew_spec hnew⟩

variable {news : List α}

variable (clash refers) in
/-- A statement for each of the new rows, in order. -/
def insertAll (rows : List α) : List α → Option (List α)
  | [] => some rows
  | row :: news => (insertNew clash refers rows row).bind fun rows => insertAll rows news

theorem insertAll_of_clash (h : ∀ row ∈ news, ∃ x ∈ rows, clash row x) :
    insertAll clash refers rows news = some rows := by
  induction news with
  | nil => rfl
  | cons row news ih =>
    obtain ⟨hrow, hnews⟩ := List.forall_mem_cons.mp h
    rw [insertAll, insertNew_of_clash hrow]
    exact ih hnews

theorem exists_insertAll (h : ∀ row ∈ news, refers row) :
    ∃ rows', insertAll clash refers rows news = some rows' := by
  induction news generalizing rows with
  | nil => exact ⟨rows, rfl⟩
  | cons row news ih =>
    obtain ⟨hrow, hnews⟩ := List.forall_mem_cons.mp h
    obtain ⟨rows₁, hrows₁, -⟩ : ∃ rows₁, insertNew clash refers rows row = some rows₁ ∧
        Inserted clash rows rows₁ row := exists_insertNew hrow
    rw [insertAll, hrows₁]
    exact ih hnews

/-- Every row that was there stays, and every new one, or a row it clashed with, is there. -/
theorem insertAll_spec (h : insertAll clash refers rows news = some rows') :
    (∀ x ∈ rows, x ∈ rows') ∧ ∀ row ∈ news, ∃ x ∈ rows', x = row ∨ clash row x := by
  induction news generalizing rows with
  | nil =>
    obtain rfl := Option.some.inj h
    exact ⟨fun _ => id, by simp⟩
  | cons row news ih =>
    obtain ⟨rows₁, hrows₁, h⟩ := Option.bind_eq_some_iff.mp h
    have hfirst := insertNew_spec hrows₁
    obtain ⟨hkept, hnews⟩ := ih h
    refine ⟨fun x hx => hkept x (hfirst.kept x hx), List.forall_mem_cons.mpr ⟨?_, hnews⟩⟩
    obtain ⟨x, hx, hrow⟩ := hfirst.there
    exact ⟨x, hkept x hx, hrow.imp id fun hclash => hclash.2⟩

end

end ComponentKb.Lib.Index
