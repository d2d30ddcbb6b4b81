import Mathlib.Tactic.Common

/-!
# Rows in the identity map of an ORM session

A session keeps one copy of each row it has loaded. Selecting the row again, also with a row
lock, hands back the copy and does not refresh it. A flush writes only the columns whose value
differs from the one that was loaded; the other columns keep what the database holds by then.
After a commit that expires nothing, the copy is clean: loaded and current values agree. A
rollback expires the copy, so the next select reads the database.

`Mapped R` is what a row type provides: `flush loaded current stored`, column by column, and the
table's CHECK constraints. `transact` is one transaction that selects the row, changes it and
commits.

* `transact_none`: on a row the session does not hold, the transaction is a plain update of the
  stored row.
* `transact_stored`: likewise on a copy that agrees with the database.
-/

namespace ComponentKb.Lib

/-- One column after a flush: a value that did not change is not part of the UPDATE. -/
def column {α : Type*} [DecidableEq α] (loaded current stored : α) : α :=
  if current = loaded then stored else current

section Column

variable {α : Type*} [DecidableEq α] {loaded current stored : α}

@[simp] theorem column_unchanged : column loaded loaded stored = stored := if_pos rfl

@[simp] theorem column_fresh : column stored current stored = current := by
  unfold column
  split
  · rename_i h; exact h.symm
  · rfl

theorem column_changed (h : current ≠ loaded) : column loaded current stored = current := if_neg h

theorem column_eq_or : column loaded current stored = stored ∨
    column loaded current stored = current := by
  unfold column
  split
  · exact Or.inl rfl
  · exact Or.inr rfl

/-- **A column that promises another.** The stored row has a value in the second column whenever
the first one is `x`; a flush keeps this when it writes `x` together with a value that was not
there, and never clears the second column alone. -/
theorem column_isSome {β : Type*} [DecidableEq β] {x : α} {loaded' current' stored' : Option β}
    (hstored : stored = x → stored'.isSome)
    (hwrite : current ≠ loaded → current = x → loaded' = none ∧ current'.isSome)
    (hkeep : current = loaded → current' = loaded' ∨ current'.isSome)
    (h : column loaded current stored = x) : (column loaded' current' stored').isSome := by
  by_cases hc : current = loaded
  · rw [column, if_pos hc] at h
    rw [column]
    split
    · exact hstored h
    · rename_i hne
      exact (hkeep hc).resolve_left hne
  · rw [column_changed hc] at h
    obtain ⟨hnone, hsome⟩ := hwrite hc h
    have hne : current' ≠ loaded' := by
      intro heq
      rw [heq, hnone] at hsome
      exact absurd hsome (by simp)
    rw [column_changed hne]
    exact hsome

end Column

/-- A mapped row type: its flush and the CHECK constraints of its table. -/
class Mapped (R : Type*) where
  flush : (loaded current stored : R) → R
  check : R → Bool
  flush_unchanged : ∀ loaded stored, flush loaded loaded stored = stored
  flush_fresh : ∀ stored current, flush stored current stored = current

variable {R : Type*} [Mapped R]

/-- Two rows that are selected and written together. -/
instance {R S : Type*} [Mapped R] [Mapped S] : Mapped (R × S) where
  flush l c s := (Mapped.flush l.1 c.1 s.1, Mapped.flush l.2 c.2 s.2)
  check r := Mapped.check r.1 && Mapped.check r.2
  flush_unchanged _ _ := Prod.ext (Mapped.flush_unchanged _ _) (Mapped.flush_unchanged _ _)
  flush_fresh _ _ := Prod.ext (Mapped.flush_fresh _ _) (Mapped.flush_fresh _ _)

/-- What a transaction leaves behind: the stored row and the session's copy of it. `none` is a
copy that a rollback expired. -/
structure Committed (R : Type*) where
  stored : R
  copy : Option R

/-- Select the row (the copy, if the session holds one), change it by `f`, flush and commit. A
violated constraint rolls the transaction back. -/
def transact (copy : Option R) (f : R → R) (stored : R) : Committed R :=
  let row := copy.getD stored
  let written := Mapped.flush row (f row) stored
  if Mapped.check written then ⟨written, some (f row)⟩ else ⟨stored, none⟩

theorem transact_stored_eq_or (copy : Option R) (f : R → R) (stored : R) :
    (transact copy f stored).stored = stored ∨
      (transact copy f stored).stored = Mapped.flush (copy.getD stored) (f (copy.getD stored)) stored
    := by
  unfold transact
  simp only
  split
  · exact Or.inr rfl
  · exact Or.inl rfl

/-- **A fresh session's transaction is a plain update.** -/
theorem transact_none (f : R → R) (stored : R) :
    transact none f stored =
      if Mapped.check (f stored) then ⟨f stored, some (f stored)⟩ else ⟨stored, none⟩ := by
  simp only [transact, Option.getD_none, Mapped.flush_fresh]

theorem transact_stored (f : R → R) (stored : R) :
    transact (some stored) f stored = transact none f stored := rfl

/-- The copy a transaction leaves in its session is what it wrote. -/
theorem transact_copy {copy : Option R} {f : R → R} {stored row : R}
    (h : (transact copy f stored).copy = some row) : row = f (copy.getD stored) := by
  unfold transact at h
  simp only at h
  split at h
  · exact (Option.some.inj h).symm
  · exact absurd h (by simp)

/-- A commit leaves a row that satisfies the CHECK constraints. -/
theorem transact_check {copy : Option R} {f : R → R} {stored : R}
    (h : Mapped.check stored = true) : Mapped.check (transact copy f stored).stored = true := by
  unfold transact
  simp only
  split
  · assumption
  · exact h

/-- A transaction that changes nothing leaves the row as it is. -/
theorem transact_id {copy : Option R} {f : R → R} {stored : R}
    (h : f (copy.getD stored) = copy.getD stored) : (transact copy f stored).stored = stored := by
  rcases transact_stored_eq_or copy f stored with h' | h'
  · exact h'
  · rw [h', h, Mapped.flush_unchanged]

end ComponentKb.Lib
