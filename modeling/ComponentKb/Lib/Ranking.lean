import Mathlib.Data.List.Sort
import Mathlib.Tactic.Common

/-!
# Ranking

A list sorted by score, the greatest first, and by name among equal scores, over any linear orders
of scores and names. The sort is stable and is its own fixpoint (`rank_rank`); whoever stands first
has the greatest score (`score_le_head`), and where the names differ the first is whoever is before
all the others (`head_rank_iff`).
-/

namespace ComponentKb.Lib.Ranking

variable {α σ κ : Type} [LinearOrder σ] [LinearOrder κ]

section

variable (score : α → σ) (name : α → κ)

/-- A higher score, or the same score and a name that is not later. -/
def Before (a b : α) : Prop := score b < score a ∨ (score a = score b ∧ name a ≤ name b)

instance : DecidableRel (Before score name) := fun _ _ => inferInstanceAs (Decidable (_ ∨ _))

/-- `sorted(xs, key=lambda x: (-score(x), name(x)))`. -/
def rank (xs : List α) : List α := xs.insertionSort (Before score name)

instance : IsTrans α (Before score name) where
  trans a b c hab hbc := by
    rcases hab with hab | ⟨hab, hnab⟩
    · rcases hbc with hbc | ⟨hbc, -⟩
      · exact .inl (hbc.trans hab)
      · exact .inl (hbc ▸ hab)
    · rcases hbc with hbc | ⟨hbc, hnbc⟩
      · exact .inl (hab ▸ hbc)
      · exact .inr ⟨hab.trans hbc, hnab.trans hnbc⟩

instance : Std.Total (Before score name) where
  total a b := by
    rcases lt_trichotomy (score a) (score b) with h | h | h
    · exact .inr (.inl h)
    · exact (le_total (name a) (name b)).imp (fun hn => .inr ⟨h, hn⟩) fun hn => .inr ⟨h.symm, hn⟩
    · exact .inl (.inl h)

end

variable {score : α → σ} {name : α → κ} {a b : α} {xs : List α}

/-- Two that are before each other have one name. -/
theorem Before.name_eq (hab : Before score name a b) (hba : Before score name b a) :
    name a = name b := by
  rcases hab with hab | ⟨hab, hn⟩
  · rcases hba with hba | ⟨hba, -⟩
    · exact absurd hab hba.asymm
    · exact absurd hab hba.not_lt
  · rcases hba with hba | ⟨-, hn'⟩
    · exact absurd hba hab.symm.not_gt
    · exact le_antisymm hn hn'

theorem Before.score_le (h : Before score name a b) : score b ≤ score a :=
  h.elim le_of_lt fun h => h.1.ge

theorem rank_pairwise (xs : List α) : (rank score name xs).Pairwise (Before score name) :=
  List.pairwise_insertionSort _ xs

theorem rank_perm (xs : List α) : (rank score name xs).Perm xs := List.perm_insertionSort _ xs

@[simp] theorem mem_rank : a ∈ rank score name xs ↔ a ∈ xs := List.mem_insertionSort _

@[simp] theorem rank_rank : rank score name (rank score name xs) = rank score name xs :=
  (rank_pairwise xs).insertionSort_eq

theorem rank_eq_nil : rank score name xs = [] ↔ xs = [] := by
  rw [← List.length_eq_zero_iff, (rank_perm xs).length_eq, List.length_eq_zero_iff]

/-- The first is before every one. -/
theorem head_before (h : (rank score name xs).head? = some a) (hb : b ∈ xs) :
    Before score name a b := by
  obtain ⟨rest, hrest⟩ := List.head?_eq_some_iff.mp h
  have hsorted : (rank score name xs).Pairwise (Before score name) := rank_pairwise xs
  rw [hrest, List.pairwise_cons] at hsorted
  rcases List.mem_cons.mp (hrest ▸ mem_rank.mpr hb) with rfl | hmem
  · exact .inr ⟨rfl, le_rfl⟩
  · exact hsorted.1 b hmem

/-- **The first has the greatest score.** -/
theorem score_le_head (h : (rank score name xs).head? = some a) (hb : b ∈ xs) :
    score b ≤ score a :=
  (head_before h hb).score_le

/-- Where names tell the entries apart, the first is the one before all the others. -/
theorem head_rank_iff (hnames : ∀ b ∈ xs, name b = name a → b = a) :
    (rank score name xs).head? = some a ↔ a ∈ xs ∧ ∀ b ∈ xs, Before score name a b := by
  constructor
  · intro h
    exact ⟨mem_rank.mp (List.mem_of_head? h), fun b hb => head_before h hb⟩
  · rintro ⟨ha, hall⟩
    cases hhead : (rank score name xs).head? with
    | none =>
      rw [List.head?_eq_none_iff, rank_eq_nil] at hhead
      rw [hhead] at ha
      cases ha
    | some b =>
      have hb : b ∈ xs := mem_rank.mp (List.mem_of_head? hhead)
      rw [hnames b hb ((head_before hhead ha).name_eq (hall b hb))]

end ComponentKb.Lib.Ranking
