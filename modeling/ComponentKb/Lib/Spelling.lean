import Mathlib.Data.List.Basic
import Mathlib.Data.List.TakeWhile
import Mathlib.Tactic.Common

/-!
# Spellings

A word that is looked for at the start of a text, up to the case of its letters and the number of
spaces between them.

* `beyond_of_rest`: two spellings that one text starts with agree as far as the shorter one goes,
  and `beyond` is what the longer one asks for after that.
-/

namespace ComponentKb.Lib.Spelling

/-- A letter up to its case; with a gap, any number of spaces may stand before it. -/
structure Piece (α : Type) where
  gap : Bool
  letter : α
  deriving DecidableEq, Repr

section

variable {α : Type} [DecidableEq α] (fold : α → α) (isSpace : α → Bool)

def Piece.skip (piece : Piece α) (s : List α) : List α :=
  if piece.gap then s.dropWhile isSpace else s

/-- What follows a spelling at the start of a text. -/
def rest : List (Piece α) → List α → Option (List α)
  | [], s => some s
  | piece :: pieces, s =>
    match piece.skip isSpace s with
    | [] => none
    | x :: s => if fold x = piece.letter then rest pieces s else none

/-- What the second spelling asks for behind the first one, if a text can start with both. -/
def beyond : List (Piece α) → List (Piece α) → Option (List (Piece α))
  | [], q => some q
  | _ :: _, [] => none
  | piece :: p, other :: q => if piece.letter = other.letter then beyond p q else none

/-- No letter of a spelling is a space. -/
def Plain (p : List (Piece α)) : Prop :=
  ∀ piece ∈ p, ∀ x, fold x = piece.letter → isSpace x = false

variable {fold isSpace} {p q : List (Piece α)} {s r t : List α}

theorem rest_cons {piece : Piece α} :
    rest fold isSpace (piece :: p) s = some r ↔
      ∃ x s', piece.skip isSpace s = x :: s' ∧ fold x = piece.letter ∧
        rest fold isSpace p s' = some r := by
  rw [rest]
  constructor
  · intro h
    split at h
    · cases h
    · rename_i x s' hskip
      split at h
      · exact ⟨x, s', hskip, ‹_›, h⟩
      · cases h
  · rintro ⟨x, s', hskip, hx, h⟩
    rw [hskip]
    simp only
    rw [if_pos hx, h]

omit [DecidableEq α] in
theorem skip_suffix (isSpace : α → Bool) (piece : Piece α) (s : List α) : piece.skip isSpace s <:+ s := by
  unfold Piece.skip
  split
  · exact List.dropWhile_suffix _
  · exact List.suffix_refl s

theorem rest_suffix (h : rest fold isSpace p s = some r) : r <:+ s := by
  induction p generalizing s with
  | nil =>
    cases h
    exact List.suffix_refl _
  | cons piece p ih =>
    obtain ⟨x, s', hskip, -, h⟩ := rest_cons.mp h
    have htail : s' <:+ s := (List.suffix_cons x s').trans (hskip ▸ skip_suffix isSpace piece s)
    exact (ih h).trans htail

/-- A spelling with a letter leaves less. -/
theorem rest_length {piece : Piece α} (h : rest fold isSpace (piece :: p) s = some r) :
    r.length < s.length := by
  obtain ⟨x, s', hskip, -, h⟩ := rest_cons.mp h
  have hle := (rest_suffix h).length_le
  have hskipped := (skip_suffix isSpace piece s).length_le
  rw [hskip, List.length_cons] at hskipped
  omega

/-- The last character of a spelling stands before what follows it. -/
theorem rest_last {piece : Piece α} (h : rest fold isSpace (p ++ [piece]) s = some r) :
    ∃ before x, s = before ++ x :: r ∧ fold x = piece.letter := by
  induction p generalizing s with
  | nil =>
    obtain ⟨x, s', hskip, hx, h⟩ := rest_cons.mp h
    cases h
    obtain ⟨before, hbefore⟩ := skip_suffix isSpace piece s
    exact ⟨before, x, by rw [← hbefore, hskip], hx⟩
  | cons other p ih =>
    obtain ⟨y, s', hskip, -, h⟩ := rest_cons.mp h
    obtain ⟨before, x, rfl, hx⟩ := ih h
    obtain ⟨start, hstart⟩ := skip_suffix isSpace other s
    refine ⟨start ++ y :: before, x, ?_, hx⟩
    rw [← hstart, hskip, List.append_assoc, List.cons_append]

/-- What is taken of a text is the spelling itself. -/
theorem rest_taken (h : rest fold isSpace p (s ++ r) = some r) : rest fold isSpace p s = some [] := by
  induction p generalizing s with
  | nil =>
    have hs : s ++ r = [] ++ r := Option.some_inj.mp h
    rw [List.append_cancel_right hs]
    rfl
  | cons piece p ih =>
    obtain ⟨x, s', hskip, hx, h⟩ := rest_cons.mp h
    have htaken : ∃ t, piece.skip isSpace s = x :: t ∧ s' = t ++ r := by
      have hlong := (rest_suffix h).length_le
      by_cases hempty : piece.skip isSpace s = []
      · -- then what follows would start after the spelling
        have hskipped : (piece.skip isSpace (s ++ r)).length ≤ r.length := by
          unfold Piece.skip at hempty ⊢
          split at hempty
          · rename_i hgap
            rw [if_pos hgap, List.dropWhile_append, hempty]
            exact (List.dropWhile_suffix _).length_le
          · rename_i hgap
            rw [if_neg hgap, hempty]
            exact Nat.le_refl _
        rw [hskip, List.length_cons] at hskipped
        omega
      · have happend : piece.skip isSpace (s ++ r) = piece.skip isSpace s ++ r := by
          unfold Piece.skip at hempty ⊢
          split
          · rename_i hgap
            rw [if_pos hgap] at hempty
            rw [List.dropWhile_append, if_neg (by simpa using hempty)]
          · rfl
        obtain ⟨y, t, ht⟩ := List.exists_cons_of_ne_nil hempty
        rw [happend, ht] at hskip
        obtain ⟨rfl, rfl⟩ := List.cons.inj hskip
        exact ⟨t, ht, rfl⟩
    obtain ⟨t, ht, rfl⟩ := htaken
    exact rest_cons.mpr ⟨x, t, ht, hx, ih h⟩

omit [DecidableEq α] in
/-- Two pieces that a text goes on with see the same character. -/
theorem skip_eq_skip {piece other : Piece α} {x y : α} {s₁ s₂ : List α}
    (hx : isSpace x = false) (hy : isSpace y = false)
    (h₁ : piece.skip isSpace s = x :: s₁) (h₂ : other.skip isSpace s = y :: s₂) :
    x = y ∧ s₁ = s₂ := by
  have hdrop : ∀ {z : α} {s' : List α}, isSpace z = false → s = z :: s' →
      s.dropWhile isSpace = s := by
    rintro z s' hz rfl
    rw [List.dropWhile_cons_of_neg (by simp [hz])]
  unfold Piece.skip at h₁ h₂
  split at h₁ <;> split at h₂
  · exact List.cons.inj (h₁.symm.trans h₂)
  · rw [hdrop hy h₂] at h₁
    exact List.cons.inj (h₁.symm.trans h₂)
  · rw [hdrop hx h₁] at h₂
    exact List.cons.inj (h₁.symm.trans h₂)
  · exact List.cons.inj (h₁.symm.trans h₂)

/-- Two spellings at the start of one text. -/
theorem beyond_of_rest (hp : Plain fold isSpace p) (hq : Plain fold isSpace q)
    (h₁ : rest fold isSpace p s = some r) (h₂ : rest fold isSpace q s = some t)
    (hle : t.length ≤ r.length) :
    ∃ more, beyond p q = some more ∧ rest fold isSpace more r = some t := by
  induction p generalizing q s with
  | nil =>
    cases h₁
    exact ⟨q, rfl, h₂⟩
  | cons piece p ih =>
    cases q with
    | nil =>
      cases h₂
      exact absurd (rest_length h₁) (by omega)
    | cons other q =>
      obtain ⟨x, s₁, hskip₁, hx, h₁⟩ := rest_cons.mp h₁
      obtain ⟨y, s₂, hskip₂, hy, h₂⟩ := rest_cons.mp h₂
      obtain ⟨rfl, rfl⟩ := skip_eq_skip (hp piece List.mem_cons_self x hx)
        (hq other List.mem_cons_self y hy) hskip₁ hskip₂
      rw [beyond, if_pos (hx.symm.trans hy)]
      exact ih (fun piece h => hp piece (List.mem_cons_of_mem _ h))
        (fun piece h => hq piece (List.mem_cons_of_mem _ h)) h₁ h₂

end

end ComponentKb.Lib.Spelling
