import Mathlib.Data.List.Basic
import Mathlib.Order.MinMax

/-!
# Sequences of pieces that say how long they are

A container is a row of pieces, each of which states its own length at its head, and ends in a way
of its own. A scanner reads a length, skips so much and goes on; it never looks back.

* `Tiled`: a text that such pieces fill up to its end.
* **`tiled_iff`**: where the head decides the piece, a text is tiled iff it ends here or is tiled
  after the piece that its head tells.
-/

namespace ComponentKb.Lib.Tiling

variable {α : Type*}

/-- A text filled with pieces up to an end. What may be a piece depends on what stands after it. -/
inductive Tiled (piece : List α → List α → Prop) (ends : List α → Prop) : List α → Prop
  | done {text : List α} : ends text → Tiled piece ends text
  | next {first rest : List α} : piece first rest → Tiled piece ends rest →
      Tiled piece ends (first ++ rest)

variable {piece : List α → List α → Prop} {ends : List α → Prop}

/-- The head of a text tells the length of its first piece. -/
def HeadDecides (piece : List α → List α → Prop) (size : List α → Option Nat) : Prop :=
  ∀ first rest, piece first rest ↔ size (first ++ rest) = some first.length

/-- **Where the head decides the piece**, a text is tiled iff it ends here or is tiled after it. -/
theorem tiled_iff {size : List α → Option Nat} (hsize : HeadDecides piece size) (text : List α) :
    Tiled piece ends text ↔ ends text ∨
      ∃ n, size text = some n ∧ n ≤ text.length ∧ Tiled piece ends (text.drop n) := by
  constructor
  · intro h
    cases h with
    | done hends => exact Or.inl hends
    | next hpiece hrest =>
      rename_i first rest
      refine Or.inr ⟨first.length, (hsize _ _).mp hpiece, by simp, ?_⟩
      rw [List.drop_left]
      exact hrest
  · rintro (hends | ⟨n, hn, hle, hrest⟩)
    · exact Tiled.done hends
    · rw [← List.take_append_drop n text]
      refine Tiled.next ((hsize _ _).mpr ?_) hrest
      rw [List.take_append_drop, hn, List.length_take, min_eq_left hle]

end ComponentKb.Lib.Tiling
