import Mathlib.Algebra.GroupWithZero.Nat
import Mathlib.Tactic.Common

/-!
# Identifiers, times and texts shared by every component

A `UUID` is compared and ordered, nothing more, so a natural number stands for it. A `Time` is a
UTC timestamp in microseconds, the resolution of `timestamptz`.
-/

-- A question about the members of a text is answered by going through the text, not the alphabet.
attribute [instance (1100)] List.decidableBAll List.decidableBEx

namespace ComponentKb

abbrev UUID := Nat

abbrev Time := Int

/-- `timedelta(seconds=n)`. -/
def seconds (n : Nat) : Time := n * 1000000

/-- `timedelta(milliseconds=n)`. -/
def millis (n : Nat) : Time := n * 1000

/-- `value[:n]`. -/
def truncate (n : Nat) (value : String) : String := String.ofList (value.toList.take n)

end ComponentKb
