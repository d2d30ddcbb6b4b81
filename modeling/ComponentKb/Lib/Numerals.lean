import Mathlib.Algebra.Order.Field.Rat
import Mathlib.Data.List.TakeWhile
import Mathlib.Tactic.Common

/-!
# The numerals in a text

`\d+(?:\.\d+)?|\.\d+`, the longest one that a text starts with, and those that stand in a text from
left to right. `value` says which characters are digits, and of what value.
-/

namespace ComponentKb.Lib.Numerals

variable (value : Char → Option Nat)

def isDecimal (c : Char) : Bool := (value c).isSome

/-- The number that a list of digits writes. -/
def digitsValue (digits : List Char) : Nat :=
  digits.foldl (fun n c => 10 * n + (value c).getD 0) 0

/-- The numeral at the start of a text, and the rest. -/
def numeral (s : List Char) : Option (List Char × List Char) :=
  let whole := s.takeWhile (isDecimal value)
  let rest := s.dropWhile (isDecimal value)
  match rest with
  | '.' :: after =>
    let fraction := after.takeWhile (isDecimal value)
    if fraction ≠ [] then
      some (whole ++ '.' :: fraction, after.dropWhile (isDecimal value))
    else if whole ≠ [] then some (whole, rest) else none
  | _ => if whole ≠ [] then some (whole, rest) else none

/-- The number of a numeral. -/
def numeralValue (m : List Char) : ℚ :=
  let fraction := (m.dropWhile (· ≠ '.')).drop 1
  digitsValue value (m.takeWhile (· ≠ '.')) + digitsValue value fraction / 10 ^ fraction.length

/-- The first `n` characters are read. -/
def numeralsFrom : Nat → List Char → List ℚ
  | 0, _ | _, [] => []
  | n + 1, c :: s =>
    match numeral value (c :: s) with
    | some (m, rest) => numeralValue value m :: numeralsFrom n rest
    | none => numeralsFrom n s

/-- The numbers in a text. -/
def numerals (s : List Char) : List ℚ := numeralsFrom value s.length s

end ComponentKb.Lib.Numerals
