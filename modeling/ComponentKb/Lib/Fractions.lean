import ComponentKb.Lib.Notation
import Mathlib.Data.Rat.Floor
import Mathlib.Tactic.Linarith

/-!
# Numbers as `float` reads them

Decimal texts, as Python reads them: a sign, digits with a point, an exponent, and words for the
infinities and for what is no number. The finite ones are exact here, without the rounding of binary
floats. Comparisons with what is no number fail.

* `Number`, `readFloat`: the numbers and their texts.
* `roundHalfEven`: `round`; `pos_roundHalfEven`: a number rounds to a positive one iff it is above one
  half; `le_roundHalfEven`, `roundHalfEven_le`: integers stay bounds.
* `quotient`: a division that checks its divisor.
-/

namespace ComponentKb.Lib.Fractions

open Notation

inductive Number where
  | finite (q : ℚ)
  | infinite (negative : Bool)
  | nan
  deriving DecidableEq

/-- `value <= bound`. -/
def Number.atMost (bound : ℚ) : Number → Bool
  | finite q => q ≤ bound
  | infinite negative => negative
  | nan => false

/-- `value > bound`. -/
def Number.above (bound : ℚ) : Number → Bool
  | finite q => bound < q
  | infinite negative => !negative
  | nan => false

/-- The quotient by a number that is not zero. -/
def Number.div : Number → Number → Number
  | finite p, finite q => finite (p / q)
  | finite _, infinite _ => finite 0
  | infinite negative, finite q => infinite (negative != decide (q < 0))
  | _, _ => nan

/-! ## Texts -/

/-- A part of a decimal that may be missing. -/
def readPart (other : Char → Option Nat) (cs : List Char) : Option Nat :=
  if cs.isEmpty then some 0 else readGroups other cs

/-- The exponent after `e`. -/
def readExponent (other : Char → Option Nat) : List Char → Option Int
  | '-' :: cs => (readGroups other cs).map Int.negOfNat
  | '+' :: cs => (readGroups other cs).map Int.ofNat
  | cs => (readGroups other cs).map Int.ofNat

/-- A decimal without its sign: digits, a point, digits, an exponent. -/
def readDecimal (other : Char → Option Nat) (cs : List Char) : Option ℚ := do
  let mantissa := cs.takeWhile fun c => c ≠ 'e' ∧ c ≠ 'E'
  let exponent ← match cs.drop mantissa.length with
    | [] => some 0
    | _ :: cs => readExponent other cs
  let int := mantissa.takeWhile (· ≠ '.')
  let frac := mantissa.drop (int.length + 1)
  if int.isEmpty ∧ frac.isEmpty then none
  else
    let i ← readPart other int
    let f ← readPart other frac
    let places := (frac.filter (· ≠ '_')).length
    return ((i : ℚ) + f / 10 ^ places) * (10 : ℚ) ^ exponent

/-- `float(text)`. -/
def readFloat (space : Char → Bool) (other : Char → Option Nat) (cs : List Char) : Option Number :=
  let cs := stripChars space cs
  let negative := cs.head? = some '-'
  let cs := if cs.head? = some '-' ∨ cs.head? = some '+' then cs.drop 1 else cs
  let word := String.ofList (cs.map Char.toLower)
  if word = "inf" ∨ word = "infinity" then some (.infinite negative)
  else if word = "nan" then some .nan
  else (readDecimal other cs).map fun q => .finite (if negative then -q else q)

/-! ## Rounding -/

/-- `round(value)`: to the nearest integer, and to the even one of two. -/
def roundHalfEven (q : ℚ) : ℤ :=
  if q - ⌊q⌋ < 1 / 2 then ⌊q⌋
  else if 1 / 2 < q - ⌊q⌋ then ⌊q⌋ + 1
  else ⌊q⌋ + ⌊q⌋ % 2

/-- **What is above one half, and only that, rounds to a positive number.** -/
theorem pos_roundHalfEven (q : ℚ) : 0 < roundHalfEven q ↔ 1 / 2 < q := by
  have hlo := Int.floor_le q
  have hhi := Int.lt_floor_add_one q
  -- the floor decides, but for numbers below one
  rcases lt_trichotomy ⌊q⌋ 0 with hneg | hzero | hpos
  · have hfloor : ((⌊q⌋ : ℤ) : ℚ) ≤ -1 := by exact_mod_cast Int.le_sub_one_of_lt hneg
    refine iff_of_false ?_ (by linarith)
    unfold roundHalfEven
    split_ifs <;> omega
  · have hfloor : ((⌊q⌋ : ℤ) : ℚ) = 0 := by exact_mod_cast hzero
    unfold roundHalfEven
    rw [hfloor, sub_zero, hzero]
    split_ifs with hbelow habove
    · exact iff_of_false (by omega) (by linarith)
    · exact iff_of_true (by omega) habove
    · exact iff_of_false (by omega) habove
  · have hfloor : (1 : ℚ) ≤ ((⌊q⌋ : ℤ) : ℚ) := by exact_mod_cast hpos
    refine iff_of_true ?_ (by linarith)
    unfold roundHalfEven
    split_ifs <;> omega

theorem le_roundHalfEven {q : ℚ} {n : ℤ} (h : (n : ℚ) ≤ q) : n ≤ roundHalfEven q := by
  have hfloor : n ≤ ⌊q⌋ := Int.le_floor.mpr h
  unfold roundHalfEven
  split_ifs <;> omega

theorem roundHalfEven_le {q : ℚ} {n : ℤ} (h : q ≤ n) : roundHalfEven q ≤ n := by
  have hfloor : ⌊q⌋ ≤ n := by exact_mod_cast (Int.floor_le q).trans h
  unfold roundHalfEven
  split_ifs with hbelow
  · exact hfloor
  -- what is rounded up lies above its floor
  all_goals
    have hne : ⌊q⌋ ≠ n := by
      rintro rfl
      linarith
    omega

/-- `round(value, 4)`. -/
def roundFour (q : ℚ) : ℚ := roundHalfEven (q * 10000) / 10000

theorem roundFour_mem {q : ℚ} (h : 0 ≤ q ∧ q ≤ 1) : 0 ≤ roundFour q ∧ roundFour q ≤ 1 := by
  have hlo : (0 : ℤ) ≤ roundHalfEven (q * 10000) := le_roundHalfEven (by push_cast; linarith)
  have hhi : roundHalfEven (q * 10000) ≤ 10000 := roundHalfEven_le (by push_cast; linarith)
  have hlo' : (0 : ℚ) ≤ roundHalfEven (q * 10000) := by exact_mod_cast hlo
  have hhi' : (roundHalfEven (q * 10000) : ℚ) ≤ 10000 := by exact_mod_cast hhi
  unfold roundFour
  constructor <;> linarith

/-! ## Division -/

/-- `a / b`, or the fault of a division by zero. -/
def quotient {ε : Type*} (fault : ε) (a b : ℚ) : Except ε ℚ :=
  if b = 0 then .error fault else .ok (a / b)

theorem quotient_ok {ε : Type*} {fault : ε} {a b : ℚ} (h : b ≠ 0) :
    quotient fault a b = .ok (a / b) := if_neg h

end ComponentKb.Lib.Fractions
