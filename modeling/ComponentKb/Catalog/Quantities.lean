import ComponentKb.Catalog.Numbers
import Mathlib.Algebra.Order.Field.Power
import Mathlib.Data.Rat.Floor
import Mathlib.Tactic.FieldSimp
import Mathlib.Tactic.Linarith
import Mathlib.Tactic.NormNum
import Mathlib.Tactic.Positivity
import Mathlib.Tactic.Ring

/-!
# Quantities

What the numbers and the units of `catalog/units.py` denote: a decimal its value, a unit its scale.

* **`fitsNumericStorage_iff`**: the check on digits and exponent accepts the numbers that a column
  `NUMERIC(24,8)` keeps, and no others.
* `mul_eq`, `div_eq`: where the context of 64 digits rounds nothing.
* `stored_inj`: equal quantities are stored as the same number.
* **`convertNumericValue_exact`**: a number that fits the column converts exactly.
-/

namespace ComponentKb.Catalog

namespace Decimal

/-! ## Digits -/

theorem length_digits_le_iff {c k : Nat} (hk : 0 < k) : (digits c).length ≤ k ↔ c < 10 ^ k :=
  Nat.length_toDigits_le_iff (by omega) hk

theorem length_digits_pos (c : Nat) : 0 < (digits c).length := Nat.length_toDigits_pos

theorem lt_pow_length (c : Nat) : c < 10 ^ (digits c).length :=
  (length_digits_le_iff (length_digits_pos c)).mp le_rfl

/-- The leading digit of a number that is not zero. -/
theorem pow_length_le {c : Nat} (hc : c ≠ 0) : 10 ^ ((digits c).length - 1) ≤ c := by
  by_cases hone : (digits c).length = 1
  · rw [hone]
    simpa using Nat.one_le_iff_ne_zero.mpr hc
  · have hpos := length_digits_pos c
    by_contra hlt
    have hle := (length_digits_le_iff (by omega)).mpr (not_le.mp hlt)
    omega

/-- The zeros at the end of a number. -/
def trailingZeros (c : Nat) : Nat := ((digits c).reverse.takeWhile (· = '0')).length

theorem digitChar_eq_zero {d : Nat} (hd : d < 10) : Nat.digitChar d = '0' ↔ d = 0 := by
  have hall : ∀ d : Fin 10, Nat.digitChar d = '0' ↔ d.val = 0 := by decide
  exact hall ⟨d, hd⟩

/-- The last digit says whether there is one more zero. -/
theorem trailingZeros_eq {c : Nat} (hc : c ≠ 0) :
    trailingZeros c = if c % 10 = 0 then trailingZeros (c / 10) + 1 else 0 := by
  have hlast : Nat.digitChar (c % 10) = '0' ↔ c % 10 = 0 := digitChar_eq_zero (by omega)
  unfold trailingZeros digits
  by_cases hlt : c < 10
  · have hmod : c % 10 = c := by omega
    rw [hmod] at hlast
    rw [Nat.toDigits_of_lt_base hlt, if_neg (by omega), List.reverse_singleton]
    simp [hlast, hc]
  · rw [Nat.toDigits_of_base_le (by omega) (by omega), List.reverse_append,
      List.reverse_singleton, List.singleton_append, List.takeWhile_cons]
    by_cases hzero : c % 10 = 0
    · simp [hzero]
    · simp [hlast, hzero]

theorem pow_trailingZeros_dvd {c : Nat} (hc : c ≠ 0) : 10 ^ trailingZeros c ∣ c := by
  induction c using Nat.strong_induction_on with
  | _ c ih =>
    rw [trailingZeros_eq hc]
    by_cases hzero : c % 10 = 0
    · obtain ⟨k, hk⟩ := ih (c / 10) (by omega) (by omega)
      rw [if_pos hzero, pow_succ, mul_comm]
      refine ⟨k, ?_⟩
      rw [mul_assoc, ← hk]
      omega
    · rw [if_neg hzero]
      exact one_dvd c

/-- No further zero ends the number. -/
theorem le_trailingZeros {c j : Nat} (hc : c ≠ 0) (h : 10 ^ j ∣ c) : j ≤ trailingZeros c := by
  induction j generalizing c with
  | zero => omega
  | succ j ih =>
    obtain ⟨k, hk⟩ := h
    have hzero : c % 10 = 0 := by
      rw [hk, pow_succ, mul_comm (10 ^ j), mul_assoc, Nat.mul_mod_right]
    have hrest : c / 10 = 10 ^ j * k := by
      rw [hk, pow_succ, mul_comm (10 ^ j), mul_assoc, Nat.mul_div_cancel_left _ (by omega)]
    have hle := ih (by omega) ⟨k, hrest⟩
    rw [trailingZeros_eq hc, if_pos hzero]
    omega

/-! ## Values -/

/-- The number that a decimal denotes; zero stands for what is no number. -/
def value : Decimal → ℚ
  | finite negative coefficient exponent =>
    (if negative then -1 else 1) * (coefficient * (10 : ℚ) ^ exponent)
  | _ => 0

/-- The nearest integer, half away from zero. -/
def roundHalfAway (q : ℚ) : ℤ := if 0 ≤ q then ⌊q + 1 / 2⌋ else -⌊-q + 1 / 2⌋

/-- A number of a column `NUMERIC(24,8)`: rounded to eight places, and refused where sixteen places
before the point do not hold it. -/
def numericColumn (q : ℚ) : Option ℚ :=
  let n := roundHalfAway (q * 10 ^ 8)
  if |n| < 10 ^ 24 then some (n / 10 ^ 8) else none

theorem abs_value (negative : Bool) (c : Nat) (e : Int) :
    |value (finite negative c e)| = c * (10 : ℚ) ^ e := by
  have hpos : (0 : ℚ) ≤ c * (10 : ℚ) ^ e := by positivity
  cases negative
  · rw [value, if_neg Bool.false_ne_true, one_mul, abs_of_nonneg hpos]
  · rw [value, if_pos rfl, neg_one_mul, abs_neg, abs_of_nonneg hpos]

theorem value_eq_zero_iff {negative : Bool} {c : Nat} {e : Int} :
    value (finite negative c e) = 0 ↔ c = 0 := by
  have hten : (10 : ℚ) ^ e ≠ 0 := by positivity
  rw [← abs_eq_zero, abs_value, mul_eq_zero, or_iff_left hten, Nat.cast_eq_zero]

theorem value_pos {c : Nat} (hc : 0 < c) (e : Int) : 0 < value (finite false c e) := by
  have hcast : (0 : ℚ) < c := by exact_mod_cast hc
  simp only [value, Bool.false_eq_true, if_false, one_mul]
  positivity

/-- The exponent of the leading digit bounds the value. -/
theorem abs_value_lt_iff {negative : Bool} {c : Nat} (hc : c ≠ 0) (e : Int) :
    |value (finite negative c e)| < 10 ^ 16 ↔ adjusted c e ≤ 15 := by
  have hlength := length_digits_pos c
  have hlow : (10 : ℚ) ^ ((digits c).length - 1) ≤ c := by exact_mod_cast pow_length_le hc
  have hhigh : (c : ℚ) < 10 ^ (digits c).length := by exact_mod_cast lt_pow_length c
  have hten : (0 : ℚ) < 10 ^ e := by positivity
  have hbound : (10 : ℚ) ^ 16 = 10 ^ (16 : ℤ) := by norm_num
  rw [abs_value, adjusted, hbound]
  constructor
  · intro h
    have hlt : (10 : ℚ) ^ (((digits c).length - 1 : ℕ) + e) < 10 ^ (16 : ℤ) := by
      rw [zpow_add₀ (by norm_num), zpow_natCast]
      exact lt_of_le_of_lt (mul_le_mul_of_nonneg_right hlow hten.le) h
    have hexp := (zpow_lt_zpow_iff_right₀ (by norm_num)).mp hlt
    omega
  · intro h
    have hexp : ((digits c).length : ℤ) + e ≤ 16 := by omega
    calc (c : ℚ) * 10 ^ e < 10 ^ (digits c).length * 10 ^ e := by
          exact mul_lt_mul_of_pos_right hhigh hten
      _ = 10 ^ (((digits c).length : ℤ) + e) := by
          rw [zpow_add₀ (by norm_num), zpow_natCast]
      _ ≤ 10 ^ (16 : ℤ) := zpow_le_zpow_right₀ (by norm_num) hexp

/-- The zeros at the end make up for a small exponent. -/
theorem value_integral_iff {negative : Bool} {c : Nat} (hc : c ≠ 0) (e : Int) :
    (∃ n : ℤ, value (finite negative c e) * 10 ^ 8 = n) ↔ -8 ≤ e + trailingZeros c := by
  have hsign : (∃ n : ℤ, value (finite negative c e) * 10 ^ 8 = n) ↔
      ∃ n : ℤ, (c : ℚ) * 10 ^ (e + 8) = n := by
    have hmul : (c : ℚ) * 10 ^ (e + 8) = c * 10 ^ e * 10 ^ 8 := by
      rw [zpow_add₀ (by norm_num)]
      norm_num
      ring
    rw [hmul]
    cases negative
    · simp [value]
    · constructor <;> rintro ⟨n, hn⟩ <;> refine ⟨-n, ?_⟩ <;> push_cast <;> rw [← hn] <;>
        simp [value]
  rw [hsign]
  constructor
  · rintro ⟨n, hn⟩
    by_contra hlow
    -- otherwise a power of ten above the zeros at the end divides the coefficient
    obtain ⟨j, hj⟩ : ∃ j : ℕ, e + 8 = -(j : ℤ) := ⟨(-(e + 8)).toNat, by omega⟩
    have hwhole : (c : ℚ) = n * 10 ^ j := by
      rw [← hn, hj, zpow_neg, zpow_natCast]
      field_simp
    have hdvd : 10 ^ j ∣ c := by
      have hint : (c : ℤ) = n * 10 ^ j := by exact_mod_cast hwhole
      exact_mod_cast Dvd.intro_left n hint.symm
    have hle := le_trailingZeros hc hdvd
    omega
  · intro hhigh
    obtain ⟨k, hk⟩ := pow_trailingZeros_dvd hc
    obtain ⟨j, hj⟩ : ∃ j : ℕ, e + 8 + trailingZeros c = j :=
      ⟨(e + 8 + trailingZeros c).toNat, by omega⟩
    refine ⟨k * 10 ^ j, ?_⟩
    have hten : (10 : ℚ) ^ trailingZeros c * 10 ^ (e + 8) = 10 ^ j := by
      rw [← zpow_natCast, ← zpow_natCast, ← zpow_add₀ (by norm_num), ← hj, add_comm]
    have hvalue : (c : ℚ) = 10 ^ trailingZeros c * k := by exact_mod_cast hk
    push_cast
    rw [← hten, hvalue]
    ring

theorem roundHalfAway_intCast (n : ℤ) : roundHalfAway n = n := by
  have hfloor : ∀ m : ℤ, ⌊(m : ℚ) + 1 / 2⌋ = m := by
    intro m
    rw [Int.floor_intCast_add]
    norm_num
  by_cases hn : (0 : ℚ) ≤ n
  · rw [roundHalfAway, if_pos hn, hfloor]
  · have hneg : -(n : ℚ) = ((-n : ℤ) : ℚ) := by push_cast; rfl
    rw [roundHalfAway, if_neg hn, hneg, hfloor, neg_neg]

/-- The bound on the number and the one on its ten-millionths are the same. -/
theorem abs_lt_iff_of_scaled {q : ℚ} {n : ℤ} (hn : q * 10 ^ 8 = n) :
    |q| < 10 ^ 16 ↔ |n| < 10 ^ 24 := by
  have hscaled : |q| * 10 ^ 8 = (|n| : ℤ) := by
    rw [Int.cast_abs, ← hn, abs_mul, abs_of_pos (by norm_num : (0 : ℚ) < 10 ^ 8)]
  have hcast : |n| < 10 ^ 24 ↔ |q| * 10 ^ 8 < 10 ^ 24 := by
    rw [hscaled]
    norm_cast
  rw [hcast]
  constructor <;> intro h <;> linarith

/-- The column keeps a number iff it is below the bound and has no more than eight places. -/
theorem numericColumn_eq_iff (q : ℚ) :
    numericColumn q = some q ↔ |q| < 10 ^ 16 ∧ ∃ n : ℤ, q * 10 ^ 8 = n := by
  constructor
  · intro h
    simp only [numericColumn] at h
    split at h
    · rename_i hlt
      have hn : q * 10 ^ 8 = roundHalfAway (q * 10 ^ 8) := by
        have hq := Option.some.inj h
        rw [div_eq_iff (by norm_num)] at hq
        exact hq.symm
      exact ⟨(abs_lt_iff_of_scaled hn).mpr hlt, _, hn⟩
    · exact absurd h (by simp)
  · rintro ⟨hlt, n, hn⟩
    have habs := (abs_lt_iff_of_scaled hn).mp hlt
    simp only [numericColumn, hn, roundHalfAway_intCast]
    rw [if_pos habs, ← hn, mul_div_cancel_right₀ _ (by norm_num)]

end Decimal

/-- **What the numeric column keeps.** The check on the digits and the exponent accepts the finite
numbers below `10 ^ 16` with no more than eight decimal places, which are those that the column
stores without an error and without rounding. -/
theorem fitsNumericStorage_iff (v : Decimal) :
    (fitsNumericStorage v ↔
      v.isFinite ∧ |v.value| < 10 ^ 16 ∧ ∃ n : ℤ, v.value * 10 ^ 8 = n) ∧
    (fitsNumericStorage v ↔ v.isFinite ∧ Decimal.numericColumn v.value = some v.value) := by
  have hfits : fitsNumericStorage v ↔
      v.isFinite ∧ |v.value| < 10 ^ 16 ∧ ∃ n : ℤ, v.value * 10 ^ 8 = n := by
    cases v with
    | infinite negative => simp [fitsNumericStorage, Decimal.isFinite]
    | nan => simp [fitsNumericStorage, Decimal.isFinite]
    | finite negative c e =>
      by_cases hc : c = 0
      · subst hc
        have hzero : Decimal.value (.finite negative 0 e) = 0 := by simp [Decimal.value]
        rw [hzero]
        refine iff_of_true rfl ⟨rfl, by norm_num, 0, by norm_num⟩
      · rw [Decimal.abs_value_lt_iff hc, Decimal.value_integral_iff hc]
        simp only [fitsNumericStorage, if_neg hc, Decimal.isFinite, true_and]
        by_cases hbig : Decimal.adjusted c e > 15
        · simp [hbig, not_le.mpr hbig]
        · simp only [if_neg hbig, decide_eq_true_eq, not_lt.mp hbig, true_and]
          rfl
  exact ⟨hfits, by rw [hfits, Decimal.numericColumn_eq_iff]⟩

/-! ## Exact arithmetic -/

namespace Decimal

/-- The digits of a coefficient before the zeros at its end number no more than `n`. -/
def Significant (n c : Nat) : Prop := ∃ k m, c = k * 10 ^ m ∧ k < 10 ^ n

section Significant

variable {n n' c s : Nat} (negative negative' : Bool) (e e' : Int)

theorem Significant.mono (h : Significant n c) (hle : n ≤ n') : Significant n' c := by
  obtain ⟨k, m, hc, hk⟩ := h
  exact ⟨k, m, hc, lt_of_lt_of_le hk (Nat.pow_le_pow_right (by omega) hle)⟩

theorem Significant.mul (h : Significant n c) (hs : s < 10 ^ n') :
    Significant (n + n') (c * s) := by
  obtain ⟨k, m, rfl, hk⟩ := h
  refine ⟨k * s, m, by ring, ?_⟩
  rw [pow_add]
  exact Nat.mul_lt_mul'' hk hs

/-- Zeros taken away from the end. -/
theorem Significant.of_mul_pow {j : Nat} (h : Significant n (c * 10 ^ j)) : Significant n c := by
  obtain ⟨k, m, hc, hk⟩ := h
  by_cases hle : j ≤ m
  · refine ⟨k, m - j, ?_, hk⟩
    have hsplit : k * 10 ^ m = k * 10 ^ (m - j) * 10 ^ j := by
      rw [mul_assoc, ← pow_add, Nat.sub_add_cancel hle]
    exact Nat.eq_of_mul_eq_mul_right (by positivity) (hc.trans hsplit)
  · have hsplit : c * 10 ^ j = c * 10 ^ (j - m) * 10 ^ m := by
      rw [mul_assoc, ← pow_add, Nat.sub_add_cancel (by omega)]
    have hk' : c * 10 ^ (j - m) = k :=
      Nat.eq_of_mul_eq_mul_right (by positivity) (hsplit.symm.trans hc)
    refine ⟨c, 0, by rw [pow_zero, mul_one], lt_of_le_of_lt ?_ hk⟩
    rw [← hk']
    exact Nat.le_mul_of_pos_right c (by positivity)

/-- The digits before the zeros at the end, and the zeros. -/
theorem Significant.length_le (h : Significant n c) (hn : 0 < n) :
    ∃ m, 10 ^ m ∣ c ∧ (digits c).length ≤ n + m := by
  obtain ⟨k, m, rfl, hk⟩ := h
  refine ⟨m, Dvd.intro_left k rfl, (length_digits_le_iff (by omega)).mpr ?_⟩
  rw [pow_add]
  exact Nat.mul_lt_mul_of_pos_right hk (by positivity)

theorem value_mul_pow (c j : Nat) :
    value (finite negative (c * 10 ^ j) e) = value (finite negative c (e + j)) := by
  simp only [value]
  rw [zpow_add₀ (by norm_num), zpow_natCast]
  push_cast
  ring

/-- Rounding takes zeros away from the end of a coefficient with few enough digits before them. -/
theorem round_eq (h : Significant precision c) :
    ∃ q j : Nat, c = q * 10 ^ j ∧ round negative c e = finite negative q (e + j) := by
  obtain ⟨m, hdvd, hlength⟩ := h.length_le (by decide)
  have hdrop : 10 ^ ((digits c).length - precision) ∣ c :=
    (pow_dvd_pow 10 (by omega)).trans hdvd
  have hmod := Nat.mod_eq_zero_of_dvd hdrop
  have hq : c / 10 ^ ((digits c).length - precision) ≠ 10 ^ precision := by
    intro heq
    have hc := (Nat.div_eq_iff_eq_mul_left (by positivity) hdrop).mp heq
    have hlt : 10 ^ (precision + ((digits c).length - precision)) < 10 ^ (digits c).length := by
      rw [pow_add, ← hc]
      exact lt_pow_length c
    have hexp := (Nat.pow_lt_pow_iff_right (by omega)).mp hlt
    omega
  refine ⟨_, _, (Nat.div_mul_cancel hdrop).symm, ?_⟩
  have hten : ¬ (0 > 10 ^ ((digits c).length - precision) ∨
      0 = 10 ^ ((digits c).length - precision) ∧
        c / 10 ^ ((digits c).length - precision) % 2 = 1) := by
    have hpos : 0 < 10 ^ ((digits c).length - precision) := by positivity
    omega
  simp only [round, hmod, mul_zero, hten, and_false, if_false, hq]

theorem round_value (h : Significant precision c) :
    (round negative c e).value = value (finite negative c e) := by
  obtain ⟨q, j, rfl, hround⟩ := round_eq negative e h
  rw [hround, value_mul_pow]

/-- What `reduce` takes away are zeros at the end. -/
theorem reduce_eq (ideal : Int) (fuel c : Nat) (e : Int) :
    ∃ j : Nat, c = (reduce ideal fuel c e).1 * 10 ^ j ∧ (reduce ideal fuel c e).2 = e + j := by
  induction fuel generalizing c e with
  | zero => exact ⟨0, by simp [reduce], by simp [reduce]⟩
  | succ fuel ih =>
    rw [reduce]
    by_cases hzero : e < ideal ∧ c % 10 = 0
    · obtain ⟨j, hc, he⟩ := ih (c / 10) (e + 1)
      rw [if_pos hzero]
      refine ⟨j + 1, ?_, ?_⟩
      · rw [pow_succ, ← mul_assoc, ← hc]
        omega
      · rw [he]
        push_cast
        ring
    · rw [if_neg hzero]
      exact ⟨0, by simp, by simp⟩

theorem sign_mul (b b' : Bool) :
    (if b != b' then (-1 : ℚ) else 1) = (if b then -1 else 1) * (if b' then -1 else 1) := by
  cases b <;> cases b' <;> norm_num

/-- A product with few enough digits is exact. -/
theorem mul_eq (h : Significant n c) (hs : s < 10 ^ n') (hle : n + n' ≤ precision) :
    ∃ (q : Nat) (e'' : Int), mul (finite negative c e) (finite negative' s e') =
        finite (negative != negative') q e'' ∧ Significant (n + n') q ∧
      value (finite (negative != negative') q e'') =
        value (finite negative c e) * value (finite negative' s e') := by
  have hmul := h.mul hs
  obtain ⟨q, j, hq, hround⟩ := round_eq (negative != negative') (e + e') (hmul.mono hle)
  refine ⟨q, _, hround, (hq ▸ hmul).of_mul_pow, ?_⟩
  rw [← value_mul_pow, ← hq]
  simp only [value, sign_mul]
  rw [zpow_add₀ (by norm_num)]
  push_cast
  ring

/-- The reciprocal of a coefficient has finitely many places. -/
def Terminating (n s : Nat) : Prop := ∃ a b, a * s = 10 ^ b ∧ a < 10 ^ n ∧ b ≤ 30

/-- The division by such a coefficient comes out even, after the shift that gives the quotient one
digit more than the context has. -/
theorem quotient_eq (h : Significant n c) (hn : 0 < n) (hs : Terminating n' s) (hle : n ≤ 35) :
    let shift : Int := (digits s).length - (digits c).length + precision + 1
    ∃ q, Significant (n + n') q ∧
      (if 0 ≤ shift then c * 10 ^ shift.natAbs else c) =
        q * (if 0 ≤ shift then s else s * 10 ^ shift.natAbs) := by
  intro shift
  obtain ⟨k, m, rfl, hk⟩ := h
  obtain ⟨a, b, hab, ha, hb⟩ := hs
  have hlength : (digits (k * 10 ^ m)).length ≤ n + m := by
    rw [length_digits_le_iff (by omega), pow_add]
    exact Nat.mul_lt_mul_of_pos_right hk (by positivity)
  have hpos := length_digits_pos s
  have hshift : (b : Int) ≤ m + shift := by
    simp only [shift, precision]
    omega
  have hq : ∀ j, Significant (n + n') (k * a * 10 ^ j) := by
    intro j
    refine ⟨k * a, j, rfl, ?_⟩
    rw [pow_add]
    exact Nat.mul_lt_mul'' hk ha
  by_cases hsign : 0 ≤ shift
  · rw [if_pos hsign, if_pos hsign]
    refine ⟨_, hq (m + shift.natAbs - b), ?_⟩
    calc k * 10 ^ m * 10 ^ shift.natAbs = k * 10 ^ (m + shift.natAbs) := by rw [mul_assoc, pow_add]
      _ = k * (10 ^ (m + shift.natAbs - b) * 10 ^ b) := by
          rw [← pow_add, Nat.sub_add_cancel (by omega)]
      _ = k * a * 10 ^ (m + shift.natAbs - b) * s := by rw [← hab]; ring
  · rw [if_neg hsign, if_neg hsign]
    refine ⟨_, hq (m - shift.natAbs - b), ?_⟩
    calc k * 10 ^ m = k * (10 ^ (m - shift.natAbs - b) * 10 ^ b * 10 ^ shift.natAbs) := by
          rw [← pow_add, ← pow_add]
          congr 2
          omega
      _ = k * a * 10 ^ (m - shift.natAbs - b) * (s * 10 ^ shift.natAbs) := by rw [← hab]; ring

/-- A quotient by such a coefficient is exact. -/
theorem div_eq (h : Significant n c) (hn : 0 < n) (hs : Terminating n' s) (hpos : 0 < s)
    (hle : n ≤ 35) (hle' : n + n' ≤ precision) :
    ∃ (q : Nat) (e'' : Int), div (finite negative c e) (finite negative' s e') =
        finite (negative != negative') q e'' ∧
      value (finite (negative != negative') q e'') =
        value (finite negative c e) / value (finite negative' s e') := by
  obtain ⟨q, hq, heq⟩ := quotient_eq h hn hs hle
  generalize hshift : ((digits s).length : Int) - (digits c).length + precision + 1 = shift at heq
  have hden : 0 < (if 0 ≤ shift then s else s * 10 ^ shift.natAbs) := by
    split
    · exact hpos
    · positivity
  obtain ⟨j, hj, hexp⟩ := reduce_eq (e - e') q.log2 q (e - e' - shift)
  generalize hr : reduce (e - e') q.log2 q (e - e' - shift) = r at hj hexp
  have hfew : Significant precision r.1 := by
    rw [hj] at hq
    exact hq.of_mul_pow.mono hle'
  obtain ⟨q', j', hq', hround⟩ := round_eq (negative != negative') r.2 hfew
  refine ⟨q', r.2 + j', ?_, ?_⟩
  · rw [← hround, ← hr]
    simp only [div, hshift, heq, Nat.mul_mod_left, ne_eq, not_true_eq_false, if_false,
      Nat.mul_div_cancel _ hden]
  · rw [← value_mul_pow, ← hq', hexp, ← value_mul_pow, ← hj]
    have hs0 : (s : ℚ) ≠ 0 := by positivity
    have hvalue : (q : ℚ) * s = c * 10 ^ shift := by
      by_cases hsign : 0 ≤ shift
      · rw [if_pos hsign, if_pos hsign] at heq
        have hcast : (c : ℚ) * 10 ^ shift.natAbs = q * s := by exact_mod_cast heq
        rw [← hcast, ← zpow_natCast, Int.natAbs_of_nonneg hsign]
      · rw [if_neg hsign, if_neg hsign] at heq
        have hcast : (c : ℚ) = q * (s * 10 ^ shift.natAbs) := by exact_mod_cast heq
        have hneg : shift = -(shift.natAbs : ℤ) := by omega
        rw [hcast, hneg, zpow_neg, zpow_natCast, Int.natAbs_neg, Int.natAbs_natCast]
        field_simp
    have hten : (10 : ℚ) ^ (e - e' - shift) = 10 ^ e / 10 ^ e' / 10 ^ shift := by
      rw [zpow_sub₀ (by norm_num), zpow_sub₀ (by norm_num)]
    have hquot : (q : ℚ) = c * 10 ^ shift / s := by rw [← hvalue]; field_simp
    simp only [value, sign_mul, hten, hquot]
    cases negative <;> cases negative' <;> simp <;> field_simp

end Significant

end Decimal

/-! ## Numbers of the column -/

namespace Decimal

/-- A finite number; zero has no sign. -/
def Proper (v : Decimal) : Prop := ∃ n c e, v = finite n c e ∧ (c = 0 → n = false)

section Stored

variable {v w : Decimal} {negative negative' : Bool} {c c' : Nat} {e : Int}

/-- Numbers of the same exponent are equal when their values are. -/
theorem finite_inj (hzero : c = 0 → negative = false) (hzero' : c' = 0 → negative' = false)
    (h : value (finite negative c e) = value (finite negative' c' e)) :
    finite negative c e = finite negative' c' e := by
  have hten : (0 : ℚ) < 10 ^ e := by positivity
  have hcoefficient : c = c' := by
    have habs := congrArg abs h
    rw [abs_value, abs_value] at habs
    exact_mod_cast mul_right_cancel₀ hten.ne' habs
  subst hcoefficient
  by_cases hc : c = 0
  · rw [hzero hc, hzero' hc]
  · have hpos : (0 : ℚ) < c * 10 ^ e := by
      have : (0 : ℚ) < c := by exact_mod_cast Nat.pos_of_ne_zero hc
      positivity
    cases negative <;> cases negative'
    · rfl
    · simp only [value, if_true, Bool.false_eq_true, if_false] at h
      linarith
    · simp only [value, if_true, Bool.false_eq_true, if_false] at h
      linarith
    · rfl

/-- What fits the column has no more than 24 digits before the zeros at its end. -/
theorem significant_of_fits (h : fitsNumericStorage (finite negative c e)) :
    Significant 24 c := by
  by_cases hc : c = 0
  · exact ⟨0, 0, by simp [hc], by norm_num⟩
  · simp only [fitsNumericStorage, if_neg hc] at h
    split at h
    · exact absurd h Bool.false_ne_true
    · rename_i hbig
      have hplaces : -8 ≤ e + trailingZeros c := of_decide_eq_true h
      obtain ⟨k, hk⟩ := pow_trailingZeros_dvd hc
      refine ⟨k, trailingZeros c, by rw [mul_comm]; exact hk, ?_⟩
      have hlength : (digits c).length ≤ 24 + trailingZeros c := by
        unfold adjusted at hbig
        omega
      have hlt : c < 10 ^ trailingZeros c * 10 ^ 24 := by
        rw [← pow_add, add_comm]
        exact (length_digits_le_iff (by omega)).mp hlength
      exact Nat.lt_of_mul_lt_mul_left (lt_of_eq_of_lt hk.symm hlt)

/-- The column gives back what it was given. -/
theorem stored_eq (h : fitsNumericStorage (finite negative c e)) :
    ∃ c', stored (finite negative c e) = finite negative c' (-8) ∧ (c' = 0 ↔ c = 0) ∧
      value (finite negative c' (-8)) = value (finite negative c e) := by
  by_cases he : -8 ≤ e
  · refine ⟨c * 10 ^ (e + 8).natAbs, by simp [stored, he], by simp, ?_⟩
    rw [value_mul_pow]
    congr 2
    omega
  · have hdvd : 10 ^ (-8 - e).natAbs ∣ c := by
      by_cases hc : c = 0
      · rw [hc]
        exact dvd_zero _
      · simp only [fitsNumericStorage, if_neg hc] at h
        split at h
        · exact absurd h Bool.false_ne_true
        · have hplaces : -8 ≤ e + trailingZeros c := of_decide_eq_true h
          exact (pow_dvd_pow 10 (by omega)).trans (pow_trailingZeros_dvd hc)
    obtain ⟨k, rfl⟩ := hdvd
    have hk : 10 ^ (-8 - e).natAbs * k / 10 ^ (-8 - e).natAbs = k :=
      Nat.mul_div_cancel_left k (by positivity)
    refine ⟨k, by simp [stored, he, hk], by simp, ?_⟩
    rw [mul_comm, value_mul_pow]
    congr 2
    omega

theorem stored_value (h : fitsNumericStorage v) : v.stored.value = v.value := by
  cases v with
  | infinite negative => rfl
  | nan => rfl
  | finite negative c e =>
    obtain ⟨c', hstored, -, hvalue⟩ := stored_eq h
    rw [hstored, hvalue]

/-- Equal quantities are stored as the same number. -/
theorem stored_inj (hv : fitsNumericStorage v) (hw : fitsNumericStorage w) (hpv : Proper v)
    (hpw : Proper w) (h : v.value = w.value) : v.stored = w.stored := by
  obtain ⟨n, c, e, rfl, hzero⟩ := hpv
  obtain ⟨n', c', e', rfl, hzero'⟩ := hpw
  obtain ⟨k, hk, hkzero, hkvalue⟩ := stored_eq hv
  obtain ⟨k', hk', hkzero', hkvalue'⟩ := stored_eq hw
  rw [hk, hk']
  exact finite_inj (fun hz => hzero (hkzero.mp hz)) (fun hz => hzero' (hkzero'.mp hz))
    (hkvalue.trans (h.trans hkvalue'.symm))

end Stored

end Decimal

/-! ## Units -/

/-- The scale of a unit; a symbol outside the vocabulary counts for itself. -/
def unitScale (unit : Option String) : ℚ :=
  (unitEntry (strip (unit.getD ""))).elim 1 fun entry => entry.2.2.value

/-- Units that convert into each other: one symbol, or two of one family. -/
def Compatible (a b : Option String) : Prop :=
  normalizeUnitSymbol (a.getD "") = normalizeUnitSymbol (b.getD "") ∨
    ∃ family, unitFamily a = some family ∧ unitFamily b = some family

/-- The scales of the vocabulary have few digits, and so have their reciprocals. -/
theorem units_scales : ∀ entry ∈ units, 0 < entry.2.2.1.1 ∧ entry.2.2.1.1 < 10 ^ 10 ∧
    ∃ b ∈ List.range 31, entry.2.2.1.1 ∣ 10 ^ b ∧ 10 ^ b / entry.2.2.1.1 < 10 ^ 30 := by
  decide +kernel

/-- The preferred symbol of an entry finds the entry. -/
theorem units_preferred : ∀ entry ∈ units,
    unitEntry entry.1 = some (entry.1, entry.2.1, .finite false entry.2.2.1.1 entry.2.2.1.2) ∧
      strip entry.1 = entry.1 := by
  decide +kernel

theorem unitEntry_preferred {symbol : String} {found : String × String × Decimal}
    (h : unitEntry symbol = some found) :
    unitEntry found.1 = some found ∧ strip found.1 = found.1 := by
  obtain ⟨entry, hentry, rfl⟩ := Option.map_eq_some_iff.mp h
  exact units_preferred entry (List.mem_of_find?_eq_some hentry)

theorem unitEntry_spec {symbol : String} {found : String × String × Decimal}
    (h : unitEntry symbol = some found) :
    ∃ (s : Nat) (e : Int), found.2.2 = .finite false s e ∧
      0 < s ∧ s < 10 ^ 10 ∧ Decimal.Terminating 30 s := by
  obtain ⟨entry, hentry, rfl⟩ := Option.map_eq_some_iff.mp h
  have hmem := List.mem_of_find?_eq_some hentry
  obtain ⟨hpos, hlt, b, hb, hdvd, hinverse⟩ := units_scales entry hmem
  refine ⟨_, _, rfl, hpos, hlt, _, b, Nat.div_mul_cancel hdvd,
    hinverse, ?_⟩
  have := List.mem_range.mp hb
  omega

/-- Normalizing a symbol does not change the unit it names. -/
theorem unitEntry_normalizeUnitSymbol (symbol : String) :
    unitEntry (normalizeUnitSymbol symbol) = unitEntry (strip symbol) := by
  cases h : unitEntry (strip symbol) with
  | none => simp [normalizeUnitSymbol, h]
  | some found =>
    simp only [normalizeUnitSymbol, h, Option.elim_some]
    exact (unitEntry_preferred h).1

theorem unitScale_eq (unit : Option String) :
    unitScale unit =
      (unitEntry (normalizeUnitSymbol (unit.getD ""))).elim 1 fun entry => entry.2.2.value := by
  rw [unitEntry_normalizeUnitSymbol]
  rfl

theorem unitFamily_eq (unit : Option String) :
    unitFamily unit =
      (unitEntry (normalizeUnitSymbol (unit.getD ""))).map fun entry => entry.2.1 := by
  rw [unitEntry_normalizeUnitSymbol]
  rfl

theorem unitScale_pos (unit : Option String) : 0 < unitScale unit := by
  unfold unitScale
  cases h : unitEntry (strip (unit.getD "")) with
  | none => exact one_pos
  | some found =>
    obtain ⟨s, e, hs, hpos, -⟩ := unitEntry_spec h
    rw [Option.elim_some, hs]
    exact Decimal.value_pos hpos e

section Conversion

variable {v w : Decimal} {a b : Option String}

/-- A number converts just between compatible units. -/
theorem compatible_of_convert (h : convertNumericValue v a b = some w) : Compatible a b := by
  simp only [convertNumericValue] at h
  by_cases hfinite : v.isFinite
  · rw [if_neg (not_not.mpr hfinite)] at h
    by_cases hsame : normalizeUnitSymbol (a.getD "") = normalizeUnitSymbol (b.getD "")
    · exact Or.inl hsame
    · rw [if_neg hsame] at h
      split at h
      · rename_i left right hleft hright
        by_cases hfamily : left.2.1 = right.2.1
        · refine Or.inr ⟨left.2.1, ?_, ?_⟩
          · rw [unitFamily_eq, hleft, Option.map_some]
          · rw [unitFamily_eq, hright, Option.map_some, hfamily]
        · rw [if_pos hfamily] at h
          cases h
      · cases h
  · rw [if_pos hfinite] at h
    cases h

/-- **Conversion is exact.** A number that fits the column converts between compatible units, and
the quantity stays the same: at the digits of the context nothing is rounded. -/
theorem convertNumericValue_exact (hfits : fitsNumericStorage v) (hproper : v.Proper)
    (hcompatible : Compatible a b) :
    ∃ w, convertNumericValue v a b = some w ∧ w.Proper ∧
      w.value * unitScale b = v.value * unitScale a := by
  obtain ⟨n, c, e, rfl, hzero⟩ := hproper
  have hsignificant := Decimal.significant_of_fits hfits
  obtain ⟨v, hv, hvalue⟩ : ∃ v, v = (if (Decimal.finite n c e).isZero then .zero else
      Decimal.finite n c e) ∧ v.value = (Decimal.finite n c e).value ∧
        ∃ c e, v = Decimal.finite n c e ∧ Decimal.Significant 24 c ∧ (c = 0 → n = false) := by
    refine ⟨_, rfl, ?_⟩
    by_cases hc : c = 0
    · subst hc
      rw [if_pos (by simp [Decimal.isZero]), hzero rfl]
      exact ⟨by simp [Decimal.value, Decimal.zero], 0, 0, rfl, hsignificant, fun _ => rfl⟩
    · rw [if_neg (by simp [Decimal.isZero, hc])]
      exact ⟨rfl, c, e, rfl, hsignificant, hzero⟩
  obtain ⟨hvalue, c', e', rfl, hsignificant', hzero'⟩ := hvalue
  simp only [convertNumericValue, Decimal.isFinite, not_true_eq_false, if_false, ← hv]
  by_cases hsame : normalizeUnitSymbol (a.getD "") = normalizeUnitSymbol (b.getD "")
  · refine ⟨_, if_pos hsame, ⟨n, c', e', rfl, hzero'⟩, ?_⟩
    rw [hvalue, unitScale_eq a, unitScale_eq b, hsame]
  · obtain ⟨family, ha, hb⟩ := hcompatible.resolve_left hsame
    rw [unitFamily_eq] at ha hb
    obtain ⟨left, hleft, hleftFamily⟩ := Option.map_eq_some_iff.mp ha
    obtain ⟨right, hright, hrightFamily⟩ := Option.map_eq_some_iff.mp hb
    obtain ⟨s, es, hs, hspos, hslt, -⟩ := unitEntry_spec hleft
    obtain ⟨t, et, ht, htpos, -, hinverse⟩ := unitEntry_spec hright
    obtain ⟨q, eq, hmul, hqsignificant, hqvalue⟩ :=
      Decimal.mul_eq n false e' es hsignificant' hslt (by decide)
    obtain ⟨r, er, hdiv, hrvalue⟩ :=
      Decimal.div_eq (n != false) false eq et hqsignificant (by omega) hinverse htpos (by omega)
        (by decide)
    have hscale := (Decimal.value_pos htpos et).ne'
    refine ⟨.finite ((n != false) != false) r er, ?_, ⟨_, r, er, rfl, ?_⟩, ?_⟩
    · rw [if_neg hsame, hleft, hright]
      simp only [hs, ht, hmul, hdiv]
      rw [if_neg (not_not.mpr (hleftFamily.trans hrightFamily.symm))]
    · -- a quotient is zero just when the number is
      intro hr
      rw [hqvalue, Decimal.value_eq_zero_iff.mpr hr, eq_comm, div_eq_zero_iff, or_iff_left hscale,
        mul_eq_zero, or_iff_left (Decimal.value_pos hspos es).ne', Decimal.value_eq_zero_iff]
        at hrvalue
      rw [hzero' hrvalue]
      rfl
    · rw [hrvalue, hqvalue, hvalue, unitScale_eq a, unitScale_eq b, hleft, hright]
      simp only [Option.elim_some, hs, ht]
      exact div_mul_cancel₀ _ hscale

end Conversion

end ComponentKb.Catalog
