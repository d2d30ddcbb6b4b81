import Mathlib

/-!
# Numbers written in digits

Fixed fields of digits, as they stand in timestamps and identifiers, and decimal integers as `str`
writes and `int` reads them.

* `read_fixed`, `readField_fixed`: a field of digits is read back.
* **`readUuid_uuidText`**: `UUID(str(id))` is the id.
* **`readInt_intText`**: `int(str(n))` is the number.
-/

namespace ComponentKb.Lib.Notation

/-! ## Digits -/

/-- The value of a hexadecimal digit. -/
def hexValue (c : Char) : Option Nat :=
  if '0' ≤ c ∧ c ≤ '9' then some (c.toNat - '0'.toNat)
  else if 'a' ≤ c ∧ c ≤ 'f' then some (c.toNat - 'a'.toNat + 10)
  else if 'A' ≤ c ∧ c ≤ 'F' then some (c.toNat - 'A'.toNat + 10)
  else none

/-- The value of a decimal digit; `other` are those outside ASCII. -/
def decimalValue (other : Char → Option Nat) (c : Char) : Option Nat :=
  if '0' ≤ c ∧ c ≤ '9' then some (c.toNat - '0'.toNat) else other c

/-- A digit has its value in the base. -/
def Reads (value : Char → Option Nat) (base : Nat) : Prop :=
  ∀ d < base, value (Nat.digitChar d) = some d

theorem hexValue_reads : Reads hexValue 16 := by
  unfold Reads
  decide

theorem decimalValue_reads (other : Char → Option Nat) : Reads (decimalValue other) 10 := by
  have hdigit : ∀ d < 10, ('0' ≤ Nat.digitChar d ∧ Nat.digitChar d ≤ '9') ∧
      (Nat.digitChar d).toNat - '0'.toNat = d := by decide
  intro d hd
  rw [decimalValue, if_pos (hdigit d hd).1, (hdigit d hd).2]

section Read

variable {value : Char → Option Nat} {base : Nat}

/-- The number that digits write in a base. -/
def read (value : Char → Option Nat) (base : Nat) (cs : List Char) : Option Nat :=
  cs.foldl (fun n c => n.bind fun n => (value c).map fun d => base * n + d) (some 0)

theorem read_append_digit (hvalue : Reads value base) {cs : List Char} {n d : Nat}
    (hn : read value base cs = some n) (hd : d < base) :
    read value base (cs ++ [Nat.digitChar d]) = some (base * n + d) := by
  unfold read at hn ⊢
  rw [List.foldl_append, hn]
  simp [hvalue d hd]

/-- A number in a field of `width` digits. -/
def fixed (base : Nat) : (width n : Nat) → List Char
  | 0, _ => []
  | width + 1, n => fixed base width (n / base) ++ [Nat.digitChar (n % base)]

@[simp] theorem length_fixed (base width n : Nat) : (fixed base width n).length = width := by
  induction width generalizing n with
  | zero => rfl
  | succ width ih => rw [fixed, List.length_append, ih, List.length_singleton]

theorem mem_fixed {width n : Nat} (hbase : 0 < base) {c : Char} (h : c ∈ fixed base width n) :
    ∃ d < base, c = Nat.digitChar d := by
  induction width generalizing n with
  | zero => cases h
  | succ width ih =>
    rcases List.mem_append.mp h with h | h
    · exact ih h
    · exact ⟨n % base, Nat.mod_lt n hbase, List.mem_singleton.mp h⟩

theorem read_fixed (hvalue : Reads value base) {width n : Nat} (hn : n < base ^ width) :
    read value base (fixed base width n) = some n := by
  induction width generalizing n with
  | zero =>
    obtain rfl : n = 0 := by simpa using hn
    rfl
  | succ width ih =>
    have hpos : 0 < base := Nat.pos_of_ne_zero fun hzero => by simp [hzero] at hn
    have hdiv : n / base < base ^ width := Nat.div_lt_of_lt_mul (Nat.pow_succ' ▸ hn)
    rw [fixed, read_append_digit hvalue (ih hdiv) (Nat.mod_lt n hpos), Nat.div_add_mod]

/-- A field of digits at the front. -/
def readField (value : Char → Option Nat) (base width : Nat) (cs : List Char) :
    Option (Nat × List Char) :=
  if cs.length < width then none
  else (read value base (cs.take width)).map fun n => (n, cs.drop width)

theorem readField_fixed (hvalue : Reads value base) {width n : Nat} (hn : n < base ^ width)
    (rest : List Char) :
    readField value base width (fixed base width n ++ rest) = some (n, rest) := by
  have hlength := length_fixed base width n
  rw [readField, if_neg (by rw [List.length_append]; omega), List.take_left' hlength,
    List.drop_left' hlength, read_fixed hvalue hn]
  rfl

/-- Decimal digits without leading zeros. -/
theorem read_toDigits (hvalue : Reads value 10) (n : Nat) :
    read value 10 (Nat.toDigits 10 n) = some n := by
  induction n using Nat.strongRecOn with
  | ind n ih =>
    rw [Nat.toDigits_eq_if (by decide)]
    split
    · rename_i hn
      have hnone : read value 10 [] = some 0 := rfl
      simpa using read_append_digit hvalue hnone hn
    · rename_i hn
      rw [read_append_digit hvalue (ih (n / 10) (by omega)) (Nat.mod_lt n (by decide)),
        Nat.div_add_mod]

end Read

/-- `str.strip` of the characters that `drop` names. -/
def stripChars (drop : Char → Bool) (cs : List Char) : List Char :=
  ((cs.dropWhile drop).reverse.dropWhile drop).reverse

theorem stripChars_eq_self {drop : Char → Bool} {cs : List Char} (h : ∀ c ∈ cs, drop c = false) :
    stripChars drop cs = cs := by
  have hkept : ∀ cs : List Char, (∀ c ∈ cs, drop c = false) → cs.dropWhile drop = cs := by
    intro cs h
    cases cs with
    | nil => rfl
    | cons c cs => rw [List.dropWhile_cons_of_neg (by simp [h c])]
  rw [stripChars, hkept cs h, hkept cs.reverse fun c hc => h c (List.mem_reverse.mp hc),
    List.reverse_reverse]

/-! ## Identifiers -/

/-- `str` of an identifier of 128 bits: groups of 8, 4, 4, 4 and 12 digits. -/
def uuidText (id : Nat) : List Char :=
  let ds := fixed 16 32 id
  ds.take 8 ++ '-' :: (ds.drop 8).take 4 ++ '-' :: (ds.drop 12).take 4 ++
    '-' :: (ds.drop 16).take 4 ++ '-' :: ds.drop 20

/-- `UUID(text)`: 32 hexadecimal digits; a URN prefix, braces and hyphens are optional. -/
def readUuid (cs : List Char) : Option Nat :=
  let cs := if "urn:uuid:".toList.isPrefixOf cs then cs.drop 9 else cs
  let digits := (stripChars (fun c => c = '{' || c = '}') cs).filter (· ≠ '-')
  if digits.length = 32 then read hexValue 16 digits else none

theorem mem_uuidText {id : Nat} {c : Char} (h : c ∈ uuidText id) :
    c = '-' ∨ ∃ d < 16, c = Nat.digitChar d := by
  have hdigits : ∀ c ∈ fixed 16 32 id, ∃ d < 16, c = Nat.digitChar d :=
    fun c hc => mem_fixed (by decide) hc
  simp only [uuidText, List.mem_append, List.mem_cons] at h
  rcases h with (((h | h | h) | h | h) | h | h) | h | h
  all_goals first | exact Or.inl h | refine Or.inr (hdigits c ?_)
  · exact List.mem_of_mem_take h
  · exact List.mem_of_mem_drop (List.mem_of_mem_take h)
  · exact List.mem_of_mem_drop (List.mem_of_mem_take h)
  · exact List.mem_of_mem_drop (List.mem_of_mem_take h)
  · exact List.mem_of_mem_drop h

/-- **The text of an identifier is read as the identifier.** -/
theorem readUuid_uuidText {id : Nat} (h : id < 2 ^ 128) : readUuid (uuidText id) = some id := by
  have hplain : ∀ d < 16, Nat.digitChar d ≠ '-' ∧ Nat.digitChar d ≠ 'u' ∧
      Nat.digitChar d ≠ '{' ∧ Nat.digitChar d ≠ '}' := by decide
  have hchar : ∀ c ∈ uuidText id, c ≠ 'u' ∧ c ≠ '{' ∧ c ≠ '}' := by
    intro c hc
    rcases mem_uuidText hc with rfl | ⟨d, hd, rfl⟩
    · decide
    · exact (hplain d hd).2
  have hurn : "urn:uuid:".toList.isPrefixOf (uuidText id) = false := by
    rw [Bool.eq_false_iff]
    intro hurn
    obtain ⟨rest, hrest⟩ := List.isPrefixOf_iff_prefix.mp hurn
    exact (hchar 'u' (hrest ▸ List.mem_append_left rest (by decide))).1 rfl
  have hdigits : ∀ c ∈ fixed 16 32 id, decide (c ≠ '-') = true := by
    intro c hc
    obtain ⟨d, hd, rfl⟩ := mem_fixed (by decide) hc
    exact decide_eq_true (hplain d hd).1
  -- without the hyphens the groups are the digits
  have hfilter : (uuidText id).filter (· ≠ '-') = fixed 16 32 id := by
    have hgroup : ∀ ds : List Char, (∀ c ∈ ds, c ∈ fixed 16 32 id) → ds.filter (· ≠ '-') = ds :=
      fun ds hds => List.filter_eq_self.mpr fun c hc => hdigits c (hds c hc)
    have hcons : ∀ ds : List Char, ('-' :: ds).filter (· ≠ '-') = ds.filter (· ≠ '-') :=
      fun ds => List.filter_cons_of_neg (by decide)
    simp only [uuidText, List.filter_append, hcons]
    rw [hgroup _ fun c hc => List.mem_of_mem_take hc,
      hgroup _ fun c hc => List.mem_of_mem_drop (List.mem_of_mem_take hc),
      hgroup _ fun c hc => List.mem_of_mem_drop (List.mem_of_mem_take hc),
      hgroup _ fun c hc => List.mem_of_mem_drop (List.mem_of_mem_take hc),
      hgroup _ fun c hc => List.mem_of_mem_drop hc]
    rw [← List.take_add, ← List.take_add, ← List.take_add, List.take_append_drop]
  have hstrip : stripChars (fun c => c = '{' || c = '}') (uuidText id) = uuidText id :=
    stripChars_eq_self fun c hc => by simp [(hchar c hc).2]
  unfold readUuid
  simp only [hurn, Bool.false_eq_true, if_false, hstrip, hfilter, length_fixed, if_true]
  exact read_fixed hexValue_reads (by simpa using h)

/-! ## Decimal integers -/

/-- `str` of an integer. -/
def intText (n : Int) : List Char :=
  if n < 0 then '-' :: Nat.toDigits 10 n.natAbs else Nat.toDigits 10 n.natAbs

/-- Digits in groups that single underscores part. -/
def readGroups (other : Char → Option Nat) (cs : List Char) : Option Nat :=
  let groups := cs.splitOn '_'
  if groups.any List.isEmpty then none else read (decimalValue other) 10 groups.flatten

/-- `int(text)`: spaces around it, a sign, and groups of digits of any script. -/
def readInt (space : Char → Bool) (other : Char → Option Nat) (cs : List Char) : Option Int :=
  match stripChars space cs with
  | '-' :: cs => (readGroups other cs).map Int.negOfNat
  | '+' :: cs => (readGroups other cs).map Int.ofNat
  | cs => (readGroups other cs).map Int.ofNat

theorem readGroups_toDigits (other : Char → Option Nat) (n : Nat) :
    readGroups other (Nat.toDigits 10 n) = some n := by
  rw [readGroups, List.splitOn_eq_singleton Nat.underscore_not_in_toDigits]
  simp [read_toDigits (decimalValue_reads other) n, Nat.toDigits_ne_nil]

/-- **The text of an integer is read as the integer.** -/
theorem readInt_intText {space : Char → Bool} (hminus : space '-' = false)
    (hdigit : ∀ c : Char, c.isDigit → space c = false) (other : Char → Option Nat) (n : Int) :
    readInt space other (intText n) = some n := by
  have hdigits : ∀ c ∈ Nat.toDigits 10 n.natAbs, c.isDigit :=
    fun c hc => Nat.isDigit_of_mem_toDigits (by decide) (by decide) hc
  have hstrip : stripChars space (intText n) = intText n := by
    refine stripChars_eq_self fun c hc => ?_
    unfold intText at hc
    by_cases hneg : n < 0
    · rw [if_pos hneg] at hc
      rcases List.mem_cons.mp hc with rfl | hc
      · exact hminus
      · exact hdigit c (hdigits c hc)
    · rw [if_neg hneg] at hc
      exact hdigit c (hdigits c hc)
  rw [readInt, hstrip, intText]
  by_cases hneg : n < 0
  · rw [if_pos hneg]
    change (readGroups other _).map Int.negOfNat = _
    rw [readGroups_toDigits, Option.map_some, Option.some.injEq, Int.negOfNat_eq,
      Int.ofNat_eq_natCast]
    omega
  · rw [if_neg hneg]
    -- no sign stands before the digits
    have hunsigned : ∀ ds : List Char, (∀ c ∈ ds, c.isDigit) →
        (match ds with
          | '-' :: cs => (readGroups other cs).map Int.negOfNat
          | '+' :: cs => (readGroups other cs).map Int.ofNat
          | cs => (readGroups other cs).map Int.ofNat) =
        (readGroups other ds).map Int.ofNat := by
      intro ds hds
      split
      · exact absurd (hds '-' List.mem_cons_self) (by decide)
      · exact absurd (hds '+' List.mem_cons_self) (by decide)
      · rfl
    rw [hunsigned _ hdigits, readGroups_toDigits, Option.map_some, Option.some.injEq]
    exact Int.natAbs_of_nonneg (Int.not_lt.mp hneg)

end ComponentKb.Lib.Notation
