import ComponentKb.Lib.Notation

/-!
# Timestamps in ISO 8601

The proleptic Gregorian calendar of `datetime`, with its days numbered from the first of January of
year 1, and the texts of `isoformat` of a time in UTC. A time is a number of microseconds since
1970.

* `ordinal_date`: every day has a date, and the date is of that day.
* **`fromisoformat_isoformat`**: `fromisoformat` reads back what `isoformat` writes.
-/

namespace ComponentKb.Lib.Timestamp

open Notation

/-! ## Years -/

def isLeap (year : Nat) : Bool := year % 4 = 0 && (year % 100 ≠ 0 || year % 400 = 0)

/-- `_days_before_year`. -/
def daysBeforeYear (year : Nat) : Nat :=
  let y := year - 1
  y * 365 + y / 4 - y / 100 + y / 400

/-- The year of a day, and the place of the day in it. -/
def yearOf (ordinal : Nat) : Nat × Nat :=
  let n := ordinal - 1
  let n400 := n / 146097
  let n := n % 146097
  let n100 := n / 36524
  let n := n % 36524
  let n4 := n / 1461
  let n := n % 1461
  let n1 := n / 365
  let year := n400 * 400 + n100 * 100 + n4 * 4 + n1 + 1
  -- the last day of a leap year is in no full year of its cycle
  if n1 = 4 ∨ n100 = 4 then (year - 1, 365) else (year, n % 365)

def daysInYear (year : Nat) : Nat := if isLeap year then 366 else 365

theorem daysBeforeYear_cycles {a b c d : Nat} (hb : b ≤ 3) (hc : c ≤ 24) (hd : d ≤ 3) :
    daysBeforeYear (400 * a + 100 * b + 4 * c + d + 1) =
      146097 * a + 36524 * b + 1461 * c + 365 * d := by
  unfold daysBeforeYear
  have h4 : (400 * a + 100 * b + 4 * c + d + 1 - 1) / 4 = 100 * a + 25 * b + c := by omega
  have h100 : (400 * a + 100 * b + 4 * c + d + 1 - 1) / 100 = 4 * a + b := by omega
  have h400 : (400 * a + 100 * b + 4 * c + d + 1 - 1) / 400 = a := by omega
  simp only [h4, h100, h400]
  omega

theorem isLeap_cycles {a b c d : Nat} (hb : b ≤ 3) (hc : c ≤ 24) (hd : d ≤ 3) :
    isLeap (400 * a + 100 * b + 4 * c + d + 1) ↔ d = 3 ∧ (c ≠ 24 ∨ b = 3) := by
  unfold isLeap
  simp only [Bool.and_eq_true, Bool.or_eq_true, decide_eq_true_eq]
  constructor
  · intro h
    omega
  · rintro ⟨rfl, h⟩
    omega

/-- What it is to be the day at place `k` of a year. -/
def DayOfYear (ordinal year k : Nat) : Prop :=
  daysBeforeYear year + k + 1 = ordinal ∧ k < daysInYear year ∧ 0 < year ∧
    (ordinal ≤ 3652059 → year ≤ 9999)

theorem dayOfYear_cycles {a b c d k : Nat} (hb : b ≤ 3) (hc : c ≤ 24) (hd : d ≤ 3)
    (hk : k < 365 ∨ (k = 365 ∧ d = 3 ∧ (c ≠ 24 ∨ b = 3))) :
    DayOfYear (146097 * a + 36524 * b + 1461 * c + 365 * d + k + 1)
      (400 * a + 100 * b + 4 * c + d + 1) k := by
  refine ⟨by rw [daysBeforeYear_cycles hb hc hd], ?_, by omega, by omega⟩
  unfold daysInYear
  by_cases hleap : isLeap (400 * a + 100 * b + 4 * c + d + 1)
  · rw [if_pos hleap]
    omega
  · rw [if_neg hleap]
    rw [isLeap_cycles hb hc hd] at hleap
    omega

theorem yearOf_spec (n : Nat) : DayOfYear (n + 1) (yearOf (n + 1)).1 (yearOf (n + 1)).2 := by
  unfold yearOf
  simp only [Nat.add_sub_cancel]
  -- the full cycles before the day, and what is left of each
  have ha := Nat.div_add_mod n 146097
  have hr := Nat.mod_lt n (show 146097 > 0 by decide)
  generalize n / 146097 = a at *
  generalize n % 146097 = r at *
  have hb := Nat.div_add_mod r 36524
  have hs := Nat.mod_lt r (show 36524 > 0 by decide)
  generalize r / 36524 = b at *
  generalize r % 36524 = s at *
  have hc := Nat.div_add_mod s 1461
  have ht := Nat.mod_lt s (show 1461 > 0 by decide)
  generalize s / 1461 = c at *
  generalize s % 1461 = t at *
  have hd := Nat.div_add_mod t 365
  have hk := Nat.mod_lt t (show 365 > 0 by decide)
  generalize t / 365 = d at *
  generalize t % 365 = k at *
  by_cases hcentury : b = 4
  · rw [if_pos (Or.inr hcentury)]
    have hlast := dayOfYear_cycles (a := a) (b := 3) (c := 24) (d := 3) (k := 365)
      (by decide) (by decide) (by decide) (by decide)
    rw [show n + 1 = 146097 * a + 36524 * 3 + 1461 * 24 + 365 * 3 + 365 + 1 by omega]
    convert hlast using 1
    omega
  · by_cases hleap : d = 4
    · rw [if_pos (Or.inl hleap)]
      have hlast := dayOfYear_cycles (a := a) (b := b) (c := c) (d := 3) (k := 365)
        (by omega) (by omega) (by decide) (by omega)
      rw [show n + 1 = 146097 * a + 36524 * b + 1461 * c + 365 * 3 + 365 + 1 by omega]
      convert hlast using 1
      omega
    · rw [if_neg (by omega)]
      have hday := dayOfYear_cycles (a := a) (b := b) (c := c) (d := d) (k := k)
        (by omega) (by omega) (by omega) (Or.inl hk)
      rw [show n + 1 = 146097 * a + 36524 * b + 1461 * c + 365 * d + k + 1 by omega]
      convert hday using 1
      omega

/-! ## Months -/

def daysInMonth (leap : Bool) (month : Nat) : Nat :=
  if month = 2 ∧ leap then 29 else [31, 28, 31, 30, 31, 30, 31, 31, 30, 31, 30, 31].getD (month - 1) 0

/-- `_days_before_month`. -/
def daysBeforeMonth (leap : Bool) (month : Nat) : Nat :=
  [0, 31, 59, 90, 120, 151, 181, 212, 243, 273, 304, 334].getD (month - 1) 0 +
    (if 2 < month ∧ leap then 1 else 0)

/-- The month of the day at a place in a year, and its day. -/
def monthOf (leap : Bool) (place : Nat) : Nat × Nat :=
  let month := (place + 50) / 32
  let preceding := daysBeforeMonth leap month
  if place < preceding then
    (month - 1, place - (preceding - daysInMonth leap (month - 1)) + 1)
  else (month, place - preceding + 1)

theorem monthOf_spec : ∀ leap : Bool, ∀ place < 366, (place < 365 ∨ leap) →
    daysBeforeMonth leap (monthOf leap place).1 + (monthOf leap place).2 = place + 1 ∧
      1 ≤ (monthOf leap place).1 ∧ (monthOf leap place).1 ≤ 12 ∧ 1 ≤ (monthOf leap place).2 ∧
      (monthOf leap place).2 ≤ daysInMonth leap (monthOf leap place).1 := by
  decide +kernel

/-! ## Dates -/

/-- `_ord2ymd`. -/
def dateOf (ordinal : Nat) : Nat × Nat × Nat :=
  let (year, place) := yearOf ordinal
  (year, monthOf (isLeap year) place)

/-- `_ymd2ord`. -/
def ordinalOf (year month day : Nat) : Nat :=
  daysBeforeYear year + daysBeforeMonth (isLeap year) month + day

/-- `_check_date_fields`. -/
def ValidDate (year month day : Nat) : Prop :=
  (1 ≤ year ∧ year ≤ 9999) ∧ (1 ≤ month ∧ month ≤ 12) ∧
    1 ≤ day ∧ day ≤ daysInMonth (isLeap year) month

instance (year month day : Nat) : Decidable (ValidDate year month day) :=
  inferInstanceAs (Decidable (_ ∧ _))

/-- **The date of a day is of that day.** -/
theorem ordinal_date {ordinal : Nat} (hpos : 0 < ordinal) (hlast : ordinal ≤ 3652059) :
    ValidDate (dateOf ordinal).1 (dateOf ordinal).2.1 (dateOf ordinal).2.2 ∧
      ordinalOf (dateOf ordinal).1 (dateOf ordinal).2.1 (dateOf ordinal).2.2 = ordinal := by
  obtain ⟨n, rfl⟩ : ∃ n, ordinal = n + 1 := ⟨ordinal - 1, by omega⟩
  obtain ⟨hplace, hyear, hfirst, hend⟩ := yearOf_spec n
  unfold daysInYear at hyear
  have hmonth := monthOf_spec (isLeap (yearOf (n + 1)).1) (yearOf (n + 1)).2 (by split at hyear <;> omega)
    (by
      by_cases hleap : isLeap (yearOf (n + 1)).1
      · exact Or.inr hleap
      · rw [if_neg hleap] at hyear
        exact Or.inl hyear)
  obtain ⟨hbefore, hmonths, hmonths', hdays, hdays'⟩ := hmonth
  refine ⟨⟨⟨hfirst, hend hlast⟩, ⟨hmonths, hmonths'⟩, hdays, hdays'⟩, ?_⟩
  unfold ordinalOf dateOf
  simp only
  omega

/-! ## Texts -/

/-- Microseconds of a day. -/
def dayMicros : Nat := 86400000000

/-- The first of January of year 1. -/
def epoch : Int := -62135596800000000

/-- The range of `datetime`: the years 1 to 9999. -/
def Representable (t : Int) : Prop := epoch ≤ t ∧ t < epoch + 3652059 * dayMicros

instance (t : Int) : Decidable (Representable t) := inferInstanceAs (Decidable (_ ∧ _))

/-- A field of decimal digits. -/
def field (width n : Nat) : List Char := fixed 10 width n

/-- The text of the fields of a time in UTC; a whole second is written without its microseconds. -/
def fieldsText (year month day hour minute second micros : Nat) : List Char :=
  field 4 year ++ '-' :: (field 2 month ++ '-' :: (field 2 day ++ 'T' :: (field 2 hour ++
    ':' :: (field 2 minute ++ ':' :: (field 2 second ++
      ((if micros = 0 then [] else '.' :: field 6 micros) ++ '+' :: "00:00".toList))))))

/-- `isoformat` of a time in UTC. -/
def isoformat (t : Int) : List Char :=
  let n := (t - epoch).toNat
  let (year, month, day) := dateOf (n / dayMicros + 1)
  let r := n % dayMicros
  fieldsText year month day (r / 3600000000) (r / 60000000 % 60) (r / 1000000 % 60) (r % 1000000)

def readNumber (width : Nat) : List Char → Option (Nat × List Char) :=
  readField (decimalValue fun _ => none) 10 width

/-- A character that has to come next. -/
def expect (c : Char) : List Char → Option (List Char)
  | [] => none
  | d :: cs => if d = c then some cs else none

/-- The fraction of a second, if there is one. -/
def readMicros : List Char → Option (Nat × List Char)
  | '.' :: cs => readNumber 6 cs
  | cs => some (0, cs)

/-- The sign of the offset. -/
def readSign : List Char → Option (Int × List Char)
  | '+' :: cs => some (1, cs)
  | '-' :: cs => some (-1, cs)
  | _ => none

/-- `datetime.fromisoformat` of the format that `isoformat` writes, with an offset. -/
def fromisoformat (cs : List Char) : Option Int := do
  let (year, cs) ← readNumber 4 cs
  let (month, cs) ← readNumber 2 (← expect '-' cs)
  let (day, cs) ← readNumber 2 (← expect '-' cs)
  let (hour, cs) ← readNumber 2 (← expect 'T' cs)
  let (minute, cs) ← readNumber 2 (← expect ':' cs)
  let (second, cs) ← readNumber 2 (← expect ':' cs)
  let (micros, cs) ← readMicros cs
  let (sign, cs) ← readSign cs
  let (offsetHours, cs) ← readNumber 2 cs
  let (offsetMinutes, cs) ← readNumber 2 (← expect ':' cs)
  if cs = [] ∧ ValidDate year month day ∧ hour < 24 ∧ minute < 60 ∧ second < 60 ∧
      offsetHours < 24 ∧ offsetMinutes < 60 then
    some (epoch + ((ordinalOf year month day - 1) * dayMicros +
        (hour * 3600000000 + minute * 60000000 + second * 1000000 + micros) : Nat) -
      sign * (offsetHours * 3600000000 + offsetMinutes * 60000000))
  else none

theorem readNumber_field {width n : Nat} (hn : n < 10 ^ width) (rest : List Char) :
    readNumber width (field width n ++ rest) = some (n, rest) :=
  readField_fixed (decimalValue_reads _) hn rest

@[simp] theorem expect_self (c : Char) (cs : List Char) : expect c (c :: cs) = some cs :=
  if_pos rfl

theorem readMicros_field {micros : Nat} (h : micros < 1000000) (cs : List Char) :
    readMicros ((if micros = 0 then [] else '.' :: field 6 micros) ++ '+' :: cs) =
      some (micros, '+' :: cs) := by
  by_cases hzero : micros = 0
  · rw [if_pos hzero, hzero]
    rfl
  · rw [if_neg hzero]
    exact readNumber_field h _

theorem daysInMonth_le : ∀ leap : Bool, ∀ month ≤ 12, daysInMonth leap month ≤ 31 := by decide

theorem fromisoformat_fieldsText {year month day hour minute second micros : Nat}
    (hdate : ValidDate year month day) (hhour : hour < 24) (hminute : minute < 60)
    (hsecond : second < 60) (hmicros : micros < 1000000) :
    fromisoformat (fieldsText year month day hour minute second micros) =
      some (epoch + ((ordinalOf year month day - 1) * dayMicros +
        (hour * 3600000000 + minute * 60000000 + second * 1000000 + micros) : Nat)) := by
  have hyear : year < 10 ^ 4 := Nat.lt_succ_of_le hdate.1.2
  have hmonth : month < 10 ^ 2 := Nat.lt_of_le_of_lt hdate.2.1.2 (by decide)
  have hday : day < 10 ^ 2 := Nat.lt_of_le_of_lt
    (Nat.le_trans hdate.2.2.2 (daysInMonth_le _ _ hdate.2.1.2)) (by decide)
  have hoffset : readNumber 2 "00:00".toList = some (0, ':' :: "00".toList) := by decide
  have hzero : readNumber 2 "00".toList = some (0, []) := by decide
  unfold fromisoformat fieldsText
  -- the text is read from left to right, one field after the other
  refine Option.bind_eq_some_iff.mpr ⟨_, readNumber_field hyear _, ?_⟩
  refine Option.bind_eq_some_iff.mpr ⟨_, expect_self _ _, ?_⟩
  refine Option.bind_eq_some_iff.mpr ⟨_, readNumber_field hmonth _, ?_⟩
  refine Option.bind_eq_some_iff.mpr ⟨_, expect_self _ _, ?_⟩
  refine Option.bind_eq_some_iff.mpr ⟨_, readNumber_field hday _, ?_⟩
  refine Option.bind_eq_some_iff.mpr ⟨_, expect_self _ _, ?_⟩
  refine Option.bind_eq_some_iff.mpr ⟨_, readNumber_field (Nat.lt_trans hhour (by decide)) _, ?_⟩
  refine Option.bind_eq_some_iff.mpr ⟨_, expect_self _ _, ?_⟩
  refine Option.bind_eq_some_iff.mpr ⟨_, readNumber_field (Nat.lt_trans hminute (by decide)) _, ?_⟩
  refine Option.bind_eq_some_iff.mpr ⟨_, expect_self _ _, ?_⟩
  refine Option.bind_eq_some_iff.mpr ⟨_, readNumber_field (Nat.lt_trans hsecond (by decide)) _, ?_⟩
  refine Option.bind_eq_some_iff.mpr ⟨_, readMicros_field hmicros _, ?_⟩
  refine Option.bind_eq_some_iff.mpr ⟨(1, _), rfl, ?_⟩
  refine Option.bind_eq_some_iff.mpr ⟨_, hoffset, ?_⟩
  refine Option.bind_eq_some_iff.mpr ⟨_, expect_self _ _, ?_⟩
  refine Option.bind_eq_some_iff.mpr ⟨_, hzero, ?_⟩
  refine (if_pos ⟨rfl, hdate, hhour, hminute, hsecond, by decide, by decide⟩).trans ?_
  simp

/-- **A time is read back from its text.** -/
theorem fromisoformat_isoformat {t : Int} (h : Representable t) :
    fromisoformat (isoformat t) = some t := by
  obtain ⟨hfirst, hlast⟩ := h
  have ht : t = epoch + (t - epoch).toNat := by omega
  unfold isoformat
  generalize (t - epoch).toNat = n at *
  have hday : n / dayMicros + 1 ≤ 3652059 := by
    unfold dayMicros at *
    omega
  have hsplit := Nat.div_add_mod n dayMicros
  have hrest : n % dayMicros < 86400000000 := Nat.mod_lt n (by decide)
  obtain ⟨hvalid, hordinal⟩ := ordinal_date (Nat.succ_pos _) hday
  simp only
  rw [fromisoformat_fieldsText hvalid (by omega) (Nat.mod_lt _ (by decide))
    (Nat.mod_lt _ (by decide)) (Nat.mod_lt _ (by decide)), hordinal, ht, Option.some.injEq]
  have hmicros : (n / dayMicros).succ - 1 = n / dayMicros := rfl
  rw [hmicros, Nat.mul_comm]
  omega

end ComponentKb.Lib.Timestamp
