import ComponentKb.Catalog.Text

/-!
# Numbers and units

`catalog/units.py`, over decimal numbers as Python has them: a sign, a coefficient and an exponent
of ten. Products and quotients are rounded half to even at the 64 digits of the local context.
-/

namespace ComponentKb.Catalog

/-- `decimal.Decimal`. -/
inductive Decimal where
  | finite (negative : Bool) (coefficient : Nat) (exponent : Int)
  | infinite (negative : Bool)
  | nan
  deriving DecidableEq, Repr

namespace Decimal

def isFinite : Decimal → Bool
  | finite _ _ _ => true
  | _ => false

def isZero : Decimal → Bool
  | finite _ coefficient _ => coefficient = 0
  | _ => false

def zero : Decimal := finite false 0 0

/-- `as_tuple().digits`; one digit for zero. -/
def digits (coefficient : Nat) : List Char := Nat.toDigits 10 coefficient

/-- The exponent of the leading digit. -/
def adjusted (coefficient : Nat) (exponent : Int) : Int :=
  exponent + (digits coefficient).length - 1

def maxExponent : Int := 999999999999999999

/-! ## Reading and writing -/

def natOfDigits (u : Unicode) : List Char → Option Nat :=
  List.foldl (fun n c => n.bind fun n => (u.digit c).map fun d => 10 * n + d) (some 0)

/-- The longest prefix of decimal digits. -/
def spanDigits (u : Unicode) (cs : List Char) : List Char × List Char :=
  cs.span fun c => (u.digit c).isSome

/-- An optional sign. -/
def spanSign : List Char → Bool × List Char
  | '-' :: cs => (true, cs)
  | '+' :: cs => (false, cs)
  | cs => (false, cs)

/-- The exponent part; zero when there is none. -/
def readExponent (u : Unicode) : List Char → Option Int
  | [] => some 0
  | e :: cs =>
    if e = 'e' ∨ e = 'E' then
      let (negative, cs) := spanSign cs
      if cs.isEmpty then none
      else (natOfDigits u cs).map fun n => if negative then -(n : Int) else n
    else none

/-- A finite number without its sign. -/
def readFinite (u : Unicode) (negative : Bool) (cs : List Char) : Option Decimal := do
  let (int, cs) := spanDigits u cs
  let (frac, cs) := match cs with
    | '.' :: cs => spanDigits u cs
    | cs => ([], cs)
  if int.isEmpty ∧ frac.isEmpty then none
  else
    let coefficient ← natOfDigits u (int ++ frac)
    let e ← readExponent u cs
    let exponent := e - frac.length
    -- beyond the limits of the exact context
    if adjusted coefficient exponent > maxExponent ∨ exponent < -2 * maxExponent + 1 then none
    else some (finite negative coefficient exponent)

/-- `Decimal(value)`; `none` is `InvalidOperation`. -/
def ofString (u : Unicode) (value : String) : Option Decimal :=
  let cs := (strip value).toList.filter (· ≠ '_')
  let (negative, cs) := spanSign cs
  let word := String.ofList (cs.map Char.toLower)
  if word = "inf" ∨ word = "infinity" then some (infinite negative)
  else
    let letters := cs.takeWhile fun c => (u.digit c).isNone
    let diagnostic := cs.drop letters.length
    let word := String.ofList (letters.map Char.toLower)
    if (word = "nan" ∨ word = "snan") ∧ (natOfDigits u diagnostic).isSome then some nan
    else readFinite u negative cs

/-- `str` of a finite number: plain notation for small exponents, scientific otherwise. -/
def toString : Decimal → String
  | infinite negative => (if negative then "-" else "") ++ "Infinity"
  | nan => "NaN"
  | finite negative coefficient exponent =>
    let ds := digits coefficient
    let sign := if negative then "-" else ""
    let adj := adjusted coefficient exponent
    if exponent ≤ 0 ∧ -6 ≤ adj then
      let places := exponent.natAbs
      let padded := List.replicate (places + 1 - ds.length) '0' ++ ds
      let int := padded.take (padded.length - places)
      let frac := padded.drop (padded.length - places)
      sign ++ String.ofList (if frac.isEmpty then int else int ++ '.' :: frac)
    else
      let mantissa := match ds with
        | [] => []
        | d :: rest => if rest.isEmpty then [d] else d :: '.' :: rest
      sign ++ String.ofList mantissa ++ "E" ++ (if 0 ≤ adj then "+" else "-") ++
        String.ofList (digits adj.natAbs)

/-! ## Arithmetic -/

def precision : Nat := 64

/-- Rounds half to even at the precision of the context. -/
def round (negative : Bool) (coefficient : Nat) (exponent : Int) : Decimal :=
  let drop := (digits coefficient).length - precision
  let q := coefficient / 10 ^ drop
  let r := coefficient % 10 ^ drop
  let up := 2 * r > 10 ^ drop ∨ (2 * r = 10 ^ drop ∧ q % 2 = 1)
  let q := if drop ≠ 0 ∧ up then q + 1 else q
  if q = 10 ^ precision then finite negative (10 ^ (precision - 1)) (exponent + drop + 1)
  else finite negative q (exponent + drop)

def mul : Decimal → Decimal → Decimal
  | finite n₁ c₁ e₁, finite n₂ c₂ e₂ => round (n₁ != n₂) (c₁ * c₂) (e₁ + e₂)
  | _, _ => nan

/-- Removes trailing zeros while the exponent is below the ideal one. -/
def reduce (ideal : Int) : Nat → Nat → Int → Nat × Int
  | 0, coefficient, exponent => (coefficient, exponent)
  | fuel + 1, coefficient, exponent =>
    if exponent < ideal ∧ coefficient % 10 = 0 then
      reduce ideal fuel (coefficient / 10) (exponent + 1)
    else (coefficient, exponent)

/-- Division by a number that is not zero. -/
def div : Decimal → Decimal → Decimal
  | finite n₁ c₁ e₁, finite n₂ c₂ e₂ =>
    let shift : Int := (digits c₂).length - (digits c₁).length + precision + 1
    let num := if 0 ≤ shift then c₁ * 10 ^ shift.natAbs else c₁
    let den := if 0 ≤ shift then c₂ else c₂ * 10 ^ shift.natAbs
    let exponent := e₁ - e₂ - shift
    if num % den ≠ 0 then
      -- a sticky digit keeps the rounding right
      let q := num / den
      round (n₁ != n₂) (if q % 5 = 0 then q + 1 else q) exponent
    else
      let (q, e) := reduce (e₁ - e₂) (num / den).log2 (num / den) exponent
      round (n₁ != n₂) q e
  | _, _ => nan

/-- What a column `NUMERIC(24,8)` gives back. -/
def stored : Decimal → Decimal
  | finite negative coefficient exponent =>
    if -8 ≤ exponent then finite negative (coefficient * 10 ^ (exponent + 8).natAbs) (-8)
    else finite negative (coefficient / 10 ^ (-8 - exponent).natAbs) (-8)
  | d => d

end Decimal

/-! ## Units -/

/-- The vocabulary: the preferred symbol, the family, the scale to the base unit as a coefficient
and an exponent, and the other symbols. -/
def units : List (String × String × (Nat × Int) × List String) :=
  [("Б", "data_size_bytes", (1, 0), ["B", "byte", "bytes", "байт", "байта", "байтов"]),
    ("КБ", "data_size_bytes", (1024, 0), ["KB", "KiB", "КиБ", "кБ", "килобайт"]),
    ("МБ", "data_size_bytes", (1048576, 0), ["MB", "MiB", "МиБ", "мегабайт"]),
    ("ГБ", "data_size_bytes", (1073741824, 0), ["GB", "GiB", "ГиБ", "гигабайт"]),
    ("бит", "data_size_bits", (1, 0), ["bit"]),
    ("кбит", "data_size_bits", (1000, 0), ["kbit"]),
    ("Мбит", "data_size_bits", (1000000, 0), ["Mbit"]),
    ("Гбит", "data_size_bits", (1000000000, 0), ["Gbit"]),
    ("Гц", "frequency", (1, 0), ["Hz"]),
    ("кГц", "frequency", (1000, 0), ["kHz"]),
    ("МГц", "frequency", (1000000, 0), ["MHz"]),
    ("ГГц", "frequency", (1000000000, 0), ["GHz"]),
    ("мВ", "voltage", (1, -3), ["mV"]),
    ("В", "voltage", (1, 0), ["V"]),
    ("кВ", "voltage", (1000, 0), ["kV"]),
    ("мкА", "current", (1, -6), ["uA", "\u00b5A", "\u03bcA"]),
    ("мА", "current", (1, -3), ["mA"]),
    ("А", "current", (1, 0), ["A"]),
    ("Ом", "resistance", (1, 0), ["ohm", "\u03a9", "\u2126"]),
    ("кОм", "resistance", (1000, 0), ["k\u03a9", "kohm"]),
    ("МОм", "resistance", (1000000, 0), ["M\u03a9", "Mohm"]),
    ("пФ", "capacitance", (1, -12), ["pF"]),
    ("нФ", "capacitance", (1, -9), ["nF"]),
    ("мкФ", "capacitance", (1, -6), ["uF", "\u00b5F", "\u03bcF"]),
    ("мФ", "capacitance", (1, -3), ["mF"]),
    ("Ф", "capacitance", (1, 0), ["F"]),
    ("мкс", "time", (1, -6), ["us", "\u00b5s", "\u03bcs"]),
    ("мс", "time", (1, -3), ["ms"]),
    ("с", "time", (1, 0), ["s"]),
    ("мм", "length", (1, -3), ["mm"]),
    ("см", "length", (1, -2), ["cm"]),
    ("м", "length", (1, 0), ["m"])]

/-- `_UNITS.get`. -/
def unitEntry (symbol : String) : Option (String × String × Decimal) :=
  (units.find? fun entry => entry.1 = symbol ∨ symbol ∈ entry.2.2.2).map fun entry =>
    (entry.1, entry.2.1, .finite false entry.2.2.1.1 entry.2.2.1.2)

def normalizeUnitSymbol (symbol : String) : String :=
  let symbol := strip symbol
  (unitEntry symbol).elim symbol fun entry => entry.1

def unitFamily (symbol : Option String) : Option String :=
  (unitEntry (strip (symbol.getD ""))).map fun entry => entry.2.1

def convertNumericValue (value : Decimal) (fromUnit toUnit : Option String) : Option Decimal :=
  if ¬ value.isFinite then none
  else
    let value := if value.isZero then .zero else value
    let source := normalizeUnitSymbol (fromUnit.getD "")
    let target := normalizeUnitSymbol (toUnit.getD "")
    if source = target then some value
    else
      match unitEntry source, unitEntry target with
      | some left, some right =>
        if left.2.1 ≠ right.2.1 then none
        else some ((value.mul left.2.2).div right.2.2)
      | _, _ => none

def fitsNumericStorage : Decimal → Bool
  | .finite _ coefficient exponent =>
    if coefficient = 0 then true
    else if Decimal.adjusted coefficient exponent > 15 then false
    else
      let trailingZeros := ((Decimal.digits coefficient).reverse.takeWhile (· = '0')).length
      exponent + trailingZeros ≥ -8
  | _ => false

end ComponentKb.Catalog
