import ComponentKb.Catalog.Text
import ComponentKb.Lib.Notation
import ComponentKb.Lib.Numerals
import ComponentKb.Lib.Spelling
import ComponentKb.Lib.Splitting
import ComponentKb.Pipeline.Facts

/-!
# Normalized values

`normalize_value` (`imports/pipeline/normalization/values.py`). A regular expression tries its
alternatives in order and gives back what it took when it cannot go on; the readings below are
written so that nothing has to be given back. A number, a run of spaces and a run of letters are
taken whole, as no shorter one is followed by what the pattern asks for next. What a shorter unit
can be followed by is tried (`rangeMatch`).
-/

namespace ComponentKb.Pipeline.Values

open ComponentKb.Catalog (Unicode isSlugChar isSpace)
open Lib Lib.Notation Lib.Numerals Lib.Spelling

abbrev Chars := List Char

inductive ValueKind where
  | auto | voltage | current | temperature | frequency | dimensions | percent | pressure
  | interface | text
  deriving DecidableEq, Repr

def ValueKind.value : ValueKind → String
  | .auto => "auto"
  | .voltage => "voltage"
  | .current => "current"
  | .temperature => "temperature"
  | .frequency => "frequency"
  | .dimensions => "dimensions"
  | .percent => "percent"
  | .pressure => "pressure"
  | .interface => "interface"
  | .text => "text"

structure ValueNormalization where
  value : Chars
  unit : Option Chars
  ruleId : String
  confidence : NormalizationConfidence
  deriving DecidableEq

/-! ## Characters -/

/-- The letter that a character is compared as under `re.IGNORECASE`. -/
def ignoreCase (c : Char) : Char :=
  if 'A' ≤ c ∧ c ≤ 'Z' then c.toLower
  else if c = 'İ' ∨ c = 'ı' then 'i'
  else if c = 'ſ' then 's'
  else if c = '\u212a' then 'k'
  else if c = '\u039c' ∨ c = '\u03bc' then '\u00b5'
  else c

/-- The letters of a word; a star is `\s*`. -/
def pieces : Chars → List (Piece Char)
  | '*' :: c :: cs => ⟨true, c⟩ :: pieces cs
  | c :: cs => ⟨false, c⟩ :: pieces cs
  | [] => []

def spelling (word : String) : List (Piece Char) := pieces word.toList

/-- What follows a word at the start of a text. -/
def behind (word : List (Piece Char)) (s : Chars) : Option Chars := rest ignoreCase isSpace word s

def spaces (s : Chars) : Chars := s.dropWhile isSpace

/-! ## Units -/

/-- The spellings of a unit and its symbol, of `_QUANTITY_UNITS`. An optional letter gives two
spellings, the longer one first. -/
def quantityUnits : ValueKind → List (List String × String)
  | .voltage =>
    [(["millivolts", "millivolt", "mv"], "mV"),
     (["kilovolts", "kilovolt", "kv"], "kV"),
     (["volts", "volt", "v"], "V")]
  | .current =>
    [(["microamperes", "microampere", "microamps", "microamp", "µa", "ua"], "µA"),
     (["milliamperes", "milliampere", "milliamps", "milliamp", "ma"], "mA"),
     (["amperes", "ampere", "amps", "amp", "a"], "A")]
  | .temperature =>
    [(["degrees*celsius", "degree*celsius", "degree*c", "°c", "celsius"], "°C"),
     (["degrees*fahrenheit", "degree*fahrenheit", "degree*f", "°f", "fahrenheit"], "°F")]
  | .frequency =>
    [(["gigahertz", "ghz"], "GHz"), (["megahertz", "mhz"], "MHz"), (["kilohertz", "khz"], "kHz"),
     (["hertz", "hz"], "Hz")]
  | .percent => [(["percent", "%"], "%")]
  | .pressure =>
    [(["kilopascals", "kilopascal", "kpa"], "kPa"),
     (["hectopascals", "hectopascal", "hpa"], "hPa"),
     (["pascals", "pascal", "pa"], "Pa")]
  | _ => []

/-- The spellings of `unit_pattern`, in the order in which they are tried. -/
def spellings (kind : ValueKind) : List (List (Piece Char)) :=
  (quantityUnits kind).flatMap fun (words, _) => words.map spelling

/-- A unit that was matched, with what follows it. -/
structure UnitGroup where
  text : Chars
  after : Chars
  deriving DecidableEq, Repr

/-- The units that a text starts with. -/
def unitGroups (kind : ValueKind) (s : Chars) : List UnitGroup :=
  (spellings kind).filterMap fun word =>
    (behind word s).map fun after => ⟨s.take (s.length - after.length), after⟩

/-- `_canonical_unit`. -/
def canonicalUnit (kind : ValueKind) (unit : Chars) : Option Chars :=
  ((quantityUnits kind).find? fun (words, _) =>
    words.any fun word => behind (spelling word) unit = some []).map fun row => row.2.toList

/-! ## Numbers -/

section

variable (u : Unicode)

/-- `_NUMBER` at the start of a text, and the rest. -/
def number (s : Chars) : Option (Chars × Chars) :=
  match s with
  | '+' :: r => (numeral (decimalValue u.digit) r).map fun (m, r) => ('+' :: m, r)
  | '-' :: r => (numeral (decimalValue u.digit) r).map fun (m, r) => ('-' :: m, r)
  | s => numeral (decimalValue u.digit) s

/-- `text.rstrip(c)`. -/
def rstrip (c : Char) (s : Chars) : Chars := (s.reverse.dropWhile (· = c)).reverse

/-- `_number`. -/
def numberText (value : Chars) : Chars :=
  let stripped := value.dropWhile (· = '+')
  let stripped := if '.' ∈ stripped then rstrip '.' (rstrip '0' stripped) else stripped
  if stripped = ['-', '0'] ∨ stripped = [] then ['0'] else stripped

/-- `_clean`. -/
def clean (value : Chars) : Chars := collapse isSpace ' ' (u.nfkc (String.ofList value)).toList

/-- `_with_suffix`. -/
def withSuffix (value suffix : Chars) : Chars :=
  if clean u suffix = [] then value else value ++ ' ' :: clean u suffix

/-! ## Quantities -/

/-- What follows `_RANGE_SEPARATOR`. -/
def rangeSeparator (s : Chars) : Option Chars :=
  ["to", "-", "–", "—", "~"].findSome? fun word => behind (spelling word) s

/-- What follows `x`, `×` or `by`. -/
def axisSeparator (s : Chars) : Option Chars :=
  ["x", "×", "by"].findSome? fun word => behind (spelling word) s

/-- The groups of `range_match`; those behind the second number are read off the place where it
ends. -/
structure RangeMatch where
  first : Chars
  firstUnit : Option UnitGroup
  second : Chars
  place : Chars

/-- The part of `range_match` behind the first unit, up to the second number. -/
def rangeEnd (s : Chars) : Option (Chars × Chars) := do
  let s ← rangeSeparator (spaces s)
  let (second, s) ← number u (spaces s)
  some (second, spaces s)

/-- `range_match`. The first unit is one that a separator and a number follow; with none of them,
it is left out. -/
def rangeMatch (kind : ValueKind) (value : Chars) : Option RangeMatch := do
  let (first, s) ← number u (spaces value)
  let s := spaces s
  ((unitGroups kind s).map some ++ [none]).findSome? fun (unit : Option UnitGroup) =>
    (rangeEnd u ((unit.map UnitGroup.after).getD s)).map fun (second, place) =>
      ⟨first, unit, second, place⟩

def RangeMatch.secondUnit (kind : ValueKind) (groups : RangeMatch) : Option UnitGroup :=
  (unitGroups kind groups.place).head?

def RangeMatch.suffix (kind : ValueKind) (groups : RangeMatch) : Chars :=
  spaces (((groups.secondUnit kind).map UnitGroup.after).getD groups.place)

/-- The numbers of a quantity. -/
inductive Amount where
  | range (first second : Chars)
  | tolerance (number : Chars)
  | scalar (number : Chars)

/-- What `_normalize_quantity` read: the numbers, the units with what follows them, the symbol of
the unit, and the rest of the text. -/
structure Quantity where
  amount : Amount
  units : List UnitGroup
  canonical : Chars
  suffix : Chars

def rangeQuantity (kind : ValueKind) (value : Chars) : Option Quantity := do
  let groups ← rangeMatch u kind value
  let unit ← (groups.secondUnit kind).or groups.firstUnit
  let canonical ← canonicalUnit kind unit.text
  if ∀ unit ∈ groups.firstUnit, canonicalUnit kind unit.text = some canonical then
    some ⟨.range groups.first groups.second,
      groups.firstUnit.toList ++ (groups.secondUnit kind).toList, canonical, groups.suffix kind⟩
  else none

/-- A number and a unit at the start of a text. -/
def measured (kind : ValueKind) (amount : Chars → Amount) (value : Chars) : Option Quantity := do
  let (number, s) ← number u (spaces value)
  let unit ← (unitGroups kind (spaces s)).head?
  let canonical ← canonicalUnit kind unit.text
  some ⟨amount number, [unit], canonical, spaces unit.after⟩

/-- `tolerance_match`. -/
def toleranceQuantity (kind : ValueKind) (value : Chars) : Option Quantity :=
  match spaces value with
  | '±' :: s => measured u kind .tolerance s
  | _ => none

/-- The reading that `_normalize_quantity` returns the value of. -/
def quantity (kind : ValueKind) (value : Chars) : Option Quantity :=
  (rangeQuantity u kind value).or
    ((toleranceQuantity u kind value).or (measured u kind .scalar value))

def Amount.text : Amount → Chars
  | .range first second => numberText first ++ '–' :: numberText second
  | .tolerance number => '±' :: numberText number
  | .scalar number => numberText number

def Amount.rule : Amount → String
  | .range .. => "range"
  | .tolerance _ => "tolerance"
  | .scalar _ => "scalar"

def Quantity.normalization (kind : ValueKind) (q : Quantity) : ValueNormalization where
  value := withSuffix u (q.amount.text ++ ' ' :: q.canonical) q.suffix
  unit := some q.canonical
  ruleId := "quantity." ++ kind.value ++ "." ++ q.amount.rule ++ ".v1"
  confidence := .high

/-- `_normalize_quantity`. -/
def normalizeQuantity (kind : ValueKind) (value : Chars) : Option ValueNormalization :=
  (quantity u kind value).map (Quantity.normalization u kind)

/-! ## Dimensions -/

/-- The groups of `_DIMENSIONS`; the last one is a run of letters that ends the text. -/
structure Dimensions where
  first : Chars
  second : Chars
  third : Option Chars
  rawUnit : UnitGroup

/-- `[A-Za-z]`. -/
def isLatin (c : Char) : Bool := 'a' ≤ ignoreCase c ∧ ignoreCase c ≤ 'z'

/-- A separator and a number. -/
def axis (s : Chars) : Option (Chars × Chars) := do
  let s ← axisSeparator (spaces s)
  number u (spaces s)

/-- `_DIMENSIONS.fullmatch`; a third number that is there is never left out. -/
def dimensionsMatch (value : Chars) : Option Dimensions := do
  let (first, s) ← number u (spaces value)
  let (second, s) ← axis u s
  let (third, s) := match axis u s with
    | some (third, s) => (some third, s)
    | none => (none, s)
  let s := spaces s
  if spaces (s.dropWhile isLatin) = [] then
    some ⟨first, second, third, ⟨s.takeWhile isLatin, s.dropWhile isLatin⟩⟩
  else none

/-- `units` of `_normalize_dimensions`. -/
def dimensionUnits : List (String × String) :=
  [("mm", "mm"), ("millimeter", "mm"), ("millimeters", "mm"), ("cm", "cm"), ("centimeter", "cm"),
   ("centimeters", "cm"), ("px", "px"), ("pixel", "px"), ("pixels", "px")]

/-- The symbol for the letters behind the numbers; there need not be any. -/
def dimensionUnit (rawUnit : Chars) : Option (Option Chars) :=
  if rawUnit = [] then some none
  else (dimensionUnits.find? fun row => row.1 = u.casefold (String.ofList rawUnit)).map
    fun row => some row.2.toList

/-- `_normalize_dimensions`. -/
def normalizeDimensions (value : Chars) : Option ValueNormalization := do
  let groups ← dimensionsMatch u value
  let unit ← dimensionUnit u groups.rawUnit.text
  let values := [numberText groups.first, numberText groups.second] ++
    (groups.third.map numberText).toList
  let normalized := [' ', '×', ' '].intercalate values
  some {
    value := match unit with
      | some unit => normalized ++ ' ' :: unit
      | none => normalized
    unit
    ruleId := "dimensions.axes.v1"
    confidence := .high }

/-! ## Interfaces -/

/-- `_INTERFACES`, without the word boundaries; an optional part gives two words, and the spaces of
`can bus` are one after `_clean`. -/
def interfaces : List (List String × String) :=
  [(["i2c", "i²c", "iic"], "I2C"), (["spi"], "SPI"), (["uart"], "UART"),
   (["analogue", "analog"], "analog"), (["digital"], "digital"), (["can bus", "can"], "CAN"),
   (["wi fi", "wi-fi", "wifi"], "Wi-Fi"), (["bluetooth"], "Bluetooth")]

/-- `\w`. -/
def isWord (c : Char) : Bool := u.isAlnum c || c = '_'

/-- `\b` between two texts. -/
def boundary (before after : Chars) : Bool :=
  (before.getLast?.any (isWord u)) != (after.head?.any (isWord u))

/-- `pattern.search`, of a word between two boundaries. -/
def searchWord (word : String) (value : Chars) : Bool :=
  (List.range (value.length + 1)).any fun start =>
    boundary u (value.take start) (value.drop start) &&
      match behind (spelling word) (value.drop start) with
      | some after => boundary u (value.take (value.length - after.length)) after
      | none => false

/-- `normalize_interface`. -/
def normalizeInterface (value : Chars) : List ValueNormalization :=
  ((interfaces.filter fun (words, _) => words.any fun word => searchWord u word (clean u value)).map
    fun row => ⟨row.2.toList, none, "interface.aliases.v1", .high⟩).dedup

/-! ## Names -/

/-- `_MANUFACTURERS`. -/
def manufacturers : List (String × String) :=
  [("seeed", "Seeed Studio"), ("seeed studio", "Seeed Studio"), ("seeedstudio", "Seeed Studio"),
   ("seeed technology", "Seeed Studio"), ("seeed technology co ltd", "Seeed Studio")]

/-- `normalize_manufacturer`. -/
def normalizeManufacturer (value : Chars) : ValueNormalization :=
  let cleaned := clean u value
  let key := collapse (fun c => !isSlugChar c) ' ' (u.casefold (String.ofList cleaned)).toList
  match manufacturers.find? fun row => row.1.toList = key with
  | some row => ⟨row.2.toList, none, "manufacturer.aliases.v1", .high⟩
  | none => ⟨cleaned, none, "manufacturer.nfkc.v1", .low⟩

/-- `normalize_part_number`. -/
def normalizePartNumber (value : Chars) : ValueNormalization :=
  let cleaned := (clean u value).map fun c => if c = '–' ∨ c = '—' ∨ c = '−' then '-' else c
  let isPlain (c : Char) : Bool := isAlnumAscii c || c ∈ ['.', '_', '+', ' ', '-']
  ⟨if cleaned ≠ [] ∧ cleaned.all isPlain then cleaned.map Char.toUpper else cleaned, none,
    "part-number.ascii-case.v1", .medium⟩

/-! ## Values -/

/-- The kinds that `AUTO` tries. -/
def candidates : List ValueKind :=
  [.voltage, .current, .temperature, .frequency, .percent, .pressure]

/-- What is left of a value that no rule applies to. -/
def plainText (cleaned : Chars) : ValueNormalization :=
  ⟨cleaned, none, "text.nfkc-whitespace.v1", .low⟩

/-- `normalize_value`. -/
def normalizeValue (value : Chars) (kind : ValueKind) : ValueNormalization :=
  let cleaned := clean u value
  match kind with
  | .auto =>
    (candidates.findSome? fun candidate => normalizeQuantity u candidate cleaned).getD
      (plainText cleaned)
  | .voltage | .current | .temperature | .frequency | .percent | .pressure =>
    (normalizeQuantity u kind cleaned).getD (plainText cleaned)
  | .dimensions => (normalizeDimensions u cleaned).getD (plainText cleaned)
  | .interface =>
    let found := normalizeInterface u cleaned
    if found = [] then plainText cleaned
    else ⟨[',', ' '].intercalate (found.map ValueNormalization.value), none, "interface.aliases.v1",
      .high⟩
  | .text => plainText cleaned

end

end ComponentKb.Pipeline.Values
