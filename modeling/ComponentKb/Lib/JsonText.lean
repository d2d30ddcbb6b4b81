import ComponentKb.Lib.Notation
import ComponentKb.Lib.Records
import ComponentKb.Lib.Utf8

/-!
# JSON as text

`dumps` writes a value without spaces and with all characters as they are, but for quotes,
backslashes and control characters. A dictionary is the list of its fields, which a canonical text
has in the order of their keys. `loads` reads a text: spaces may stand between its parts, and it has
no fractions and no pairs of surrogates.

* `readString_escaped`, `readInteger_text`: strings and integers are read back.
* **`loads_dumps`**: what `dumps` writes, `loads` reads.
-/

namespace ComponentKb.Lib.JsonText

open Lib.Notation Lib.Records

abbrev Chars := List Char

/-- The digits that an integer may have. -/
def maxDigits : Nat := 4300

/-- A value that the language can hold and read: keys differ, and integers are not too long. -/
inductive Regular : Json → Prop
  | null : Regular .null
  | bool (b : Bool) : Regular (.bool b)
  | int {n : Int} (h : n.natAbs < 10 ^ maxDigits) : Regular (.int n)
  | str (s : String) : Regular (.str s)
  | list {items : List Json} (h : ∀ item ∈ items, Regular item) : Regular (.list items)
  | dict {fields : Record} (hkeys : (fields.map Prod.fst).Nodup)
    (h : ∀ field ∈ fields, Regular field.2) : Regular (.dict fields)

theorem regular_natural {n : Nat} (h : n < 1000000) : Regular (.int n) := by
  have hpow : ∀ k, 6 ≤ k → 10 ^ 6 ≤ 10 ^ k := fun k hk => Nat.pow_le_pow_right (by decide) hk
  exact .int (Nat.lt_of_lt_of_le h (hpow maxDigits (by decide)))

/-! ## Writing -/

/-- A character inside quotes. -/
def escaped (c : Char) : Chars :=
  if c = '"' then ['\\', '"']
  else if c = '\\' then ['\\', '\\']
  else if c = '\n' then ['\\', 'n']
  else if c = '\r' then ['\\', 'r']
  else if c = '\t' then ['\\', 't']
  else if c.toNat = 8 then ['\\', 'b']
  else if c.toNat = 12 then ['\\', 'f']
  else if c.toNat < 32 then '\\' :: 'u' :: fixed 16 4 c.toNat
  else [c]

def quoted (s : String) : Chars := '"' :: s.toList.flatMap escaped ++ ['"']

mutual

/-- `json.dumps(value, ensure_ascii=False, separators=(",", ":"))`. -/
def dumps : Json → Chars
  | .null => ['n', 'u', 'l', 'l']
  | .bool true => ['t', 'r', 'u', 'e']
  | .bool false => ['f', 'a', 'l', 's', 'e']
  | .int n => intText n
  | .str s => quoted s
  | .list items => '[' :: dumpsItems items ++ [']']
  | .dict fields => '{' :: dumpsFields fields ++ ['}']

def dumpsItems : List Json → Chars
  | [] => []
  | [item] => dumps item
  | item :: items => dumps item ++ ',' :: dumpsItems items

def dumpsFields : List (String × Json) → Chars
  | [] => []
  | [(key, value)] => quoted key ++ ':' :: dumps value
  | (key, value) :: fields => quoted key ++ ':' :: dumps value ++ ',' :: dumpsFields fields

end

/-! ## Reading -/

/-- The blanks of the grammar. -/
def isBlankChar (c : Char) : Bool := c = ' ' || c = '\t' || c = '\n' || c = '\r'

def skip (s : Chars) : Chars := s.dropWhile isBlankChar

/-- One character, after blanks. -/
def expect (c : Char) (s : Chars) : Option Chars :=
  match skip s with
  | [] => none
  | d :: rest => if d = c then some rest else none

/-- The character that an escape stands for. -/
def unescaped (c : Char) : Option Char :=
  if c = '"' ∨ c = '\\' ∨ c = '/' then some c
  else if c = 'n' then some '\n'
  else if c = 'r' then some '\r'
  else if c = 't' then some '\t'
  else if c = 'b' then some (Char.ofNat 8)
  else if c = 'f' then some (Char.ofNat 12)
  else none

/-- A string behind its first quote, and the rest. -/
def readString : Nat → Chars → Option (Chars × Chars)
  | 0, _ => none
  | _ + 1, [] => none
  | fuel + 1, c :: s =>
    if c = '"' then some ([], s)
    else if c = '\\' then
      match s with
      | [] => none
      | 'u' :: s => do
        let (n, s) ← readField hexValue 16 4 s
        let (text, rest) ← readString fuel s
        if n.isValidChar then some (Char.ofNat n :: text, rest) else none
      | e :: s => do
        let d ← unescaped e
        let (text, rest) ← readString fuel s
        some (d :: text, rest)
    else if c.toNat < 32 then none
    else (readString fuel s).map fun (text, rest) => (c :: text, rest)

/-- An integer at the start of a text. -/
def readInteger (s : Chars) : Option (Int × Chars) :=
  match s with
  | '-' :: s => (read (decimalValue fun _ => none) 10 (s.takeWhile Char.isDigit)).bind fun n =>
      if s.takeWhile Char.isDigit = [] then none
      else some (Int.negOfNat n, s.dropWhile Char.isDigit)
  | s => (read (decimalValue fun _ => none) 10 (s.takeWhile Char.isDigit)).bind fun n =>
      if s.takeWhile Char.isDigit = [] then none
      else some (Int.ofNat n, s.dropWhile Char.isDigit)

mutual

/-- A value at the start of a text, and the rest. -/
def readValue : Nat → Chars → Option (Json × Chars)
  | 0, _ => none
  | fuel + 1, s =>
    match skip s with
    | 'n' :: 'u' :: 'l' :: 'l' :: rest => some (.null, rest)
    | 't' :: 'r' :: 'u' :: 'e' :: rest => some (.bool true, rest)
    | 'f' :: 'a' :: 'l' :: 's' :: 'e' :: rest => some (.bool false, rest)
    | '"' :: rest => (readString rest.length.succ rest).map fun (text, rest) =>
        (.str (String.ofList text), rest)
    | '[' :: rest =>
      match expect ']' rest with
      | some rest => some (.list [], rest)
      | none => (readItems fuel rest).map fun (items, rest) => (.list items, rest)
    | '{' :: rest =>
      match expect '}' rest with
      | some rest => some (.dict [], rest)
      | none => (readFields fuel rest).map fun (fields, rest) => (.dict fields, rest)
    | s => (readInteger s).map fun (n, rest) => (.int n, rest)

/-- Items up to the bracket. -/
def readItems : Nat → Chars → Option (List Json × Chars)
  | 0, _ => none
  | fuel + 1, s => do
    let (item, s) ← readValue fuel s
    match expect ',' s with
    | some s => do
      let (items, rest) ← readItems fuel s
      some (item :: items, rest)
    | none => (expect ']' s).map fun rest => ([item], rest)

/-- Fields up to the brace. -/
def readFields : Nat → Chars → Option (List (String × Json) × Chars)
  | 0, _ => none
  | fuel + 1, s => do
    let s ← expect '"' s
    let (key, s) ← readString s.length.succ s
    let s ← expect ':' s
    let (value, s) ← readValue fuel s
    match expect ',' s with
    | some s => do
      let (fields, rest) ← readFields fuel s
      some ((String.ofList key, value) :: fields, rest)
    | none => (expect '}' s).map fun rest => ([(String.ofList key, value)], rest)

end

/-- `json.loads` of a text. -/
def loads (s : Chars) : Option Json :=
  match readValue (s.length + 1) s with
  | some (value, rest) => if skip rest = [] then some value else none
  | none => none

/-! ## Strings are read back -/

theorem readString_char {fuel : Nat} (c : Char) (s : Chars) :
    readString (fuel + 1) (escaped c ++ s) =
      (readString fuel s).map fun (text, rest) => (c :: text, rest) := by
  unfold escaped
  split
  · rename_i h
    subst h
    cases h : readString fuel s <;> simp [readString, unescaped, h]
  split
  · rename_i h
    subst h
    cases h : readString fuel s <;> simp [readString, unescaped, h]
  split
  · rename_i h
    subst h
    cases h : readString fuel s <;> simp [readString, unescaped, h]
  split
  · rename_i h
    subst h
    cases h : readString fuel s <;> simp [readString, unescaped, h]
  split
  · rename_i h
    subst h
    cases h : readString fuel s <;> simp [readString, unescaped, h]
  split
  · rename_i h
    have hc : c = Char.ofNat 8 := by rw [← h, Char.ofNat_toNat]
    subst hc
    cases h : readString fuel s <;> simp [readString, unescaped, h]
  split
  · rename_i h
    have hc : c = Char.ofNat 12 := by rw [← h, Char.ofNat_toNat]
    subst hc
    cases h : readString fuel s <;> simp [readString, unescaped, h]
  split
  · rename_i h
    have hread : readField hexValue 16 4 (fixed 16 4 c.toNat ++ s) = some (c.toNat, s) :=
      readField_fixed hexValue_reads (by omega) s
    have hvalid : c.toNat.isValidChar := Or.inl (by omega)
    cases hs : readString fuel s <;> simp [readString, hread, hs, hvalid, Char.ofNat_toNat]
  · rename_i hquote hslash _ _ _ _ _ hcontrol
    simp [readString, hquote, hslash, hcontrol]

/-- **A quoted string is read back.** -/
theorem readString_escaped (cs rest : Chars) {fuel : Nat} (h : cs.length < fuel) :
    readString fuel (cs.flatMap escaped ++ '"' :: rest) = some (cs, rest) := by
  induction cs generalizing fuel with
  | nil =>
    obtain ⟨fuel, rfl⟩ := Nat.exists_eq_succ_of_ne_zero (Nat.ne_of_gt h)
    simp [readString]
  | cons c cs ih =>
    obtain ⟨fuel, rfl⟩ := Nat.exists_eq_succ_of_ne_zero (Nat.ne_zero_of_lt h)
    rw [List.flatMap_cons, List.append_assoc, readString_char, ih (by simpa using h)]
    rfl

theorem length_le_flatMap_escaped (cs : Chars) : cs.length ≤ (cs.flatMap escaped).length := by
  induction cs with
  | nil => exact Nat.le_refl 0
  | cons c cs ih =>
    have hone : 1 ≤ (escaped c).length := by
      unfold escaped
      repeat' split
      all_goals simp
    rw [List.flatMap_cons, List.length_append, List.length_cons]
    omega

/-! ## Integers are read back -/

/-- A text does not go on with a digit. -/
def Stops (rest : Chars) : Prop := ∀ c ∈ rest.head?, c.isDigit = false

theorem takeWhile_digits {digits rest : Chars} (hdigits : ∀ c ∈ digits, c.isDigit = true)
    (hrest : Stops rest) : (digits ++ rest).takeWhile Char.isDigit = digits ∧
      (digits ++ rest).dropWhile Char.isDigit = rest := by
  have hnone : rest.takeWhile Char.isDigit = [] ∧ rest.dropWhile Char.isDigit = rest := by
    cases rest with
    | nil => exact ⟨rfl, rfl⟩
    | cons c rest =>
      have hc : c.isDigit = false := hrest c rfl
      simp [hc]
  rw [List.takeWhile_append_of_pos hdigits, List.dropWhile_append_of_pos hdigits, hnone.1, hnone.2,
    List.append_nil]
  exact ⟨rfl, rfl⟩

/-- **An integer is read back.** -/
theorem readInteger_text (n : Int) {rest : Chars} (hrest : Stops rest) :
    readInteger (intText n ++ rest) = some (n, rest) := by
  have hdigits : ∀ c ∈ Nat.toDigits 10 n.natAbs, c.isDigit = true :=
    fun c hc => Nat.isDigit_of_mem_toDigits (by decide) (by decide) hc
  obtain ⟨htake, hdrop⟩ := takeWhile_digits hdigits hrest
  have hread := read_toDigits (decimalValue_reads fun _ => none) n.natAbs
  have hne : Nat.toDigits 10 n.natAbs ≠ [] := Nat.toDigits_ne_nil
  unfold intText
  by_cases hneg : n < 0
  · rw [if_pos hneg, List.cons_append]
    simp only [readInteger, htake, hdrop, hread, Option.bind_some, if_neg hne]
    rw [Int.negOfNat_eq]
    have habs : -(n.natAbs : Int) = n := by omega
    rw [Int.ofNat_eq_natCast, habs]
  · rw [if_neg hneg]
    have hminus : ∀ s, Nat.toDigits 10 n.natAbs ++ rest ≠ '-' :: s := by
      intro s h
      cases htext : Nat.toDigits 10 n.natAbs with
      | nil => exact hne htext
      | cons c cs =>
        rw [htext, List.cons_append] at h
        have hc := hdigits c (htext ▸ List.mem_cons_self)
        rw [List.head_eq_of_cons_eq h] at hc
        exact absurd hc (by decide)
    unfold readInteger
    split
    · rename_i s h
      exact absurd h (hminus s)
    · simp only [htake, hdrop, hread, Option.bind_some, if_neg hne]
      have habs : (n.natAbs : Int) = n := by omega
      simp [habs]

/-! ## Values are read back -/

theorem skip_cons {c : Char} {s : Chars} (h : isBlankChar c = false) : skip (c :: s) = c :: s := by
  simp [skip, h]

theorem expect_self {c : Char} {s : Chars} (h : isBlankChar c = false) :
    expect c (c :: s) = some s := by
  simp [expect, skip_cons h]

theorem expect_other {c d : Char} {s : Chars} (h : isBlankChar d = false) (hne : d ≠ c) :
    expect c (d :: s) = none := by
  simp [expect, skip_cons h, hne]

/-- What a value starts with. -/
def Opens (c : Char) : Prop :=
  c = 'n' ∨ c = 't' ∨ c = 'f' ∨ c = '"' ∨ c = '[' ∨ c = '{' ∨ c = '-' ∨ c.isDigit = true

theorem Opens.plain {c : Char} (h : Opens c) :
    isBlankChar c = false ∧ c ≠ ']' ∧ c ≠ '}' ∧ c ≠ ',' := by
  have hdigit : ∀ d : Char, d.isDigit = false → c.isDigit = true → c ≠ d := by
    rintro d hd hc rfl
    rw [hd] at hc
    cases hc
  rcases h with rfl | rfl | rfl | rfl | rfl | rfl | rfl | h
  all_goals try decide
  refine ⟨?_, hdigit _ (by decide) h, hdigit _ (by decide) h, hdigit _ (by decide) h⟩
  simp [isBlankChar, hdigit ' ' (by decide) h, hdigit '\t' (by decide) h,
    hdigit '\n' (by decide) h, hdigit '\r' (by decide) h]

theorem dumps_opens (v : Json) : ∃ c cs, dumps v = c :: cs ∧ Opens c := by
  cases v with
  | null => exact ⟨'n', _, by rw [dumps], by simp [Opens]⟩
  | bool b =>
    cases b with
    | true => exact ⟨'t', _, by rw [dumps], by simp [Opens]⟩
    | false => exact ⟨'f', _, by rw [dumps], by simp [Opens]⟩
  | int n =>
    rw [dumps, intText]
    by_cases hneg : n < 0
    · rw [if_pos hneg]
      exact ⟨'-', _, rfl, by simp [Opens]⟩
    · rw [if_neg hneg]
      cases htext : Nat.toDigits 10 n.natAbs with
      | nil => exact absurd htext Nat.toDigits_ne_nil
      | cons c cs =>
        have hc : c.isDigit = true := Nat.isDigit_of_mem_toDigits (b := 10) (n := n.natAbs)
          (by decide) (by decide) (htext ▸ List.mem_cons_self)
        exact ⟨c, cs, rfl, by simp [Opens, hc]⟩
  | str s => exact ⟨'"', _, by rw [dumps, quoted, List.cons_append], by simp [Opens]⟩
  | list items => exact ⟨'[', _, by rw [dumps, List.cons_append], by simp [Opens]⟩
  | dict fields => exact ⟨'{', _, by rw [dumps, List.cons_append], by simp [Opens]⟩

theorem dumpsItems_cons (item : Json) {items : List Json} (h : items ≠ []) :
    dumpsItems (item :: items) = dumps item ++ ',' :: dumpsItems items := by
  cases items with
  | nil => exact absurd rfl h
  | cons next items =>
    rw [dumpsItems]
    exact h

theorem dumpsFields_cons (key : String) (value : Json) {fields : List (String × Json)}
    (h : fields ≠ []) : dumpsFields ((key, value) :: fields) =
      quoted key ++ ':' :: dumps value ++ ',' :: dumpsFields fields := by
  cases fields with
  | nil => exact absurd rfl h
  | cons next fields =>
    rw [dumpsFields]
    exact h

theorem dumps_ne_nil (v : Json) : 1 ≤ (dumps v).length := by
  obtain ⟨c, cs, h, -⟩ := dumps_opens v
  rw [h, List.length_cons]
  omega

theorem readString_quoted (s : String) (rest : Chars) {fuel : Nat}
    (h : (s.toList.flatMap escaped).length < fuel) :
    readString fuel (s.toList.flatMap escaped ++ '"' :: rest) = some (s.toList, rest) :=
  readString_escaped s.toList rest (Nat.lt_of_le_of_lt (length_le_flatMap_escaped s.toList) h)

/-- What the readers of values, of items and of fields do with `fuel`. -/
structure ReadsBack (fuel : Nat) : Prop where
  value : ∀ v rest, (dumps v).length ≤ fuel → Stops rest →
    readValue fuel (dumps v ++ rest) = some (v, rest)
  items : ∀ items rest, items ≠ [] → (dumpsItems items).length < fuel →
    readItems fuel (dumpsItems items ++ ']' :: rest) = some (items, rest)
  fields : ∀ fields rest, fields ≠ [] → (dumpsFields fields).length < fuel →
    readFields fuel (dumpsFields fields ++ '}' :: rest) = some (fields, rest)

theorem stops_cons {c : Char} {rest : Chars} (h : c.isDigit = false) : Stops (c :: rest) := by
  intro d hd
  obtain rfl := Option.some.inj hd
  exact h

theorem readItems_step {fuel : Nat} (h : ReadsBack fuel) (items : List Json) (rest : Chars)
    (hne : items ≠ []) (hlength : (dumpsItems items).length < fuel + 1) :
    readItems (fuel + 1) (dumpsItems items ++ ']' :: rest) = some (items, rest) := by
  cases items with
  | nil => exact absurd rfl hne
  | cons item items =>
    unfold readItems
    by_cases hlast : items = []
    · subst hlast
      rw [dumpsItems] at hlength ⊢
      rw [h.value item _ (by omega) (stops_cons (by decide))]
      simp [expect_other (c := ',') (d := ']') (by decide) (by decide),
        expect_self (c := ']') (by decide)]
    · rw [dumpsItems_cons item hlast] at hlength ⊢
      rw [List.length_append, List.length_cons] at hlength
      rw [List.append_assoc, List.cons_append,
        h.value item _ (by omega) (stops_cons (by decide))]
      simp [expect_self (c := ',') (by decide), h.items items rest hlast (by omega)]

theorem readFields_step {fuel : Nat} (h : ReadsBack fuel) (fields : List (String × Json))
    (rest : Chars) (hne : fields ≠ []) (hlength : (dumpsFields fields).length < fuel + 1) :
    readFields (fuel + 1) (dumpsFields fields ++ '}' :: rest) = some (fields, rest) := by
  cases fields with
  | nil => exact absurd rfl hne
  | cons field fields =>
    obtain ⟨key, value⟩ := field
    unfold readFields
    by_cases hlast : fields = []
    · subst hlast
      rw [dumpsFields, quoted] at hlength ⊢
      simp only [List.length_append, List.length_cons, List.length_nil] at hlength
      simp only [List.append_assoc, List.cons_append, List.nil_append,
        expect_self (c := '"') (by decide), Option.bind_eq_bind, Option.bind_some]
      rw [readString_quoted _ _ (by simp only [List.length_append, List.length_cons]; omega)]
      simp [expect_self (c := ':') (by decide),
        h.value value _ (by omega) (stops_cons (c := '}') (by decide)),
        expect_other (c := ',') (d := '}') (by decide) (by decide),
        expect_self (c := '}') (by decide)]
    · rw [dumpsFields_cons key value hlast, quoted] at hlength ⊢
      simp only [List.length_append, List.length_cons, List.length_nil] at hlength
      simp only [List.append_assoc, List.cons_append, List.nil_append,
        expect_self (c := '"') (by decide), Option.bind_eq_bind, Option.bind_some]
      rw [readString_quoted _ _ (by simp only [List.length_append, List.length_cons]; omega)]
      simp [expect_self (c := ':') (by decide),
        h.value value _ (by omega) (stops_cons (c := ',') (by decide)),
        expect_self (c := ',') (by decide), h.fields fields rest hlast (by omega)]

theorem readValue_integer {fuel : Nat} (n : Int) {rest : Chars} (hrest : Stops rest) :
    readValue (fuel + 1) (intText n ++ rest) = some (.int n, rest) := by
  obtain ⟨c, cs, htext, hc⟩ : ∃ c cs, intText n ++ rest = c :: cs ∧ (c = '-' ∨ c.isDigit = true) := by
    unfold intText
    by_cases hneg : n < 0
    · rw [if_pos hneg]
      exact ⟨'-', _, rfl, .inl rfl⟩
    · rw [if_neg hneg]
      cases htext : Nat.toDigits 10 n.natAbs with
      | nil => exact absurd htext Nat.toDigits_ne_nil
      | cons c cs =>
        exact ⟨c, cs ++ rest, rfl, .inr (Nat.isDigit_of_mem_toDigits (b := 10) (n := n.natAbs)
          (by decide) (by decide) (htext ▸ List.mem_cons_self))⟩
  have hopens : Opens c := by
    rcases hc with rfl | hc
    · simp [Opens]
    · simp [Opens, hc]
  have hother : ∀ d : Char, d ≠ '-' → d.isDigit = false → c ≠ d := by
    rintro d hd hdigit rfl
    rcases hc with hc | hc
    · exact hd hc
    · rw [hdigit] at hc
      cases hc
  have hread := readInteger_text n hrest
  rw [htext] at hread ⊢
  unfold readValue
  rw [skip_cons hopens.plain.1]
  split
  all_goals try rename_i h; exact absurd (List.head_eq_of_cons_eq h) (hother _ (by decide) (by decide))
  rw [hread]
  rfl

theorem readsBack (fuel : Nat) : ReadsBack fuel := by
  induction fuel with
  | zero =>
    refine ⟨fun v _ h _ => ?_, fun _ _ _ h => absurd h (Nat.not_lt_zero _),
      fun _ _ _ h => absurd h (Nat.not_lt_zero _)⟩
    have hv := dumps_ne_nil v
    omega
  | succ fuel ih =>
    refine ⟨fun v rest hlength hrest => ?_, readItems_step ih, readFields_step ih⟩
    cases v with
    | null =>
      rw [dumps]
      rfl
    | bool b =>
      cases b with
      | true =>
        rw [dumps]
        rfl
      | false =>
        rw [dumps]
        rfl
    | int n =>
      rw [dumps]
      exact readValue_integer n hrest
    | str s =>
      rw [dumps, quoted]
      unfold readValue
      simp only [List.cons_append, List.append_assoc, List.nil_append, skip_cons
        (show isBlankChar '"' = false by decide)]
      rw [readString_quoted _ _ (by simp only [List.length_append, List.length_cons]; omega)]
      simp
    | list items =>
      rw [dumps] at hlength ⊢
      unfold readValue
      simp only [List.cons_append, List.append_assoc, List.nil_append, skip_cons
        (show isBlankChar '[' = false by decide)]
      cases items with
      | nil =>
        rw [dumpsItems, List.nil_append, expect_self (by decide)]
      | cons item items =>
        have hitems := ih.items (item :: items) rest (List.cons_ne_nil _ _) (by
          simp only [List.length_append, List.length_cons, List.length_nil] at hlength
          omega)
        have hnone : expect ']' (dumpsItems (item :: items) ++ ']' :: rest) = none := by
          obtain ⟨c, cs, hc, hopens⟩ := dumps_opens item
          have hstart : ∃ cs', dumpsItems (item :: items) = c :: cs' := by
            cases items with
            | nil => exact ⟨cs, by rw [dumpsItems, hc]⟩
            | cons next items => exact ⟨_, by rw [dumpsItems_cons _ (List.cons_ne_nil _ _), hc]; rfl⟩
          obtain ⟨cs', hcs'⟩ := hstart
          rw [hcs', List.cons_append]
          exact expect_other hopens.plain.1 hopens.plain.2.1
        rw [hnone, hitems]
        rfl
    | dict fields =>
      rw [dumps] at hlength ⊢
      unfold readValue
      simp only [List.cons_append, List.append_assoc, List.nil_append, skip_cons
        (show isBlankChar '{' = false by decide)]
      cases fields with
      | nil =>
        rw [dumpsFields, List.nil_append, expect_self (by decide)]
      | cons field fields =>
        have hfields := ih.fields (field :: fields) rest (List.cons_ne_nil _ _) (by
          simp only [List.length_append, List.length_cons, List.length_nil] at hlength
          omega)
        have hnone : expect '}' (dumpsFields (field :: fields) ++ '}' :: rest) = none := by
          obtain ⟨key, value⟩ := field
          have hstart : ∃ cs', dumpsFields ((key, value) :: fields) = '"' :: cs' := by
            cases fields with
            | nil => exact ⟨_, by rw [dumpsFields, quoted]; rfl⟩
            | cons next fields =>
              exact ⟨_, by rw [dumpsFields_cons _ _ (List.cons_ne_nil _ _), quoted]; rfl⟩
          obtain ⟨cs', hcs'⟩ := hstart
          rw [hcs', List.cons_append]
          exact expect_other (by decide) (by decide)
        rw [hnone, hfields]
        rfl

/-- **What is written is read**, also with blanks behind it. -/
theorem loads_dumps (v : Json) {rest : Chars} (hrest : Stops rest) (hblank : skip rest = []) :
    loads (dumps v ++ rest) = some v := by
  have hread := (readsBack ((dumps v ++ rest).length + 1)).value v rest
    (by rw [List.length_append]; omega) hrest
  rw [loads, hread]
  exact if_pos hblank

end ComponentKb.Lib.JsonText
