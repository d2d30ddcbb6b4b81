import ComponentKb.Catalog.Quantities
import ComponentKb.Catalog.Sharing
import ComponentKb.Catalog.World
import ComponentKb.Lib.Passing

/-!
# The quantities of a card

A number of a specification is entered as a text with a unit, converted to the unit of its property
definition, stored in a column `NUMERIC(24,8)`, and read back as a text.

* `ofString_toString`: a number of the column reads back as it is written.
* `storeDefinition_number`: what is stored of a number that was entered.
* `resaved`: the same quantity, entered again, is stored as the same number.
* **`quantities_preserved`**: over whole drafts, under any definitions.
-/

namespace ComponentKb.Catalog

open ComponentKb.Lib

/-! ## Stored numbers as texts -/

/-- The decimal digits of ASCII, and two characters that are no digits. -/
structure Unicode.Digits (u : Unicode) : Prop where
  digit : ∀ d < 10, u.digit (Nat.digitChar d) = some d
  other : ∀ c ∈ ['.', 'E'], u.digit c = none

namespace Decimal

section Reading

variable {u : Unicode} {ds cs : List Char}

theorem digitChar_of_isDigit {c : Char} (h : c.isDigit) :
    c.toNat - '0'.toNat < 10 ∧ c = Nat.digitChar (c.toNat - '0'.toNat) := by
  have hbounds : '0'.toNat ≤ c.toNat ∧ c.toNat ≤ '9'.toNat := by
    simp only [Char.isDigit, Bool.and_eq_true, decide_eq_true_eq] at h
    exact h
  have hlt : c.toNat - '0'.toNat < 10 := by
    have h9 : '9'.toNat = '0'.toNat + 9 := rfl
    omega
  refine ⟨hlt, Char.toNat_inj.mp ?_⟩
  rw [Nat.toNat_digitChar_of_lt_ten hlt]
  have h0 : '0'.toNat = 48 := rfl
  omega

/-- ASCII digits are read as they are written. -/
theorem natOfDigits_eq (hu : u.Digits) (hds : ∀ c ∈ ds, c.isDigit) :
    natOfDigits u ds = some (Nat.ofDigitChars 10 ds 0) := by
  have hfold : ∀ (ds : List Char) (n : Nat), (∀ c ∈ ds, c.isDigit) →
      ds.foldl (fun n c => n.bind fun n => (u.digit c).map fun d => 10 * n + d) (some n) =
        some (Nat.ofDigitChars 10 ds n) := by
    intro ds
    induction ds with
    | nil => exact fun n _ => by rw [List.foldl_nil, Nat.ofDigitChars_nil]
    | cons c ds ih =>
      intro n h
      obtain ⟨hc, hds⟩ := List.forall_mem_cons.mp h
      obtain ⟨hlt, heq⟩ := digitChar_of_isDigit hc
      have hdigit : u.digit c = some (c.toNat - '0'.toNat) := by
        nth_rewrite 1 [heq]
        exact hu.digit _ hlt
      rw [List.foldl_cons, Option.bind_some, hdigit, Option.map_some, ih _ hds,
        Nat.ofDigitChars_cons]
  exact hfold ds 0 hds

theorem spanDigits_eq (hu : u.Digits) (hds : ∀ c ∈ ds, c.isDigit)
    (hcs : ∀ c ∈ cs.head?, u.digit c = none) : spanDigits u (ds ++ cs) = (ds, cs) := by
  have hsome : ∀ c ∈ ds, (u.digit c).isSome = true := by
    intro c hc
    obtain ⟨hlt, heq⟩ := digitChar_of_isDigit (hds c hc)
    rw [heq, hu.digit _ hlt]
    rfl
  have hnone : ∀ c ∈ cs.head?, (u.digit c).isSome = false := fun c hc => by
    rw [hcs c hc]
    rfl
  rw [spanDigits, List.span_eq_takeWhile_dropWhile, List.takeWhile_append_of_pos hsome,
    List.dropWhile_append_of_pos hsome]
  cases cs with
  | nil => simp
  | cons c cs =>
    rw [List.takeWhile_cons_of_neg (by simp [hnone c rfl]),
      List.dropWhile_cons_of_neg (by simp [hnone c rfl]), List.append_nil]

theorem isDigit_digits {c : Nat} : ∀ d ∈ digits c, d.isDigit := fun _ hd =>
  Nat.isDigit_of_mem_toDigits (by omega) (by omega) hd

/-- A number is read from its digits, a point among them and an exponent after them. -/
theorem readFinite_eq (hu : u.Digits) (negative : Bool) {int frac tail : List Char} {e : Int}
    (hint : ∀ c ∈ int, c.isDigit) (hfrac : ∀ c ∈ frac, c.isDigit) (hne : int ≠ [])
    (htail : ∀ c ∈ tail.head?, u.digit c = none ∧ c ≠ '.') (hexp : readExponent u tail = some e)
    (hlow : -2 * maxExponent + 1 ≤ e - frac.length)
    (hhigh : adjusted (Nat.ofDigitChars 10 (int ++ frac) 0) (e - frac.length) ≤ maxExponent) :
    readFinite u negative (int ++ (if frac = [] then [] else '.' :: frac) ++ tail) =
      some (finite negative (Nat.ofDigitChars 10 (int ++ frac) 0) (e - frac.length)) := by
  have hboth : ∀ c ∈ int ++ frac, c.isDigit := fun c hc =>
    (List.mem_append.mp hc).elim (hint c) (hfrac c)
  have hbounds : ¬ (adjusted (Nat.ofDigitChars 10 (int ++ frac) 0) (e - frac.length) > maxExponent ∨
      e - (frac.length : Int) < -2 * maxExponent + 1) := by omega
  have hfinish : (if int.isEmpty ∧ frac.isEmpty then none
      else (natOfDigits u (int ++ frac)).bind fun coefficient => (readExponent u tail).bind fun e =>
        if adjusted coefficient (e - frac.length) > maxExponent ∨
            e - (frac.length : Int) < -2 * maxExponent + 1 then none
        else some (finite negative coefficient (e - frac.length))) =
      some (finite negative (Nat.ofDigitChars 10 (int ++ frac) 0) (e - frac.length)) := by
    rw [if_neg (by simp [hne]), natOfDigits_eq hu hboth, hexp, Option.bind_some, Option.bind_some,
      if_neg hbounds]
  by_cases hempty : frac = []
  · subst hempty
    have hhead : ∀ rest, tail ≠ '.' :: rest := fun rest h => (htail '.' (h ▸ rfl)).2 rfl
    rw [if_pos rfl, List.append_nil]
    unfold readFinite
    rw [spanDigits_eq hu hint fun c hc => (htail c hc).1]
    dsimp only
    split
    · rename_i rest
      exact absurd rfl (hhead rest)
    · simp only [List.append_nil] at hfinish ⊢
      exact hfinish
  · rw [if_neg hempty]
    have hspan : spanDigits u (int ++ ('.' :: frac ++ tail)) = (int, '.' :: frac ++ tail) := by
      refine spanDigits_eq hu hint ?_
      rintro _ ⟨⟩
      exact hu.other _ (by decide)
    have hspan' := spanDigits_eq hu hfrac fun c hc => (htail c hc).1
    unfold readFinite
    rw [List.append_assoc, hspan]
    simp only [List.cons_append, hspan']
    exact hfinish

/-- What a number is written with. -/
def isNumeral (c : Char) : Bool := c.isDigit || c = '.' || c = 'E' || c = '-'

/-- A text of digits and the like, after an optional sign, is read as a finite number. -/
theorem ofString_eq (hu : u.Digits) (negative : Bool) {c : Char} (hc : c.isDigit)
    (hcs : ∀ c ∈ cs, isNumeral c) :
    ofString u (String.ofList ((if negative then ['-'] else []) ++ c :: cs)) =
      readFinite u negative (c :: cs) := by
  have hnumeral : ∀ d ∈ (if negative then ['-'] else []) ++ c :: cs, isNumeral d := by
    intro d hd
    rcases List.mem_append.mp hd with hd | hd
    · cases negative
      · exact absurd hd List.not_mem_nil
      · obtain rfl := List.mem_singleton.mp hd
        rfl
    · rcases List.mem_cons.mp hd with rfl | hd
      · simp [isNumeral, hc]
      · exact hcs d hd
  have hplain : ∀ d, isNumeral d → isSpace d = false ∧ d ≠ '_' := by
    intro d hd
    simp only [isNumeral, Bool.or_eq_true, decide_eq_true_eq] at hd
    obtain ((hd | rfl) | rfl) | rfl := hd
    · obtain ⟨hlt, heq⟩ := digitChar_of_isDigit hd
      have hall : ∀ d : Fin 10, isSpace (Nat.digitChar d) = false ∧ Nat.digitChar d ≠ '_' := by
        decide
      rw [heq]
      exact hall ⟨_, hlt⟩
    all_goals decide
  have hstrip : strip (String.ofList ((if negative then ['-'] else []) ++ c :: cs)) =
      String.ofList ((if negative then ['-'] else []) ++ c :: cs) := by
    refine strip_eq_self (fun d hd => ?_) fun d hd => ?_
    · rw [String.toList_ofList] at hd
      exact (hplain d (hnumeral d (List.mem_of_mem_head? hd))).1
    · rw [String.toList_ofList] at hd
      exact (hplain d (hnumeral d (List.mem_of_mem_getLast? hd))).1
  have hfilter : ((if negative then ['-'] else []) ++ c :: cs).filter (· ≠ '_') =
      (if negative then ['-'] else []) ++ c :: cs := by
    refine List.filter_eq_self.mpr fun d hd => ?_
    simpa using (hplain d (hnumeral d hd)).2
  have hsign : spanSign ((if negative then ['-'] else []) ++ c :: cs) = (negative, c :: cs) := by
    cases negative
    · have hno : c ≠ '-' ∧ c ≠ '+' := by constructor <;> rintro rfl <;> exact absurd hc (by decide)
      simp only [Bool.false_eq_true, if_false, List.nil_append]
      unfold spanSign
      split <;> simp_all
    · rfl
  obtain ⟨hlt, heq⟩ := digitChar_of_isDigit hc
  have hdigit : (u.digit c).isNone = false := by
    rw [heq, hu.digit _ hlt]
    rfl
  have hlower : ∀ (word : Char) (rest : List Char), word.isAlpha →
      String.ofList ((c :: cs).map Char.toLower) ≠ String.ofList (word :: rest) := by
    intro word rest hword h
    have hlist := String.ofList_injective h
    rw [List.map_cons] at hlist
    have hfirst := (List.cons.inj hlist).1
    have hall : ∀ d : Fin 10, ¬ (Nat.digitChar d).toLower.isAlpha := by decide
    refine hall ⟨_, hlt⟩ ?_
    rw [← heq, hfirst]
    exact hword
  unfold ofString
  rw [hstrip, String.toList_ofList, hfilter]
  simp only [hsign]
  rw [if_neg (by
    rintro (h | h)
    · exact hlower 'i' ['n', 'f'] rfl h
    · exact hlower 'i' ['n', 'f', 'i', 'n', 'i', 't', 'y'] rfl h)]
  rw [List.takeWhile_cons_of_neg (by simp [hdigit])]
  rfl

theorem length_digits_lt {c : Nat} (hc : c < 10 ^ 24) : (digits c).length ≤ 24 :=
  (length_digits_le_iff (by omega)).mpr hc

/-- A number of the column is written in plain notation, unless it is too small for it. -/
theorem toList_toString (negative : Bool) (c : Nat) :
    ∃ int frac tail, (toString (finite negative c (-8))).toList =
        (if negative then ['-'] else []) ++
          (int ++ (if frac = [] then [] else '.' :: frac) ++ tail) ∧
      int ≠ [] ∧ (∀ d ∈ int, d.isDigit) ∧ (∀ d ∈ frac, d.isDigit) ∧
      Nat.ofDigitChars 10 (int ++ frac) 0 = c ∧
      ((tail = [] ∧ frac.length = 8) ∨
        ∃ k, tail = 'E' :: '-' :: digits k ∧ (k : Int) + frac.length = 8) := by
  have hpos := length_digits_pos c
  have hvalue : Nat.ofDigitChars 10 (digits c) 0 = c := Nat.ofDigitChars_ten_toDigits
  by_cases hplain : 3 ≤ (digits c).length
  · -- eight places, after zeros where the digits are too few
    generalize hpadded : List.replicate (9 - (digits c).length) '0' ++ digits c = padded
    have hlength : 9 ≤ padded.length := by
      rw [← hpadded, List.length_append, List.length_replicate]
      omega
    have hdigit : ∀ d ∈ padded, d.isDigit := by
      rw [← hpadded]
      intro d hd
      rcases List.mem_append.mp hd with hd | hd
      · rw [List.eq_of_mem_replicate hd]
        rfl
      · exact isDigit_digits d hd
    refine ⟨padded.take (padded.length - 8), padded.drop (padded.length - 8), [], ?_, ?_,
      fun d hd => hdigit d (List.mem_of_mem_take hd),
      fun d hd => hdigit d (List.mem_of_mem_drop hd), ?_, Or.inl ⟨rfl, ?_⟩⟩
    · have hfrac : (padded.drop (padded.length - 8)) ≠ [] := by
        rw [← List.length_pos_iff, List.length_drop]
        omega
      have hadjusted : (-8 : Int) ≤ 0 ∧ -6 ≤ adjusted c (-8) := ⟨by omega, by unfold adjusted; omega⟩
      simp only [toString, if_pos hadjusted]
      have hplaces : Int.natAbs (-8) + 1 - (digits c).length = 9 - (digits c).length := rfl
      rw [hplaces, hpadded, if_neg hfrac, List.append_nil]
      cases negative <;> simp [hfrac]
    · rw [← List.length_pos_iff, List.length_take]
      omega
    · rw [List.take_append_drop, ← hpadded, Nat.ofDigitChars_append, Nat.ofDigitChars_replicate_zero,
        mul_zero, hvalue]
    · rw [List.length_drop]
      omega
  · have hadjusted : ¬ ((-8 : Int) ≤ 0 ∧ -6 ≤ adjusted c (-8)) := by
      unfold adjusted
      omega
    obtain ⟨d, rest, hds⟩ := List.exists_cons_of_length_pos hpos
    have hrest : rest.length ≤ 1 := by
      rw [hds, List.length_cons] at hplain
      omega
    have hdigit : ∀ x ∈ d :: rest, x.isDigit := hds ▸ isDigit_digits
    refine ⟨[d], rest, 'E' :: '-' :: digits (adjusted c (-8)).natAbs, ?_, List.cons_ne_nil _ _,
      fun x hx => hdigit x (List.mem_singleton.mp hx ▸ List.mem_cons_self),
      fun x hx => hdigit x (List.mem_cons_of_mem _ hx), ?_, Or.inr ⟨_, rfl, ?_⟩⟩
    · have hneg : ¬ (0 : Int) ≤ adjusted c (-8) := by
        unfold adjusted
        omega
      simp only [toString, if_neg hadjusted, if_neg hneg, hds]
      cases negative <;> cases rest <;> simp
    · rw [List.singleton_append, ← hds, hvalue]
    · unfold adjusted
      rw [hds, List.length_cons]
      omega

/-- **A number of the column reads back as it is written.** -/
theorem ofString_toString (hu : u.Digits) (negative : Bool) {c : Nat} (hc : c < 10 ^ 24) :
    ofString u (toString (finite negative c (-8))) = some (finite negative c (-8)) := by
  obtain ⟨int, frac, tail, htext, hne, hint, hfrac, hvalue, htail⟩ := toList_toString negative c
  obtain ⟨d, rest, rfl⟩ := List.exists_cons_of_ne_nil hne
  have hlength := length_digits_lt hc
  have hmax : maxExponent = 999999999999999999 := rfl
  have hkind : ∃ e : Int, readExponent u tail = some e ∧ e - frac.length = -8 ∧
      (∀ c ∈ tail.head?, u.digit c = none ∧ c ≠ '.') ∧ ∀ c ∈ tail, isNumeral c := by
    rcases htail with ⟨rfl, hplaces⟩ | ⟨k, rfl, hplaces⟩
    · exact ⟨0, rfl, by omega, by simp, by simp⟩
    · refine ⟨-k, ?_, by omega, ?_, ?_⟩
      · have hdigits := natOfDigits_eq hu (isDigit_digits (c := k))
        have hk : Nat.ofDigitChars 10 (digits k) 0 = k := Nat.ofDigitChars_ten_toDigits
        have hempty : (digits k).isEmpty = false := by
          rw [List.isEmpty_eq_false_iff]
          exact Nat.toDigits_ne_nil
        simp [readExponent, spanSign, hempty, hdigits, hk]
      · rintro _ ⟨⟩
        exact ⟨hu.other _ (by decide), by decide⟩
      · intro x hx
        simp only [List.mem_cons] at hx
        obtain rfl | rfl | hx := hx
        · rfl
        · rfl
        · simp [isNumeral, isDigit_digits x hx]
  obtain ⟨e, hexp, he, hhead, hnumeral⟩ := hkind
  have hread := readFinite_eq hu negative hint hfrac hne hhead hexp (by omega) (by
    rw [hvalue, he, adjusted]
    omega)
  rw [hvalue, he] at hread
  have hdigit := (List.forall_mem_cons.mp hint).1
  rw [← String.ofList_toList (s := toString (finite negative c (-8))), htext, List.cons_append,
    List.cons_append, ofString_eq hu negative hdigit]
  · simpa using hread
  · intro x hx
    simp only [List.mem_append] at hx
    obtain (hx | hx) | hx := hx
    · simp [isNumeral, (List.forall_mem_cons.mp hint).2 x hx]
    · split at hx
      · exact absurd hx List.not_mem_nil
      · rcases List.mem_cons.mp hx with rfl | hx
        · rfl
        · simp [isNumeral, hfrac x hx]
    · exact hnumeral x hx

end Reading

end Decimal

/-! ## What is stored -/

section Storing

variable {u : Unicode} {item : TechnicalSpecification} {n v w : Decimal}

theorem Decimal.proper_of_fits (hfits : fitsNumericStorage n) :
    (if n.isZero then Decimal.zero else n).Proper ∧
      (if n.isZero then Decimal.zero else n).value = n.value ∧
        fitsNumericStorage (if n.isZero then Decimal.zero else n) := by
  cases n with
  | infinite negative => exact absurd hfits Bool.false_ne_true
  | nan => exact absurd hfits Bool.false_ne_true
  | finite negative c e =>
    by_cases hc : c = 0
    · rw [if_pos (by simp [Decimal.isZero, hc]), hc]
      exact ⟨⟨false, 0, 0, rfl, fun _ => rfl⟩, by simp [Decimal.value, Decimal.zero], rfl⟩
    · rw [if_neg (by simp [Decimal.isZero, hc])]
      exact ⟨⟨negative, c, e, rfl, fun h => absurd h hc⟩, rfl, hfits⟩

/-- The number that is stored or converted is the one that was entered. -/
theorem enteredNumber_spec {text : String} (htext : item.valueNumber = some text)
    (hread : Decimal.ofString u text = some n) (hfits : fitsNumericStorage n) :
    ∃ v, enteredNumber u item = some v ∧ v.Proper ∧ v.value = n.value ∧ fitsNumericStorage v := by
  obtain ⟨hproper, hvalue, hfits⟩ := Decimal.proper_of_fits hfits
  refine ⟨_, ?_, hproper, hvalue, hfits⟩
  rw [enteredNumber, htext, Option.bind_some, hread, Option.map_some]

/-- A unit that is found or created is the one that was entered. -/
theorem normalizeUnitSymbol_unitSymbol (unit : Option String) :
    normalizeUnitSymbol ((unitSymbol unit).getD "") = normalizeUnitSymbol (unit.getD "") := by
  cases unit with
  | none => rfl
  | some symbol =>
    rw [unitSymbol, Option.bind_some, Option.getD_some]
    by_cases hblank : isBlank symbol
    · have hstrip : strip symbol = "" := of_decide_eq_true hblank
      rw [if_pos hblank, Option.getD_none, normalizeUnitSymbol, normalizeUnitSymbol, hstrip]
      rfl
    · rw [if_neg hblank, Option.getD_some]
      cases h : unitEntry (strip symbol) with
      | none =>
        have hself : normalizeUnitSymbol symbol = strip symbol := by simp [normalizeUnitSymbol, h]
        rw [hself, normalizeUnitSymbol, strip_strip, h, Option.elim_none]
      | some found =>
        obtain ⟨hpreferred, hstrip⟩ := unitEntry_preferred h
        have hself : normalizeUnitSymbol symbol = found.1 := by simp [normalizeUnitSymbol, h]
        rw [hself, normalizeUnitSymbol, hstrip, hpreferred, Option.elim_some]

theorem unitScale_unitSymbol (unit : Option String) :
    unitScale (unitSymbol unit) = unitScale unit := by
  rw [unitScale_eq, unitScale_eq, normalizeUnitSymbol_unitSymbol]

/-- What the definition of a number is after it is stored: `old` is the one before, if there is
one. -/
def unitAfter (old : Option PropertyDefinition) (unit : Option String) : Option String :=
  old.elim (unitSymbol unit) fun d => (d.settled unit).unit

/-- The line of a number that fits the column, entered under a definition or under none. -/
theorem storeDefinition_number {definitions definitions' : List PropertyDefinition} {position : Nat}
    {number : Option Decimal} (hentered : enteredNumber u item = some v) (hproper : v.Proper)
    (hfits : fitsNumericStorage v)
    (h : storeDefinition u definitions position item = .ok (definitions', number)) :
    ∃ w d, number = some w ∧ w.Proper ∧
      lookup PropertyDefinition.key definitions' item.key = some d ∧
      d.unit = unitAfter (lookup PropertyDefinition.key definitions item.key) item.unit ∧
      (d.valueType = .number ∨ d.valueType = .mixed) ∧
      d.label = strip item.label ∧ Compatible item.unit d.unit ∧
      w.value * unitScale d.unit = v.value * unitScale item.unit := by
  have htype : item.valueType = .number := if_pos (enteredNumber_isSome hentered)
  unfold storeDefinition at h
  cases hold : lookup PropertyDefinition.key definitions item.key with
  | none =>
    rw [hold] at h
    cases h
    refine ⟨v, ⟨item.key, strip item.label, item.valueType, unitSymbol item.unit⟩, hentered,
      hproper, ?_, rfl, Or.inl htype, rfl, Or.inl (normalizeUnitSymbol_unitSymbol _).symm, ?_⟩
    · rw [lookup_append, hold, if_pos rfl, Option.none_or]
    · rw [unitScale_unitSymbol]
  | some old =>
    rw [hold] at h
    obtain ⟨hlabel, h⟩ := seq_eq_ok.mp h
    rw [hentered] at h
    obtain ⟨w, hconverted, h⟩ := bind_eq_ok.mp h
    cases h
    have hconvert := fromSome_eq_ok.mp hconverted
    have hcompatible := compatible_of_convert hconvert
    obtain ⟨w', hw', hproper', hvalue⟩ := convertNumericValue_exact hfits hproper hcompatible
    obtain rfl := Option.some.inj (hconvert.symm.trans hw')
    have hkey : ((old.settled item.unit).usedAs item.valueType).key = item.key := by
      rw [PropertyDefinition.usedAs_key, PropertyDefinition.settled_key, key_of_lookup hold]
    refine ⟨w, (old.settled item.unit).usedAs item.valueType, rfl, hproper', ?_, rfl, ?_, ?_,
      hcompatible, hvalue⟩
    · rw [← hkey] at hold ⊢
      exact lookup_replace_self hold
    · rw [htype]
      change (if _ then ValueType.number else .mixed) = .number ∨
        (if _ then ValueType.number else .mixed) = .mixed
      split
      · exact Or.inl rfl
      · exact Or.inr rfl
    · rw [← (require_eq_ok.mp hlabel).1]
      change (old.settled item.unit).label = old.label
      unfold PropertyDefinition.settled
      split <;> rfl

/-- The line of a number under a definition of another number. -/
theorem storeDefinition_accepts {definitions : List PropertyDefinition} (position : Nat)
    {d : PropertyDefinition} (hentered : enteredNumber u item = some v) (hproper : v.Proper)
    (hfits : fitsNumericStorage v)
    (hfound : lookup PropertyDefinition.key definitions item.key = some d)
    (hlabel : d.label = strip item.label) (htype : d.valueType ≠ .boolean ∧ d.valueType ≠ .text)
    (hcompatible : Compatible item.unit d.unit) :
    ∃ w, storeDefinition u definitions position item =
        .ok (replace PropertyDefinition.key definitions (d.usedAs item.valueType), some w) ∧
      w.Proper ∧ w.value * unitScale d.unit = v.value * unitScale item.unit := by
  obtain ⟨w, hw, hproper', hvalue⟩ := convertNumericValue_exact hfits hproper hcompatible
  have hsettled : d.settled item.unit = d := if_neg fun h => htype.2 h.1
  refine ⟨w, ?_, hproper', hvalue⟩
  unfold storeDefinition
  simp only [hfound, hlabel, htype.1, hentered, hsettled, convertedNumber, hw, fromSome, require,
    ne_eq, not_false_eq_true, and_self, if_true]
  rfl

end Storing

/-! ## Specifications -/

section Specifications

variable {u : Unicode} {before after : List PropertyDefinition} {item : TechnicalSpecification}
  {p : ComponentProperty}

/-- A specification and the property that is stored for it: a text has no number, and the number of
another one is a number of the column that denotes, in the unit of the definition, the quantity that
was entered. -/
structure QuantityKept (u : Unicode) (before after : List PropertyDefinition)
    (item : TechnicalSpecification) (p : ComponentProperty) : Prop where
  key : p.definition = item.key
  text : item.valueNumber = none → p.valueNumber = none
  number : ∀ text ∈ item.valueNumber, ∃ n stored d, Decimal.ofString u text = some n ∧
    p.valueNumber = some stored ∧ lookup PropertyDefinition.key after item.key = some d ∧
    d.unit = unitAfter (lookup PropertyDefinition.key before item.key) item.unit ∧
    Compatible item.unit d.unit ∧
    stored.value * unitScale d.unit = n.value * unitScale item.unit ∧
    Decimal.numericColumn stored.value = some stored.value

/-- A specification is accepted with the number that was stored before. -/
structure QuantityResaved (u : Unicode) (stored : Decimal) (definitions : List PropertyDefinition)
    (position : Nat) (item : TechnicalSpecification) : Prop where
  accepted : ∀ text ∈ item.valueNumber,
    ∃ n, Decimal.ofString u text = some n ∧ fitsNumericStorage n
  same : ∃ definitions' w, storeDefinition u definitions position item =
      .ok (definitions', some w) ∧ fitsNumericStorage w ∧ w.stored = stored

/-- What is read of a stored number, and how it is stored again: as it was read, and as the same
quantity in any compatible unit. -/
structure QuantityRereads (u : Unicode) (after : List PropertyDefinition) (p : ComponentProperty) :
    Prop where
  again : ∀ stored ∈ p.valueNumber, ∃ d,
    lookup PropertyDefinition.key after p.definition = some d ∧
    (∀ position, ∃ reading, readSpecification after position p = some reading ∧
      reading.unit = d.unit ∧ reading.valueNumber = some stored.toString ∧
      QuantityResaved u stored after position reading) ∧
    ∀ (later : List PropertyDefinition) (position : Nat) (item : TechnicalSpecification)
      (d' : PropertyDefinition) (text : String) (n : Decimal),
      lookup PropertyDefinition.key later item.key = some d' → d'.unit = d.unit →
      d'.label = strip item.label → d'.valueType = .number ∨ d'.valueType = .mixed →
      item.valueNumber = some text → Decimal.ofString u text = some n → fitsNumericStorage n →
      Compatible item.unit d.unit →
      n.value * unitScale item.unit = stored.value * unitScale d.unit →
      QuantityResaved u stored later position item

theorem storeDefinition_other {position : Nat} {number : Option Decimal} {key : String}
    (h : storeDefinition u before position item = .ok (after, number)) (hne : item.key ≠ key) :
    lookup PropertyDefinition.key after key = lookup PropertyDefinition.key before key := by
  unfold storeDefinition at h
  cases hold : lookup PropertyDefinition.key before item.key with
  | none =>
    rw [hold] at h
    cases h
    rw [lookup_append, if_neg hne, Option.or_none]
  | some old =>
    rw [hold] at h
    obtain ⟨-, h⟩ := seq_eq_ok.mp h
    have hkey : old.key = item.key := key_of_lookup hold
    cases hentered : enteredNumber u item with
    | none =>
      rw [hentered] at h
      cases h
      exact lookup_replace_ne (by rw [PropertyDefinition.usedAs_key, hkey]; exact hne)
    | some entered =>
      rw [hentered] at h
      obtain ⟨converted, -, h⟩ := bind_eq_ok.mp h
      cases h
      refine lookup_replace_ne ?_
      rw [PropertyDefinition.usedAs_key, PropertyDefinition.settled_key, hkey]
      exact hne

theorem storeProperties_other {items : List TechnicalSpecification}
    {properties : List ComponentProperty} {position : Nat} {key : String}
    (h : storeProperties u before position items = .ok (after, properties))
    (hne : ∀ item ∈ items, item.key ≠ key) :
    lookup PropertyDefinition.key after key = lookup PropertyDefinition.key before key := by
  induction items generalizing before position properties with
  | nil =>
    cases h
    rfl
  | cons item rest ih =>
    obtain ⟨⟨middle, number⟩, hfirst, h⟩ := bind_eq_ok.mp h
    obtain ⟨-, h⟩ := seq_eq_ok.mp h
    obtain ⟨⟨last, stored⟩, hrest, h⟩ := bind_eq_ok.mp h
    cases h
    obtain ⟨hitem, hitems⟩ := List.forall_mem_cons.mp hne
    exact (ih hrest hitems).trans (storeDefinition_other hfirst hitem)

/-- The same quantity, entered again, is stored as the same number. -/
theorem resaved {v n : Decimal} {text : String} {later : List PropertyDefinition}
    {d : PropertyDefinition} (position : Nat) (hfits : fitsNumericStorage v) (hproper : v.Proper)
    (hfound : lookup PropertyDefinition.key later item.key = some d)
    (hlabel : d.label = strip item.label) (htype : d.valueType = .number ∨ d.valueType = .mixed)
    (htext : item.valueNumber = some text) (hread : Decimal.ofString u text = some n)
    (hfits' : fitsNumericStorage n) (hcompatible : Compatible item.unit d.unit)
    (hvalue : n.value * unitScale item.unit = v.value * unitScale d.unit) :
    QuantityResaved u v.stored later position item := by
  obtain ⟨w, hentered, hproperw, hvaluew, hfitsw⟩ := enteredNumber_spec htext hread hfits'
  have hkind : d.valueType ≠ .boolean ∧ d.valueType ≠ .text := by
    rcases htype with h | h <;> rw [h] <;> decide
  obtain ⟨x, hx, hproperx, hvaluex⟩ :=
    storeDefinition_accepts position hentered hproperw hfitsw hfound hlabel hkind hcompatible
  have heq : x.value = v.value := by
    rw [hvaluew, hvalue] at hvaluex
    exact mul_right_cancel₀ (unitScale_pos d.unit).ne' hvaluex
  have hfitsx : fitsNumericStorage x := by
    obtain ⟨b, c, e, rfl, -⟩ := hproperx
    rw [(fitsNumericStorage_iff _).2, heq]
    exact ⟨rfl, ((fitsNumericStorage_iff v).2.mp hfits).2⟩
  refine ⟨?_, _, x, hx, hfitsx, Decimal.stored_inj hfitsx hfits hproperx hproper heq⟩
  rw [htext]
  rintro _ ⟨⟩
  exact ⟨n, hread, hfits'⟩

/-- What is stored reads back as it is. -/
theorem ofString_stored (hu : u.Digits) {v : Decimal} (hfits : fitsNumericStorage v) :
    Decimal.ofString u v.stored.toString = some v.stored ∧ fitsNumericStorage v.stored := by
  cases v with
  | infinite negative => exact absurd hfits Bool.false_ne_true
  | nan => exact absurd hfits Bool.false_ne_true
  | finite negative c e =>
    obtain ⟨c', hstored, -, hvalue⟩ := Decimal.stored_eq hfits
    have hkept := (fitsNumericStorage_iff _).2.mp hfits
    have hfits' : fitsNumericStorage (.finite negative c' (-8)) := by
      rw [(fitsNumericStorage_iff _).2, hvalue]
      exact ⟨rfl, hkept.2⟩
    rw [hstored]
    refine ⟨Decimal.ofString_toString hu negative ?_, hfits'⟩
    have hlt := ((fitsNumericStorage_iff _).1.mp hfits').2.1
    rw [Decimal.abs_value] at hlt
    have hcast : (c' : ℚ) < 10 ^ 24 := by
      rw [show (10 : ℚ) ^ (-8 : ℤ) = 1 / 10 ^ 8 by norm_num] at hlt
      linarith
    exact_mod_cast hcast

theorem storeDefinition_text {position : Nat} {number : Option Decimal}
    (htext : item.valueNumber = none)
    (h : storeDefinition u before position item = .ok (after, number)) : number = none := by
  have hentered : enteredNumber u item = none := by rw [enteredNumber, htext]; rfl
  unfold storeDefinition at h
  cases hold : lookup PropertyDefinition.key before item.key with
  | none =>
    rw [hold, hentered] at h
    cases h
    rfl
  | some old =>
    rw [hold] at h
    obtain ⟨-, h⟩ := seq_eq_ok.mp h
    rw [hentered] at h
    cases h
    rfl

/-- One specification, stored first of a list. -/
theorem stored_first (hu : u.Digits) {middle : List PropertyDefinition} {position : Nat}
    {number : Option Decimal} (haccepted : item.Accepted u)
    (hfirst : storeDefinition u before position item = .ok (middle, number))
    (hfits : ∀ n ∈ number, fitsNumericStorage n)
    (hafter : lookup PropertyDefinition.key after item.key =
      lookup PropertyDefinition.key middle item.key) :
    QuantityKept u before after item ⟨item.key, item.valueText, number.map Decimal.stored⟩ ∧
      QuantityRereads u after ⟨item.key, item.valueText, number.map Decimal.stored⟩ := by
  cases htext : item.valueNumber with
  | none =>
    obtain rfl := storeDefinition_text htext hfirst
    exact ⟨⟨rfl, fun _ => rfl, by simp [htext]⟩, ⟨fun stored hstored => by cases hstored⟩⟩
  | some text =>
    obtain ⟨n, hread, hfitsn⟩ := haccepted.number text htext
    obtain ⟨v, hentered, hproper, hvalue, hfitsv⟩ := enteredNumber_spec htext hread hfitsn
    obtain ⟨w, d, rfl, hproperw, hmiddle, hunit, htype, hlabel, hcompatible, hquantity⟩ :=
      storeDefinition_number hentered hproper hfitsv hfirst
    have hfitsw := hfits w rfl
    have hd := hafter.trans hmiddle
    rw [hvalue, ← Decimal.stored_value hfitsw] at hquantity
    obtain ⟨hreads, hfitss⟩ := ofString_stored hu hfitsw
    refine ⟨⟨rfl, fun hno => ?_, ?_⟩, ⟨?_⟩⟩
    · rw [htext] at hno
      cases hno
    · rw [htext]
      rintro _ ⟨⟩
      exact ⟨n, w.stored, d, hread, rfl, hd, hunit, hcompatible, hquantity,
        ((fitsNumericStorage_iff _).2.mp hfitss).2⟩
    · rintro _ ⟨⟩
      refine ⟨d, hd, fun position => ?_, ?_⟩
      · have hkey : d.key = item.key := key_of_lookup hd
        refine ⟨⟨d.key, d.label, item.valueText, some w.stored.toString, d.unit, position⟩, ?_,
          rfl, rfl, ?_⟩
        · simp [readSpecification, hd]
        · refine resaved position hfitsw hproperw (hkey ▸ hd) ?_ htype rfl hreads hfitss
            (Or.inl rfl) (by rw [Decimal.stored_value hfitsw])
          rw [hlabel, strip_strip]
      · intro later position again d' text' n' hfound hunit' hlabel' htype' htext' hread' hfits'
          hcompatible' hquantity'
        refine resaved position hfitsw hproperw hfound hlabel' htype' htext' hread' hfits' ?_ ?_
        · rw [hunit']
          exact hcompatible'
        · rw [hunit', hquantity', Decimal.stored_value hfitsw]

/-- **The specifications of an accepted draft, one by one.** -/
theorem storeProperties_preserved (hu : u.Digits) {items : List TechnicalSpecification}
    {properties : List ComponentProperty} {position : Nat}
    (haccepted : ∀ item ∈ items, item.Accepted u)
    (hnodup : (items.map TechnicalSpecification.key).Nodup)
    (h : storeProperties u before position items = .ok (after, properties)) :
    List.Forall₂ (fun item p => QuantityKept u before after item p ∧ QuantityRereads u after p) items
      properties := by
  induction items generalizing before position properties with
  | nil =>
    cases h
    exact .nil
  | cons item rest ih =>
    obtain ⟨⟨middle, number⟩, hfirst, h⟩ := bind_eq_ok.mp h
    obtain ⟨hfits, h⟩ := seq_eq_ok.mp h
    obtain ⟨⟨last, stored⟩, hrest, h⟩ := bind_eq_ok.mp h
    cases h
    obtain ⟨hitem, hitems⟩ := List.forall_mem_cons.mp haccepted
    obtain ⟨hfresh, hnodup⟩ := List.nodup_cons.mp hnodup
    have hother : ∀ other ∈ rest, other.key ≠ item.key := fun other hother hkey =>
      hfresh (hkey ▸ List.mem_map_of_mem hother)
    refine .cons (stored_first hu hitem hfirst (require_eq_ok.mp hfits)
      (storeProperties_other hrest hother)) ?_
    refine (List.forall₂_iff_zip.mpr ⟨(ih hitems hnodup hrest).length_eq, fun {other p} hmem => ?_⟩)
    obtain ⟨hpreserved, hrereads⟩ := (List.forall₂_iff_zip.mp (ih hitems hnodup hrest)).2 hmem
    refine ⟨⟨hpreserved.key, hpreserved.text, fun text htext => ?_⟩, hrereads⟩
    -- the definition of another key is as it was before the first line
    rw [← storeDefinition_other hfirst
      (hother other (List.of_mem_zip hmem).1).symm]
    exact hpreserved.number text htext

end Specifications

/-- A number that no column can hold as the quantity that was entered, under a definition of the
unit `unit`. -/
def Unrepresentable (u : Unicode) (item : TechnicalSpecification) (unit : Option String) : Prop :=
  ∃ text ∈ item.valueNumber, ∀ n, Decimal.ofString u text = some n →
    ¬ n.isFinite ∨ Decimal.numericColumn n.value ≠ some n.value ∨ ¬ Compatible item.unit unit ∨
      Decimal.numericColumn (n.value * unitScale item.unit / unitScale unit) ≠
        some (n.value * unitScale item.unit / unitScale unit)

/-- **Quantities are preserved exactly.** Whatever the definitions are, each number of an accepted
draft is stored as the quantity that was entered, in the unit of its definition; a draft with a
number that cannot be represented is refused; and what is read back, in that unit or in a compatible
one, is stored again as the same number. -/
theorem quantities_preserved {u : Unicode} (hu : u.Digits) (categories : List Category) (db : Db)
    (data : DraftData) (hvalid : validate u categories data = .ok ()) :
    (∀ db' details, replaceChildren u db data = .ok (db', details) →
      List.Forall₂ (fun item p => QuantityKept u db.definitions db'.definitions item p ∧
        QuantityRereads u db'.definitions p) data.specifications details.properties) ∧
    ∀ item ∈ data.specifications, Unrepresentable u item
        (unitAfter (lookup PropertyDefinition.key db.definitions item.key) item.unit) →
      ∀ stored, replaceChildren u db data ≠ .ok stored := by
  obtain ⟨-, -, -, -, -, ⟨haccepted, hnodup⟩, -⟩ := validate_iff.mp hvalid
  have hstored : ∀ db' details, replaceChildren u db data = .ok (db', details) →
      List.Forall₂ (fun item p => QuantityKept u db.definitions db'.definitions item p ∧
        QuantityRereads u db'.definitions p) data.specifications details.properties := by
    intro db' details h
    obtain ⟨⟨definitions, properties⟩, hproperties, h⟩ := bind_eq_ok.mp h
    cases h
    exact storeProperties_preserved hu haccepted hnodup hproperties
  refine ⟨hstored, ?_⟩
  rintro item hitem ⟨text, htext, hno⟩ ⟨db', details⟩ h
  obtain ⟨p, -, hpreserved, -⟩ := Passes.exists_of_mem' (hstored db' details h) hitem
  obtain ⟨n, stored, d, hread, -, -, hunit, hcompatible, hquantity, hkept⟩ :=
    hpreserved.number text htext
  rw [← hunit] at hno
  have hscale := (unitScale_pos d.unit).ne'
  obtain ⟨n', hn', hfits⟩ := (haccepted item hitem).number text htext
  obtain rfl := Option.some.inj (hread.symm.trans hn')
  obtain ⟨hfinite, hcolumn⟩ := (fitsNumericStorage_iff _).2.mp hfits
  rcases hno n hread with h | h | h | h
  · exact h hfinite
  · exact h hcolumn
  · exact h hcompatible
  · rw [← hquantity, mul_div_cancel_right₀ _ hscale] at h
    exact h hkept

theorem plainUnicode_digits : plainUnicode.Digits :=
  ⟨by decide, by decide⟩

/-- A supply voltage entered in volts where the catalog keeps millivolts. -/
def supplyDraft : DraftData :=
  { sensorDraft "sensor" true with
    specifications := [⟨"supply-voltage", "Supply voltage", "3.3 V", some "3.3", some "V", 0⟩] }

def supplyDb : Db :=
  { plainDb with definitions := [⟨"supply-voltage", "Supply voltage", .number, some "мВ"⟩] }

theorem quantities_preserved_supply :
    ∃ db' details, replaceChildren plainUnicode supplyDb supplyDraft = .ok (db', details) ∧
      details.properties =
        [⟨"supply-voltage", "3.3 V", some (.finite false 330000000000 (-8))⟩] ∧
      List.Forall₂ (fun item p =>
          QuantityKept plainUnicode supplyDb.definitions db'.definitions item p ∧
            QuantityRereads plainUnicode db'.definitions p)
        supplyDraft.specifications details.properties :=
  ⟨_, _, rfl, by decide +kernel,
    (quantities_preserved plainUnicode_digits supplyDb.categories supplyDb supplyDraft
      (by decide +kernel)).1 _ _ rfl⟩

end ComponentKb.Catalog
