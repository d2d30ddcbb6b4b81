import ComponentKb.Catalog.World
import ComponentKb.Pipeline.Values
import Mathlib.Data.List.DropRight

/-!
# Units and word boundaries

No pattern of a unit asks for the end of a word. The unit that is read is the longest spelling that
the text has there, so that it is a whole word iff some spelling is.

* `spellings_apart`, `spellings_extend`: no spelling is tried before a longer one, and a longer one
  goes on with a letter.
* `quantity_isSome_iff`: which texts are quantities.
* **`respectsWords_iff`**: the units that are read are whole words iff the text has no unit, or a
  unit as a whole word, at the places where one is looked for.
-/

namespace ComponentKb.Pipeline.Values

open ComponentKb.Catalog (Unicode isSpace plainUnicode)
open Lib Lib.Spelling

/-! ## The spellings -/

/-- A letter of a unit; the degree and the percent sign are none. -/
def isUnitLetter (c : Char) : Bool := ('a' ≤ c && c ≤ 'z') || c = '\u00b5'

/-- What a longer spelling goes on with: a letter that no separator starts with. -/
def goesOn : List (Piece Char) → Bool
  | [] => false
  | piece :: _ => !piece.gap && isUnitLetter piece.letter && piece.letter ≠ 't'

/-- No spelling is a longer form of one that is tried before it. -/
theorem spellings_apart (kind : ValueKind) :
    (spellings kind).Pairwise fun p q => beyond p q = none := by
  cases kind <;> decide +kernel

/-- A longer spelling goes on with a letter, behind a letter. -/
theorem spellings_extend (kind : ValueKind) : ∀ p ∈ spellings kind, ∀ q ∈ spellings kind,
    p = q ∨ (beyond p q).all fun more =>
      goesOn more && p.getLast?.all fun piece => isUnitLetter piece.letter := by
  cases kind <;> decide +kernel

theorem spellings_letters (kind : ValueKind) : ∀ p ∈ spellings kind, p ≠ [] ∧ ∀ piece ∈ p,
    isUnitLetter piece.letter ∨ piece.letter = '°' ∨ piece.letter = '%' := by
  cases kind <;> decide +kernel

theorem ignoreCase_space {c : Char} (h : isSpace c) : ignoreCase c = c := by
  have hne : ∀ d : Char, isSpace d = false → c ≠ d := by
    rintro d hd rfl
    rw [h] at hd
    cases hd
  have hupper : ¬ ('A' ≤ c ∧ c ≤ 'Z') := by
    rintro ⟨hlo, hhi⟩
    rw [Char.le_def, UInt32.le_iff_toNat_le] at hlo hhi
    have hlo : 65 ≤ c.toNat := hlo
    have hhi : c.toNat ≤ 90 := hhi
    unfold isSpace at h
    simp only [Bool.or_eq_true, Bool.and_eq_true, decide_eq_true_eq, beq_iff_eq] at h
    omega
  unfold ignoreCase
  rw [if_neg hupper, if_neg, if_neg, if_neg, if_neg]
  · exact fun h => h.elim (hne _ (by decide)) (hne _ (by decide))
  · exact hne _ (by decide)
  · exact hne _ (by decide)
  · exact fun h => h.elim (hne _ (by decide)) (hne _ (by decide))

theorem isSpace_unitLetter {c : Char} (h : isUnitLetter c ∨ c = '°' ∨ c = '%') :
    isSpace c = false := by
  rcases h with h | rfl | rfl
  · unfold isUnitLetter at h
    rw [Bool.or_eq_true, Bool.and_eq_true, decide_eq_true_eq, decide_eq_true_eq,
      decide_eq_true_eq] at h
    rcases h with ⟨hlo, hhi⟩ | rfl
    · rw [Char.le_def, UInt32.le_iff_toNat_le] at hlo hhi
      have hlo : 97 ≤ c.toNat := hlo
      have hhi : c.toNat ≤ 122 := hhi
      by_contra hspace
      unfold isSpace at hspace
      simp only [Bool.not_eq_false, Bool.or_eq_true, Bool.and_eq_true, decide_eq_true_eq,
        beq_iff_eq] at hspace
      omega
    · decide
  · decide
  · decide

variable {kind : ValueKind} {p q : List (Piece Char)} {s : Chars}

theorem plain_spelling (hp : p ∈ spellings kind) : Plain ignoreCase isSpace p := by
  intro piece hpiece x hx
  have hletter := (spellings_letters kind p hp).2 piece hpiece
  by_contra hspace
  have hspace : isSpace x = true := by simpa using hspace
  rw [ignoreCase_space hspace] at hx
  subst hx
  rw [isSpace_unitLetter hletter] at hspace
  cases hspace

/-! ## The units at one place -/

theorem mem_unitGroups {unit : UnitGroup} :
    unit ∈ unitGroups kind s ↔ ∃ p ∈ spellings kind, behind p s = some unit.after ∧
      unit.text = s.take (s.length - unit.after.length) := by
  unfold unitGroups
  rw [List.mem_filterMap]
  refine exists_congr fun p => and_congr_right fun _ => ?_
  rw [Option.map_eq_some_iff]
  constructor
  · rintro ⟨after, hafter, rfl⟩
    exact ⟨hafter, rfl⟩
  · rintro ⟨hafter, htext⟩
    exact ⟨unit.after, hafter, by rw [← htext]⟩

theorem UnitGroup.text_append {unit : UnitGroup} (h : unit ∈ unitGroups kind s) :
    s = unit.text ++ unit.after := by
  obtain ⟨p, -, hp, htext⟩ := mem_unitGroups.mp h
  obtain ⟨before, hbefore⟩ := rest_suffix hp
  rw [htext, ← hbefore, List.length_append, Nat.add_sub_cancel, List.take_left]

/-- A unit is not followed by a letter, if its last character is one. -/
def UnitGroup.Whole (isLetter : Char → Bool) (unit : UnitGroup) : Prop :=
  ∀ c ∈ unit.text.getLast?, ∀ d ∈ unit.after.head?, isLetter c → isLetter d = false

/-- A text starts with no unit, or with one as a whole word. -/
def WholeAt (isLetter : Char → Bool) (kind : ValueKind) (s : Chars) : Prop :=
  unitGroups kind s = [] ∨ ∃ unit ∈ unitGroups kind s, unit.Whole isLetter

/-- `str.isalpha`: the characters that the letters of the units stand for are letters, and a space
is none. -/
structure Letters (isLetter : Char → Bool) : Prop where
  unit : ∀ c, isUnitLetter (ignoreCase c) → isLetter c
  space : ∀ c, isSpace c → isLetter c = false

variable {isLetter : Char → Bool} {unit other : UnitGroup}

/-- Behind the shorter one of two units, the text goes on with a letter of the longer one. -/
theorem longer_unit (hunit : unit ∈ unitGroups kind s) (hother : other ∈ unitGroups kind s)
    (hlt : other.after.length < unit.after.length) :
    (∃ c ∈ unit.text.getLast?, isUnitLetter (ignoreCase c)) ∧
      ∃ d ∈ unit.after.head?, isUnitLetter (ignoreCase d) ∧ ignoreCase d ≠ 't' := by
  obtain ⟨p, hp, hafter, -⟩ := mem_unitGroups.mp hunit
  obtain ⟨q, hq, hafter', -⟩ := mem_unitGroups.mp hother
  obtain ⟨more, hmore, hrest⟩ := beyond_of_rest (plain_spelling hp) (plain_spelling hq) hafter
    hafter' (Nat.le_of_lt hlt)
  have hne : p ≠ q := by
    rintro rfl
    rw [Option.some_inj.mp (hafter.symm.trans hafter')] at hlt
    exact Nat.lt_irrefl _ hlt
  have hall := (spellings_extend kind p hp q hq).resolve_left hne
  rw [hmore, Option.all_some, Bool.and_eq_true] at hall
  obtain ⟨hgoes, hlast⟩ := hall
  constructor
  · obtain ⟨before, piece, rfl⟩ : ∃ before piece, p = before ++ [piece] := by
      obtain hnil | ⟨before, piece, hconcat⟩ := List.eq_nil_or_concat p
      · exact absurd hnil (spellings_letters kind p hp).1
      · exact ⟨before, piece, by rw [hconcat, List.concat_eq_append]⟩
    obtain ⟨start, c, hs, hc⟩ := rest_last hafter
    have htext : unit.text = start ++ [c] := by
      have hwhole := UnitGroup.text_append hunit
      rw [hs, List.append_cons] at hwhole
      exact (List.append_cancel_right hwhole).symm
    refine ⟨c, by rw [htext, List.getLast?_concat]; rfl, ?_⟩
    rw [hc]
    simpa using hlast
  · cases more with
    | nil => cases hgoes
    | cons piece more =>
      obtain ⟨d, after, hskip, hd, -⟩ := rest_cons.mp hrest
      simp only [goesOn, Bool.and_eq_true, Bool.not_eq_true', decide_eq_true_eq] at hgoes
      obtain ⟨⟨hgap, hletter⟩, ht⟩ := hgoes
      rw [Piece.skip, hgap] at hskip
      simp only [Bool.false_eq_true, if_false] at hskip
      refine ⟨d, ?_, ?_, ?_⟩
      · rw [hskip]
        rfl
      · rw [hd]
        exact hletter
      · rw [hd]
        exact ht

/-- A unit that no other one goes beyond is a whole word iff some unit is one. -/
theorem wholeAt_iff (hl : Letters isLetter) (hunit : unit ∈ unitGroups kind s)
    (hlongest : ∀ other ∈ unitGroups kind s, ¬ other.after.length < unit.after.length) :
    WholeAt isLetter kind s ↔ unit.Whole isLetter := by
  constructor
  · rintro (hnone | ⟨other, hother, hwhole⟩)
    · rw [hnone] at hunit
      cases hunit
    rcases Nat.lt_trichotomy other.after.length unit.after.length with hlt | heq | hgt
    · exact absurd hlt (hlongest other hother)
    · have happend := (UnitGroup.text_append hunit).symm.trans (UnitGroup.text_append hother)
      obtain ⟨htext, hafter⟩ := List.append_inj' happend heq.symm
      unfold UnitGroup.Whole
      rw [htext, hafter]
      exact hwhole
    · -- the other unit is shorter, and a letter of this one follows it
      obtain ⟨⟨c, hc, hletter⟩, d, hd, hletter', -⟩ := longer_unit hother hunit hgt
      have hno := hwhole c hc d hd (hl.unit c hletter)
      rw [hl.unit d hletter'] at hno
      cases hno
  · exact fun hwhole => .inr ⟨unit, hunit, hwhole⟩

/-- No unit is longer than one that is tried before it. -/
theorem unitGroups_pairwise (kind : ValueKind) (s : Chars) :
    (unitGroups kind s).Pairwise fun unit other => ¬ other.after.length < unit.after.length := by
  unfold unitGroups
  rw [List.pairwise_filterMap]
  refine (spellings_apart kind).imp_of_mem fun {p q} hp hq hapart unit hunit other hother hlt => ?_
  obtain ⟨after, hafter, rfl⟩ := Option.map_eq_some_iff.mp hunit
  obtain ⟨after', hafter', rfl⟩ := Option.map_eq_some_iff.mp hother
  obtain ⟨more, hmore, -⟩ := beyond_of_rest (plain_spelling hp) (plain_spelling hq) hafter hafter'
    (Nat.le_of_lt hlt)
  rw [hapart] at hmore
  cases hmore

/-- The first unit is the longest one. -/
theorem head_longest (hhead : (unitGroups kind s).head? = some unit) :
    ∀ other ∈ unitGroups kind s, ¬ other.after.length < unit.after.length := by
  obtain ⟨others, hgroups⟩ := List.head?_eq_some_iff.mp hhead
  have hpairwise := unitGroups_pairwise kind s
  rw [hgroups] at hpairwise ⊢
  intro other hother
  rcases List.mem_cons.mp hother with rfl | hother
  · exact Nat.lt_irrefl _
  · exact List.rel_of_pairwise_cons hpairwise hother

theorem behind_head {c : Char} {p : List (Piece Char)} {r : Chars}
    (h : behind (⟨false, c⟩ :: p) s = some r) : ∃ d ∈ s.head?, ignoreCase d = c := by
  obtain ⟨d, after, hskip, hd, -⟩ := rest_cons.mp h
  have hs : s = d :: after := hskip
  exact ⟨d, by rw [hs]; rfl, hd⟩

/-- What a separator starts with. -/
theorem rangeSeparator_head {r : Chars} (h : rangeSeparator s = some r) :
    ∃ c ∈ s.head?, ignoreCase c ∈ ['t', '-', '–', '—', '~'] := by
  obtain ⟨word, hword, hbehind⟩ := List.exists_of_findSome?_eq_some h
  have hfirst : ∀ word ∈ ["to", "-", "–", "—", "~"], ∃ c ∈ ['t', '-', '–', '—', '~'],
      ∃ p, spelling word = ⟨false, c⟩ :: p := by
    simp only [List.forall_mem_cons, List.not_mem_nil, false_imp_iff, implies_true, and_true]
    exact ⟨⟨'t', by decide, [⟨false, 'o'⟩], by decide⟩, ⟨'-', by decide, [], by decide⟩,
      ⟨'–', by decide, [], by decide⟩, ⟨'—', by decide, [], by decide⟩,
      ⟨'~', by decide, [], by decide⟩⟩
  obtain ⟨c, hc, p, hspelling⟩ := hfirst word hword
  rw [hspelling] at hbehind
  obtain ⟨d, hd, rfl⟩ := behind_head hbehind
  exact ⟨d, hd, hc⟩

/-- A unit that a separator follows is the longest one. -/
theorem separated_longest {r : Chars} (hunit : unit ∈ unitGroups kind s)
    (hsep : rangeSeparator (spaces unit.after) = some r) :
    ∀ other ∈ unitGroups kind s, ¬ other.after.length < unit.after.length := by
  intro other hother hlt
  obtain ⟨-, d, hd, hletter, ht⟩ := longer_unit hunit hother hlt
  have hspace : isSpace d = false := by
    by_contra hspace
    rw [Bool.not_eq_false] at hspace
    rw [ignoreCase_space hspace] at hletter
    rw [isSpace_unitLetter (.inl hletter)] at hspace
    cases hspace
  obtain ⟨after, hafter⟩ := List.head?_eq_some_iff.mp hd
  obtain ⟨c, hc, hmem⟩ := rangeSeparator_head hsep
  rw [spaces, hafter, List.dropWhile_cons_of_neg (by simp [hspace]), List.head?_cons,
    Option.mem_some_iff] at hc
  subst hc
  have hnone : ∀ c ∈ ['-', '–', '—', '~'], isUnitLetter c = false := by decide
  rcases List.mem_cons.mp hmem with hmem | hmem
  · exact ht hmem
  · rw [hnone _ hmem] at hletter
    cases hletter

/-- A unit that was matched has a symbol. -/
theorem canonicalUnit_isSome (hunit : unit ∈ unitGroups kind s) :
    (canonicalUnit kind unit.text).isSome := by
  obtain ⟨p, hp, hafter, -⟩ := mem_unitGroups.mp hunit
  have htaken : behind p unit.text = some [] := by
    refine rest_taken (r := unit.after) ?_
    rw [← UnitGroup.text_append hunit]
    exact hafter
  obtain ⟨row, hrow, hmem⟩ := List.mem_flatMap.mp hp
  obtain ⟨word, hword, rfl⟩ := List.mem_map.mp hmem
  unfold canonicalUnit
  rw [Option.isSome_map, List.find?_isSome]
  exact ⟨row, hrow, List.any_eq_true.mpr ⟨word, hword, by simpa using htaken⟩⟩

/-- No unit starts as a separator does. -/
theorem spellings_start (kind : ValueKind) : ∀ p ∈ spellings kind, p.head?.all fun piece =>
    !piece.gap && piece.letter ∉ ['t', '-', '–', '—', '~'] := by
  cases kind <;> decide +kernel

/-- A text that goes on with a separator starts with no unit. -/
theorem unitGroups_separator {r : Chars} (hsep : rangeSeparator s = some r) :
    unitGroups kind s = [] := by
  by_contra hne
  obtain ⟨unit, hunit⟩ := List.exists_mem_of_ne_nil _ hne
  obtain ⟨p, hp, hafter, -⟩ := mem_unitGroups.mp hunit
  obtain ⟨⟨gap, letter⟩, p, rfl⟩ := List.exists_cons_of_ne_nil (spellings_letters kind p hp).1
  have hstart := spellings_start kind _ hp
  rw [List.head?_cons, Option.all_some, Bool.and_eq_true, Bool.not_eq_true', decide_eq_true_eq]
    at hstart
  obtain ⟨rfl, hletter⟩ := hstart
  obtain ⟨d, hd, rfl⟩ := behind_head hafter
  obtain ⟨c, hc, hmem⟩ := rangeSeparator_head hsep
  rw [Option.mem_def.mp hc, Option.mem_some_iff] at hd
  exact hletter (hd ▸ hmem)

/-! ## The places of the units -/

section

variable (u : Unicode)

/-- What follows a number and the spaces behind it. -/
def afterNumber (value : Chars) : Option Chars :=
  (number u (spaces value)).map fun (_, s) => spaces s

/-- The place behind the first number, which may have the sign of a tolerance. -/
def firstPlace (value : Chars) : Option Chars :=
  match spaces value with
  | '±' :: s => afterNumber u s
  | s => afterNumber u s

/-- The text is a range, and its units agree. -/
def isRange (kind : ValueKind) (value : Chars) : Bool := (rangeQuantity u kind value).isSome

/-- The text is a quantity: a range, or a number and a unit. -/
def accepts (kind : ValueKind) (value : Chars) : Bool :=
  isRange u kind value || (firstPlace u value).any fun s => unitGroups kind s ≠ []

/-- The units of one kind are whole words at the places where they are looked for: behind the first
number, and behind the second one of a range. -/
structure KindFits (isLetter : Char → Bool) (kind : ValueKind) (value : Chars) : Prop where
  first : ∀ place ∈ firstPlace u value, WholeAt isLetter kind place
  second : isRange u kind value → ∀ groups ∈ rangeMatch u kind value,
    WholeAt isLetter kind groups.place

end

variable {u : Unicode} {value : Chars} {q : Quantity}

theorem spaces_spaces (s : Chars) : spaces (spaces s) = spaces s := List.dropWhile_idempotent ..

/-- What the groups of a range are read off. -/
theorem rangeMatch_spec {groups : RangeMatch} (h : rangeMatch u kind value = some groups) :
    ∃ s, number u (spaces value) = some (groups.first, s) ∧
      (∀ unit ∈ groups.firstUnit, unit ∈ unitGroups kind (spaces s)) ∧
      rangeEnd u ((groups.firstUnit.map UnitGroup.after).getD (spaces s)) =
        some (groups.second, groups.place) := by
  obtain ⟨⟨first, s⟩, hnumber, h⟩ := Option.bind_eq_some_iff.mp h
  obtain ⟨unit, hunit, h⟩ := List.exists_of_findSome?_eq_some h
  obtain ⟨⟨second, place⟩, hend, rfl⟩ := Option.map_eq_some_iff.mp h
  refine ⟨s, hnumber, fun found hfound => ?_, hend⟩
  rcases List.mem_append.mp hunit with hunit | hunit
  · obtain ⟨other, hother, rfl⟩ := List.mem_map.mp hunit
    rw [Option.mem_some_iff] at hfound
    exact hfound ▸ hother
  · obtain rfl := List.mem_singleton.mp hunit
    cases hfound

theorem rangeEnd_separator {s : Chars} {found : Chars × Chars} (h : rangeEnd u s = some found) :
    ∃ r, rangeSeparator (spaces s) = some r := by
  obtain ⟨r, hsep, -⟩ := Option.bind_eq_some_iff.mp h
  exact ⟨r, hsep⟩

/-- The units of a range that is returned. -/
theorem rangeQuantity_spec (h : rangeQuantity u kind value = some q) :
    ∃ groups, rangeMatch u kind value = some groups ∧
      q.units = groups.firstUnit.toList ++ (groups.secondUnit kind).toList := by
  obtain ⟨groups, hgroups, h⟩ := Option.bind_eq_some_iff.mp h
  obtain ⟨unit, hunit, h⟩ := Option.bind_eq_some_iff.mp h
  obtain ⟨canonical, hcanonical, h⟩ := Option.bind_eq_some_iff.mp h
  refine ⟨groups, hgroups, ?_⟩
  split at h
  · cases h
    rfl
  · cases h

theorem measured_eq_some {amount : Chars → Amount} :
    measured u kind amount value = some q ↔ ∃ n s unit canonical,
      number u (spaces value) = some (n, s) ∧ (unitGroups kind (spaces s)).head? = some unit ∧
        canonicalUnit kind unit.text = some canonical ∧
          q = ⟨amount n, [unit], canonical, spaces unit.after⟩ := by
  unfold measured
  constructor
  · intro h
    obtain ⟨⟨n, s⟩, hnumber, h⟩ := Option.bind_eq_some_iff.mp h
    obtain ⟨unit, hunit, h⟩ := Option.bind_eq_some_iff.mp h
    obtain ⟨canonical, hcanonical, h⟩ := Option.bind_eq_some_iff.mp h
    exact ⟨n, s, unit, canonical, hnumber, hunit, hcanonical, (Option.some_inj.mp h).symm⟩
  · rintro ⟨n, s, unit, canonical, hnumber, hunit, hcanonical, rfl⟩
    rw [hnumber, Option.bind_eq_bind, Option.bind_some]
    simp only [hunit, hcanonical, Option.bind_eq_bind, Option.bind_some]

/-- The sign of a tolerance is no digit. -/
theorem number_sign (hsign : u.digit '±' = none) (s : Chars) : number u ('±' :: s) = none := by
  have hdecimal : Lib.Numerals.isDecimal (Lib.Notation.decimalValue u.digit) '±' = false := by
    simp [Lib.Numerals.isDecimal, Lib.Notation.decimalValue, hsign]
  simp [number, Lib.Numerals.numeral, hdecimal]

theorem firstPlace_number (hsign : u.digit '±' = none) {n s : Chars}
    (h : number u (spaces value) = some (n, s)) : firstPlace u value = some (spaces s) := by
  unfold firstPlace
  split
  · rename_i s' hspaces
    rw [hspaces, number_sign hsign] at h
    cases h
  · rw [afterNumber, spaces_spaces, h]
    rfl

/-- The two readings of a number and a unit. -/
theorem measured_first (hsign : u.digit '±' = none)
    (h : (toleranceQuantity u kind value).or (measured u kind .scalar value) = some q) :
    ∃ place unit, firstPlace u value = some place ∧ (unitGroups kind place).head? = some unit ∧
      q.units = [unit] := by
  rcases Option.or_eq_some_iff.mp h with h | ⟨-, h⟩
  · unfold toleranceQuantity at h
    split at h
    · rename_i s hspaces
      obtain ⟨n, rest, unit, canonical, hnumber, hunit, -, rfl⟩ := measured_eq_some.mp h
      refine ⟨spaces rest, unit, ?_, hunit, rfl⟩
      rw [firstPlace, hspaces]
      simp only
      rw [afterNumber, hnumber]
      rfl
    · cases h
  · obtain ⟨n, rest, unit, canonical, hnumber, hunit, -, rfl⟩ := measured_eq_some.mp h
    exact ⟨spaces rest, unit, firstPlace_number hsign hnumber, hunit, rfl⟩

/-- A unit behind the first number makes a quantity. -/
theorem quantity_of_unit {place : Chars} (hplace : firstPlace u value = some place)
    (hne : unitGroups kind place ≠ []) : (quantity u kind value).isSome := by
  obtain ⟨unit, units, hgroups⟩ := List.exists_cons_of_ne_nil hne
  have hhead : (unitGroups kind place).head? = some unit := by
    rw [hgroups]
    rfl
  obtain ⟨canonical, hcanonical⟩ := Option.isSome_iff_exists.mp
    (canonicalUnit_isSome (List.mem_of_head? hhead))
  unfold quantity
  rw [Option.isSome_or, Option.isSome_or, Bool.or_eq_true, Bool.or_eq_true]
  right
  unfold firstPlace at hplace
  split at hplace
  · rename_i s hspaces
    obtain ⟨⟨n, rest⟩, hnumber, rfl⟩ := Option.map_eq_some_iff.mp hplace
    left
    rw [toleranceQuantity, hspaces]
    exact Option.isSome_iff_exists.mpr
      ⟨_, measured_eq_some.mpr ⟨n, rest, unit, canonical, hnumber, hhead, hcanonical, rfl⟩⟩
  · obtain ⟨⟨n, rest⟩, hnumber, rfl⟩ := Option.map_eq_some_iff.mp hplace
    right
    rw [spaces_spaces] at hnumber
    exact Option.isSome_iff_exists.mpr
      ⟨_, measured_eq_some.mpr ⟨n, rest, unit, canonical, hnumber, hhead, hcanonical, rfl⟩⟩

/-- The texts that are quantities. -/
theorem quantity_isSome_iff (hsign : u.digit '±' = none) :
    (quantity u kind value).isSome = accepts u kind value := by
  rw [Bool.eq_iff_iff]
  unfold accepts
  rw [Bool.or_eq_true, Option.any_eq_true]
  constructor
  · intro h
    obtain ⟨q, hq⟩ := Option.isSome_iff_exists.mp h
    rcases Option.or_eq_some_iff.mp hq with hq | ⟨-, hq⟩
    · exact .inl (by rw [isRange, hq]; rfl)
    · obtain ⟨place, unit, hplace, hhead, -⟩ := measured_first hsign hq
      refine .inr ⟨place, hplace, ?_⟩
      rw [decide_eq_true_eq]
      intro hnil
      rw [hnil] at hhead
      cases hhead
  · rintro (h | ⟨place, hplace, hne⟩)
    · obtain ⟨q, hq⟩ := Option.isSome_iff_exists.mp h
      rw [quantity, hq]
      rfl
    · exact quantity_of_unit hplace (by simpa using hne)

/-- The units of a quantity are whole words iff its kind fits. -/
theorem units_whole_iff (hl : Letters isLetter) (hsign : u.digit '±' = none)
    (h : quantity u kind value = some q) :
    (∀ unit ∈ q.units, unit.Whole isLetter) ↔ KindFits u isLetter kind value := by
  cases hrange : rangeQuantity u kind value with
  | none =>
    rw [quantity, hrange, Option.none_or] at h
    obtain ⟨place, unit, hplace, hhead, hunits⟩ := measured_first hsign h
    have hiff := wholeAt_iff hl (List.mem_of_head? hhead) (head_longest hhead)
    rw [hunits, List.forall_mem_singleton, ← hiff]
    constructor
    · intro hwhole
      refine ⟨fun other hother => ?_, fun hno => ?_⟩
      · rw [hplace, Option.mem_some_iff] at hother
        exact hother ▸ hwhole
      · rw [isRange, hrange] at hno
        cases hno
    · exact fun hfits => hfits.first place hplace
  | some found =>
    rw [quantity, hrange, Option.some_or] at h
    obtain rfl := Option.some_inj.mp h
    obtain ⟨groups, hgroups, hunits⟩ := rangeQuantity_spec hrange
    obtain ⟨s, hnumber, hfirst, hend⟩ := rangeMatch_spec hgroups
    obtain ⟨r, hsep⟩ := rangeEnd_separator hend
    have hplace := firstPlace_number hsign hnumber
    -- the first unit is followed by the separator; without it, the separator stands there
    have hone : (∀ unit ∈ groups.firstUnit.toList, unit.Whole isLetter) ↔
        WholeAt isLetter kind (spaces s) := by
      cases hunit : groups.firstUnit with
      | none =>
        rw [hunit, Option.map_none, Option.getD_none, spaces_spaces] at hsep
        exact iff_of_true (by simp) (.inl (unitGroups_separator hsep))
      | some unit =>
        rw [hunit, Option.map_some, Option.getD_some] at hsep
        have hmem := hfirst unit hunit
        rw [wholeAt_iff hl hmem (separated_longest hmem hsep)]
        simp
    have htwo : (∀ unit ∈ (groups.secondUnit kind).toList, unit.Whole isLetter) ↔
        WholeAt isLetter kind groups.place := by
      cases hunit : groups.secondUnit kind with
      | none => exact iff_of_true (by simp) (.inl (List.head?_eq_none_iff.mp hunit))
      | some unit =>
        rw [wholeAt_iff hl (List.mem_of_head? hunit) (head_longest hunit)]
        simp
    rw [hunits, List.forall_mem_append, hone, htwo]
    constructor
    · rintro ⟨hwhole, hwhole'⟩
      refine ⟨fun other hother => ?_, fun _ other hother => ?_⟩
      · rw [hplace, Option.mem_some_iff] at hother
        exact hother ▸ hwhole
      · rw [hgroups, Option.mem_some_iff] at hother
        exact hother ▸ hwhole'
    · intro hfits
      exact ⟨hfits.first _ hplace, hfits.second (by rw [isRange, hrange]; rfl) groups hgroups⟩

/-! ## The units of a value -/

section

variable (u : Unicode)

/-- The units that `normalize_value` matched, each with what follows it. -/
def matchedUnits (value : Chars) (kind : ValueKind) : List UnitGroup :=
  let cleaned := clean u value
  match kind with
  | .auto => ((candidates.findSome? fun candidate => quantity u candidate cleaned).map
      Quantity.units).getD []
  | .voltage | .current | .temperature | .frequency | .percent | .pressure =>
    ((quantity u kind cleaned).map Quantity.units).getD []
  | .dimensions => ((dimensionsMatch u cleaned).map fun groups => [groups.rawUnit]).getD []
  | .interface | .text => []

/-- Where a unit is returned, what was matched as one is a whole word. -/
def RespectsWords (isLetter : Char → Bool) (value : Chars) (kind : ValueKind) : Prop :=
  (normalizeValue u value kind).unit.isSome →
    ∀ unit ∈ matchedUnits u value kind, unit.Whole isLetter

/-- The kind that a value is read as a quantity of; `AUTO` takes the first that accepts it. -/
def readAs (value : Chars) : ValueKind → Option ValueKind
  | .auto => candidates.find? fun candidate => accepts u candidate (clean u value)
  | .dimensions | .interface | .text => none
  | kind => some kind

end

/-- A quantity of one kind. -/
theorem quantity_respects_iff (hl : Letters isLetter) (hsign : u.digit '±' = none) :
    (((normalizeQuantity u kind value).getD (plainText value)).unit.isSome →
      ∀ unit ∈ ((quantity u kind value).map Quantity.units).getD [], unit.Whole isLetter) ↔
    KindFits u isLetter kind value := by
  unfold normalizeQuantity
  cases hquantity : quantity u kind value with
  | none =>
    refine iff_of_true (fun _ => by simp) ⟨fun place hplace => ?_, fun hrange => ?_⟩
    · by_contra hno
      have hsome := quantity_of_unit hplace fun hnil => hno (.inl hnil)
      rw [hquantity] at hsome
      cases hsome
    · have haccepts : (quantity u kind value).isSome = accepts u kind value :=
        quantity_isSome_iff hsign
      rw [accepts, hrange, hquantity] at haccepts
      cases haccepts
  | some q =>
    rw [← units_whole_iff hl hsign hquantity]
    simp [Quantity.normalization]

theorem findSome?_eq {α β : Type} (f : α → Option β) (xs : List α) :
    xs.findSome? f = (xs.find? fun x => (f x).isSome).bind f := by
  induction xs with
  | nil => rfl
  | cons x xs ih =>
    rw [List.findSome?_cons, List.find?_cons]
    cases hx : f x with
    | none => simpa using ih
    | some y => simp [hx]

/-- The letters behind the numbers of dimensions end the text. -/
theorem dimensions_ends {unit : UnitGroup} (h : unit ∈ matchedUnits u value .dimensions) :
    ∀ d ∈ unit.after.head?, isSpace d := by
  obtain ⟨groups, hgroups, hunit⟩ : ∃ groups, dimensionsMatch u (clean u value) = some groups ∧
      unit = groups.rawUnit := by
    unfold matchedUnits at h
    simp only at h
    cases hgroups : dimensionsMatch u (clean u value) with
    | none =>
      rw [hgroups] at h
      cases h
    | some groups =>
      rw [hgroups] at h
      exact ⟨groups, rfl, List.mem_singleton.mp h⟩
  obtain ⟨first, hfirst, hgroups⟩ := Option.bind_eq_some_iff.mp hgroups
  obtain ⟨second, hsecond, hgroups⟩ := Option.bind_eq_some_iff.mp hgroups
  have hblank : spaces groups.rawUnit.after = [] := by
    simp only at hgroups
    split at hgroups <;> split at hgroups
    · rename_i hblank
      rw [← Option.some_inj.mp hgroups]
      exact hblank
    · cases hgroups
    · rename_i hblank
      rw [← Option.some_inj.mp hgroups]
      exact hblank
    · cases hgroups
  intro d hd
  by_contra hspace
  obtain ⟨rest, hrest⟩ := List.head?_eq_some_iff.mp hd
  rw [hunit] at hrest
  rw [hrest, spaces, List.dropWhile_cons_of_neg (by simpa using hspace)] at hblank
  cases hblank

/-- **The units of a value are whole words iff the kind that it is read as fits.** -/
theorem respectsWords_iff (hl : Letters isLetter) (hsign : u.digit '±' = none) (value : Chars)
    (kind : ValueKind) :
    RespectsWords u isLetter value kind ↔
      ∀ k ∈ readAs u value kind, KindFits u isLetter k (clean u value) := by
  have hone : ∀ k, RespectsWords u isLetter value k = ((((normalizeQuantity u k
      (clean u value)).getD (plainText (clean u value))).unit.isSome →
        ∀ unit ∈ ((quantity u k (clean u value)).map Quantity.units).getD [],
          unit.Whole isLetter)) → readAs u value k = some k →
      (RespectsWords u isLetter value k ↔
        ∀ k' ∈ readAs u value k, KindFits u isLetter k' (clean u value)) := by
    intro k hk hread
    rw [hk, quantity_respects_iff hl hsign, hread]
    simp
  cases kind with
  | voltage => exact hone _ rfl rfl
  | current => exact hone _ rfl rfl
  | temperature => exact hone _ rfl rfl
  | frequency => exact hone _ rfl rfl
  | percent => exact hone _ rfl rfl
  | pressure => exact hone _ rfl rfl
  | interface => exact iff_of_true (fun _ => by simp [matchedUnits]) (by simp [readAs])
  | text => exact iff_of_true (fun _ => by simp [matchedUnits]) (by simp [readAs])
  | dimensions =>
    refine iff_of_true (fun _ unit hunit c hc d hd hletter => ?_) (by simp [readAs])
    exact hl.space d (dimensions_ends hunit d hd)
  | auto =>
    have hfirst : ∀ {α : Type} (f : ValueKind → Option α),
        (∀ k, (f k).isSome = accepts u k (clean u value)) →
          candidates.findSome? f = (readAs u value .auto).bind f := by
      intro α f hf
      rw [findSome?_eq, readAs]
      simp only [hf]
    have hquantities := hfirst (fun k => quantity u k (clean u value)) fun k =>
      quantity_isSome_iff hsign
    have hnormalizations := hfirst (fun k => normalizeQuantity u k (clean u value)) fun k => by
      rw [normalizeQuantity, Option.isSome_map, quantity_isSome_iff hsign]
    unfold RespectsWords normalizeValue matchedUnits
    simp only
    rw [hquantities, hnormalizations]
    cases hread : readAs u value .auto with
    | none => exact iff_of_true (fun _ => by simp) (by simp)
    | some k =>
      rw [Option.bind_some, Option.bind_some, quantity_respects_iff hl hsign]
      simp

/-- The letters of ASCII and the letters that are compared as such. -/
def plainLetters (c : Char) : Bool := isUnitLetter (ignoreCase c)

theorem plainLetters_letters : Letters plainLetters := by
  refine ⟨fun c h => h, fun c hc => ?_⟩
  unfold plainLetters
  rw [ignoreCase_space hc]
  by_contra hletter
  rw [Bool.not_eq_false] at hletter
  rw [isSpace_unitLetter (.inl hletter)] at hc
  cases hc

/-- A current that is read as one. -/
theorem respectsWords_iff_current :
    RespectsWords plainUnicode plainLetters ['1', '2', ' ', 'm', 'A'] .current := by
  refine (respectsWords_iff plainLetters_letters (by decide) _ _).mpr fun k hk => ?_
  obtain rfl := Option.some_inj.mp hk
  refine ⟨fun place hplace => ?_, fun hrange => ?_⟩
  · have hfirst : firstPlace plainUnicode (clean plainUnicode ['1', '2', ' ', 'm', 'A']) =
        some ['m', 'A'] := by decide +kernel
    rw [hfirst, Option.mem_some_iff] at hplace
    subst hplace
    exact .inr ⟨⟨['m', 'A'], []⟩, by decide +kernel, by simp [UnitGroup.Whole]⟩
  · have hno : isRange plainUnicode .current
        (clean plainUnicode ['1', '2', ' ', 'm', 'A']) = false := by decide +kernel
    rw [hno] at hrange
    cases hrange

/-- **Inputs that become amperes.** `12 analog inputs` is read as a current of 12 A. -/
theorem analog_inputs :
    ¬ RespectsWords plainUnicode plainLetters "12 analog inputs".toList .current := by
  intro h
  have hunit : (normalizeValue plainUnicode "12 analog inputs".toList .current).unit =
      some ['A'] := by decide +kernel
  have hmatched : matchedUnits plainUnicode "12 analog inputs".toList .current =
      [⟨['a'], "nalog inputs".toList⟩] := by decide +kernel
  have hwhole := h (by rw [hunit]; rfl) _ (by rw [hmatched]; exact List.mem_singleton_self _) 'a'
    rfl 'n' (by decide +kernel) (by decide)
  exact absurd hwhole (by decide)

end ComponentKb.Pipeline.Values
