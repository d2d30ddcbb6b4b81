import ComponentKb.Catalog.Text
import ComponentKb.Lib.Fractions
import ComponentKb.Lib.Notation
import ComponentKb.Lib.Records
import ComponentKb.Lib.Splitting
import Mathlib.Algebra.Order.BigOperators.Group.List
import Mathlib.Data.Finset.Max
import Mathlib.Data.Finset.Option
import Mathlib.Data.Finset.Prod
import Mathlib.Data.Int.Bitwise
import Mathlib.Data.Nat.Size

/-!
# Scores of likely duplicates

`score_pair` (`deduplication/scoring.py`) on the signals of two components. Floats are exact
rationals; a division checks its divisor. A hash of a text is a parameter.

* `jaccard_comm`, `specSimilarity_comm`, `phashSimilarity_comm`: every signal is symmetric.
* `bitCount_xor`: two hashes of sixteen digits differ in at most 64 bits, whatever `int` reads.
* **`scorePair_sound`**: a pair always has a score; it is between 0 and 1, and with its evidence the
  same for the pair in the other order.
-/

namespace ComponentKb.Catalog.Scoring

open Lib Lib.Fractions Lib.Notation

structure ComponentSignals where
  title : String
  aliases : List String
  manufacturer : Option String
  model : Option String
  specifications : List (String × String)
  textHashes : Finset String
  mediaSha256 : Finset String
  mediaPhashes : Finset String

section

variable (u : Unicode)

/-! ## Texts -/

/-- `normalize_text`: the runs of letters and digits (`_TOKEN`), with one space between. -/
def normalizeText (value : Option String) : String :=
  match value with
  | none => ""
  | some value => String.ofList ([' '].intercalate
      (parts (fun c => !(u.isAlnum c && c ≠ '_')) (u.casefold (u.nfkc value)).toList))

/-- `_tokens`. -/
def tokens (signals : ComponentSignals) : Finset String :=
  ((signals.title :: signals.aliases ++ [signals.manufacturer.getD "", signals.model.getD ""]).flatMap
    fun value => (parts isSpace (normalizeText u (some value)).toList).map String.ofList).toFinset

/-- `_conflicts`. -/
def conflicts (left right : Option String) : Bool :=
  normalizeText u left ≠ "" ∧ normalizeText u right ≠ "" ∧
    normalizeText u left ≠ normalizeText u right

/-! ## Hashes of pictures -/

/-- The character that `int` reads in a place: a space, or the digit of another script as an ASCII
one. -/
def toAscii (c : Char) : Char :=
  if c.toNat < 127 then c
  else if isSpace c then ' '
  else match u.digit c with
    | some d => Nat.digitChar d
    | none => '?'

/-- A space of ASCII. -/
def isAsciiSpace (c : Char) : Bool := (9 ≤ c.toNat && c.toNat ≤ 13) || c = ' '

/-- Digits after `0x`, which one underscore may follow. -/
def withoutBase : List Char → List Char
  | '0' :: 'x' :: '_' :: cs | '0' :: 'X' :: '_' :: cs | '0' :: 'x' :: cs | '0' :: 'X' :: cs => cs
  | cs => cs

/-- Digits in groups that single underscores part. -/
def readHexGroups (cs : List Char) : Option Nat :=
  let groups := cs.splitOn '_'
  if groups.any List.isEmpty then none else read hexValue 16 groups.flatten

/-- `int(text, 16)`. -/
def readHex (text : String) : Option Int :=
  let cs := stripChars isAsciiSpace (text.toList.map (toAscii u))
  if cs.head? = some '-' then (readHexGroups (withoutBase (cs.drop 1))).map Int.negOfNat
  else if cs.head? = some '+' then (readHexGroups (withoutBase (cs.drop 1))).map Int.ofNat
  else (readHexGroups (withoutBase cs)).map Int.ofNat

/-- `int.bit_count`. -/
def bitCount (n : Int) : Nat := (Nat.bits n.natAbs).count true

/-- The similarity of two hashes, if both are read. -/
def phashPair (first second : String) : Option ℚ :=
  if first.length ≠ 16 ∨ second.length ≠ 16 then none
  else do
    let a ← readHex u first
    let b ← readHex u second
    return 1 - (bitCount (Int.xor a b) : ℚ) / 64

/-- `_phash_similarity`. -/
def phashSimilarity (left right : Finset String) : ℚ :=
  ((left ×ˢ right).biUnion fun pair => (phashPair u pair.1 pair.2).toFinset).max.unbotD 0

/-! ## Signals -/

/-- `ZeroDivisionError`. -/
inductive Fault where
  | zeroDivision
  deriving DecidableEq, Repr

/-- `_bounded`. -/
def bounded (value : ℚ) : ℚ := max 0 (min 1 value)

/-- `_jaccard`. -/
def jaccard (left right : Finset String) : Except Fault ℚ :=
  if left = ∅ ∨ right = ∅ then return 0
  else quotient .zeroDivision (left ∩ right).card (left ∪ right).card

/-- The fields that name a component, and have a text on both sides. -/
def comparable (left right : ComponentSignals) : List (Option String × Option String) :=
  [(left.manufacturer, right.manufacturer), (left.model, right.model)].filter fun pair =>
    normalizeText u pair.1 ≠ "" ∧ normalizeText u pair.2 ≠ ""

/-- `_identity_similarity`. -/
def identitySimilarity (left right : ComponentSignals) : Except Fault ℚ :=
  let comparisons := (comparable u left right).map fun pair =>
    decide (normalizeText u pair.1 = normalizeText u pair.2)
  if comparisons.isEmpty then return 0
  else quotient .zeroDivision (comparisons.count true) comparisons.length

variable (sha256 : String → String)

/-- `specification_fingerprint`. -/
def specificationFingerprint (values : List (String × String)) : Finset String :=
  ((values.filter fun item =>
      normalizeText u (some item.1) ≠ "" ∧ normalizeText u (some item.2) ≠ "").map fun item =>
    sha256 (normalizeText u (some item.1) ++ "\x00" ++ normalizeText u (some item.2))).toFinset

/-- The keys of the dictionary that `_spec_similarity` makes of specifications. -/
def specKeys (values : List (String × String)) : Finset String :=
  (values.map fun item => normalizeText u (some item.1)).toFinset

/-- The value of a key in that dictionary: the last one given. -/
def specValue (values : List (String × String)) (key : String) : Option String :=
  (values.reverse.find? fun item => normalizeText u (some item.1) = key).map fun item =>
    normalizeText u (some item.2)

/-- `_spec_similarity`. -/
def specSimilarity (left right : List (String × String)) : Except Fault (ℚ × Nat) := do
  let sharedKeys := specKeys u left ∩ specKeys u right
  let conflicts := (sharedKeys.filter fun key => specValue u left key ≠ specValue u right key).card
  let score ← jaccard (specificationFingerprint u sha256 left)
    (specificationFingerprint u sha256 right)
  return (score, conflicts)

/-! ## The score -/

/-- The keys of `signals`. -/
inductive Signal where
  | titleTrigram | tokenSimilarity | identitySimilarity | specFingerprint | textHashes
  | mediaSha256 | mediaPhash
  deriving DecidableEq, Repr

/-- The keys of `penalties`. -/
inductive Penalty where
  | manufacturerConflict | modelConflict | specConflicts
  deriving DecidableEq, Repr

/-- The evidence beside `algorithm_version`. -/
structure Evidence where
  signals : List (Signal × ℚ)
  penalties : List (Penalty × ℚ)
  specConflictCount : Nat
  activeWeights : List (Signal × ℚ)
  deriving DecidableEq

structure ScoreResult where
  score : ℚ
  evidence : Evidence
  deriving DecidableEq

/-- A row of `weighted_signals`. -/
structure Weighted where
  name : Signal
  value : ℚ
  weight : ℚ
  active : Bool

/-- The penalties of a pair: those of its rows that apply. -/
def penaltiesOf (left right : ComponentSignals) (specConflicts : Nat) : List (Penalty × ℚ) :=
  let rows : List (Penalty × ℚ × Bool) := [
    (.manufacturerConflict, 3 / 20, conflicts u left.manufacturer right.manufacturer),
    (.modelConflict, 1 / 4, conflicts u left.model right.model),
    (.specConflicts, min (1 / 5) (1 / 20 * specConflicts), specConflicts ≠ 0)]
  (rows.filter fun row => row.2.2).map fun row => (row.1, row.2.1)

/-- `weighted_signals`, of the scores in their order. -/
def weightedSignals (left right : ComponentSignals)
    (trigram token identity spec text mediaSha phash : ℚ) : List Weighted := [
  ⟨.titleTrigram, trigram, 1 / 4, true⟩,
  ⟨.tokenSimilarity, token, 1 / 5, true⟩,
  ⟨.identitySimilarity, identity, 3 / 20, comparable u left right ≠ []⟩,
  ⟨.specFingerprint, spec, 3 / 20, left.specifications ≠ [] ∧ right.specifications ≠ []⟩,
  ⟨.textHashes, text, 1 / 10, left.textHashes ≠ ∅ ∧ right.textHashes ≠ ∅⟩,
  ⟨.mediaSha256, mediaSha, 1 / 10, left.mediaSha256 ≠ ∅ ∧ right.mediaSha256 ≠ ∅⟩,
  ⟨.mediaPhash, phash, 1 / 20, left.mediaPhashes ≠ ∅ ∧ right.mediaPhashes ≠ ∅⟩]

/-- What `score_pair` returns for its weighted signals. -/
def resultOf (weightedSignals : List Weighted) (penalties : List (Penalty × ℚ))
    (specConflicts : Nat) : Except Fault ScoreResult := do
  let active := weightedSignals.filter Weighted.active
  let weighted ← quotient .zeroDivision (active.map fun item => item.value * item.weight).sum
    (active.map Weighted.weight).sum
  let final := bounded (weighted - (penalties.map Prod.snd).sum)
  return ⟨roundFour final, {
    signals := weightedSignals.map fun item => (item.name, roundFour item.value)
    penalties := penalties
    specConflictCount := specConflicts
    activeWeights := active.map fun item => (item.name, item.weight) }⟩

/-- `score_pair`. -/
def scorePair (left right : ComponentSignals) (trigram : ℚ) : Except Fault ScoreResult := do
  let trigramScore := bounded trigram
  let tokenScore ← jaccard (tokens u left) (tokens u right)
  let identityScore ← identitySimilarity u left right
  let (specScore, specConflicts) ← specSimilarity u sha256 left.specifications right.specifications
  let textScore ← jaccard left.textHashes right.textHashes
  let mediaShaScore ← jaccard left.mediaSha256 right.mediaSha256
  let phashScore := phashSimilarity u left.mediaPhashes right.mediaPhashes
  resultOf (weightedSignals u left right trigramScore tokenScore identityScore specScore textScore
    mediaShaScore phashScore) (penaltiesOf u left right specConflicts) specConflicts

end

/-! ## Symmetry -/

variable {u : Unicode} {sha256 : String → String}

theorem jaccard_comm (left right : Finset String) : jaccard left right = jaccard right left := by
  unfold jaccard
  simp only [Finset.inter_comm left, Finset.union_comm left, or_comm]

theorem conflicts_comm (left right : Option String) :
    conflicts u left right = conflicts u right left := by
  unfold conflicts
  rw [decide_eq_decide]
  constructor
  · rintro ⟨hleft, hright, hne⟩
    exact ⟨hright, hleft, hne.symm⟩
  · rintro ⟨hright, hleft, hne⟩
    exact ⟨hleft, hright, hne.symm⟩

theorem penaltiesOf_comm (left right : ComponentSignals) (n : Nat) :
    penaltiesOf u left right n = penaltiesOf u right left n := by
  unfold penaltiesOf
  rw [conflicts_comm left.manufacturer, conflicts_comm left.model]

theorem comparable_swap (left right : ComponentSignals) :
    comparable u right left = (comparable u left right).map Prod.swap := by
  have hrows : [(right.manufacturer, left.manufacturer), (right.model, left.model)] =
      [(left.manufacturer, right.manufacturer), (left.model, right.model)].map Prod.swap := rfl
  unfold comparable
  rw [hrows, List.filter_map]
  congr 1
  refine List.filter_congr fun pair _ => ?_
  simp [Bool.and_comm]

theorem identitySimilarity_comm (left right : ComponentSignals) :
    identitySimilarity u left right = identitySimilarity u right left := by
  have hsame : (comparable u right left).map (fun pair =>
      decide (normalizeText u pair.1 = normalizeText u pair.2)) =
      (comparable u left right).map fun pair =>
        decide (normalizeText u pair.1 = normalizeText u pair.2) := by
    rw [comparable_swap, List.map_map]
    refine List.map_congr_left fun pair _ => ?_
    simp [eq_comm]
  unfold identitySimilarity
  rw [hsame]

theorem specSimilarity_comm (left right : List (String × String)) :
    specSimilarity u sha256 left right = specSimilarity u sha256 right left := by
  unfold specSimilarity
  simp only [Finset.inter_comm (specKeys u left), jaccard_comm (specificationFingerprint u sha256 left),
    ne_comm]

theorem xor_comm (a b : Int) : Int.xor a b = Int.xor b a := by
  cases a <;> cases b <;> simp only [Int.xor, Nat.xor_comm]

theorem phashPair_comm (first second : String) :
    phashPair u first second = phashPair u second first := by
  unfold phashPair
  cases readHex u first <;> cases readHex u second <;> simp [xor_comm, or_comm]

theorem phashSimilarity_comm (left right : Finset String) :
    phashSimilarity u left right = phashSimilarity u right left := by
  have hsame : ((left ×ˢ right).biUnion fun pair => (phashPair u pair.1 pair.2).toFinset) =
      (right ×ˢ left).biUnion fun pair => (phashPair u pair.1 pair.2).toFinset := by
    ext q
    simp only [Finset.mem_biUnion, Finset.mem_product, Prod.exists]
    constructor
    · rintro ⟨first, second, ⟨hfirst, hsecond⟩, hq⟩
      exact ⟨second, first, ⟨hsecond, hfirst⟩, phashPair_comm first second ▸ hq⟩
    · rintro ⟨second, first, ⟨hsecond, hfirst⟩, hq⟩
      exact ⟨first, second, ⟨hfirst, hsecond⟩, phashPair_comm second first ▸ hq⟩
  unfold phashSimilarity
  rw [hsame]

/-! ## Bounds -/

/-- Between 0 and 1. -/
def Unit (q : ℚ) : Prop := 0 ≤ q ∧ q ≤ 1

theorem unit_bounded (value : ℚ) : Unit (bounded value) :=
  ⟨le_max_left 0 _, max_le zero_le_one (min_le_left 1 value)⟩

theorem unit_share {n d : Nat} (h : n ≤ d) (hd : d ≠ 0) : Unit ((n : ℚ) / d) := by
  have hpos : (0 : ℚ) < d := by exact_mod_cast Nat.pos_of_ne_zero hd
  refine ⟨by positivity, ?_⟩
  rw [div_le_one hpos]
  exact_mod_cast h

theorem jaccard_ok (left right : Finset String) : ∃ q, jaccard left right = .ok q ∧ Unit q := by
  unfold jaccard
  split
  · exact ⟨0, rfl, le_refl 0, zero_le_one⟩
  · rename_i hne
    have hunion : (left ∪ right).card ≠ 0 := by
      rw [Finset.card_ne_zero]
      obtain ⟨a, ha⟩ := Finset.nonempty_iff_ne_empty.mpr (fun h => hne (Or.inl h))
      exact ⟨a, Finset.mem_union_left right ha⟩
    refine ⟨_, quotient_ok (by exact_mod_cast hunion), unit_share (Finset.card_le_card ?_) hunion⟩
    exact Finset.inter_subset_left.trans Finset.subset_union_left

theorem identitySimilarity_ok (left right : ComponentSignals) :
    ∃ q, identitySimilarity u left right = .ok q ∧ Unit q := by
  unfold identitySimilarity
  simp only
  split
  · exact ⟨0, rfl, le_refl 0, zero_le_one⟩
  · rename_i hne
    have hlength : ((comparable u left right).map fun pair =>
        decide (normalizeText u pair.1 = normalizeText u pair.2)).length ≠ 0 := by
      simpa using hne
    exact ⟨_, quotient_ok (by exact_mod_cast hlength), unit_share List.count_le_length hlength⟩

theorem specSimilarity_ok (left right : List (String × String)) :
    ∃ q n, specSimilarity u sha256 left right = .ok (q, n) ∧ Unit q := by
  obtain ⟨q, hq, hunit⟩ := jaccard_ok (specificationFingerprint u sha256 left)
    (specificationFingerprint u sha256 right)
  unfold specSimilarity
  simp only [hq, Records.ok_bind]
  exact ⟨q, _, rfl, hunit⟩

theorem hexValue_lt {c : Char} {d : Nat} (h : hexValue c = some d) : d < 16 := by
  have hle : ∀ b : Char, c ≤ b → c.toNat ≤ b.toNat := fun b hb => hb
  unfold hexValue at h
  split_ifs at h with hdec hlow hup
  · have hc : c.toNat ≤ 57 := hle '9' hdec.2
    obtain rfl := Option.some.inj h
    change c.toNat - 48 < 16
    omega
  · have hc : c.toNat ≤ 102 := hle 'f' hlow.2
    obtain rfl := Option.some.inj h
    change c.toNat - 97 + 10 < 16
    omega
  · have hc : c.toNat ≤ 70 := hle 'F' hup.2
    obtain rfl := Option.some.inj h
    change c.toNat - 65 + 10 < 16
    omega

theorem read_lt {value : Char → Option Nat} {base : Nat} (hvalue : ∀ c d, value c = some d → d < base)
    {cs : List Char} {n : Nat} (h : read value base cs = some n) : n < base ^ cs.length := by
  induction cs using List.reverseRecOn generalizing n with
  | nil =>
    obtain rfl := Option.some.inj h
    exact Nat.one_pos
  | append_singleton cs c ih =>
    unfold Notation.read at h ih
    rw [List.foldl_append, List.foldl_cons, List.foldl_nil] at h
    obtain ⟨m, hm, h⟩ := Option.bind_eq_some_iff.mp h
    obtain ⟨d, hd, rfl⟩ := Option.map_eq_some_iff.mp h
    have hlast := hvalue c d hd
    have hrest := ih hm
    rw [List.length_append, List.length_singleton, pow_succ]
    nlinarith

theorem length_stripChars (drop : Char → Bool) (cs : List Char) :
    (stripChars drop cs).length ≤ cs.length := by
  unfold stripChars
  rw [List.length_reverse]
  refine (List.dropWhile_suffix _).length_le.trans ?_
  rw [List.length_reverse]
  exact (List.dropWhile_suffix _).length_le

theorem length_withoutBase (cs : List Char) : (withoutBase cs).length ≤ cs.length := by
  unfold withoutBase
  split
  all_goals first | exact le_refl _ | (simp only [List.length_cons]; omega)

theorem readHexGroups_lt {cs : List Char} {n : Nat} (h : readHexGroups cs = some n) :
    n < 16 ^ cs.length := by
  unfold readHexGroups at h
  simp only at h
  split at h
  · cases h
  · have hlength : (cs.splitOn '_').flatten.length ≤ cs.length := by
      rw [List.splitOn_eq_splitOnP, flatten_splitOnP]
      exact List.length_filter_le _ cs
    exact (read_lt (fun c d => hexValue_lt) h).trans_le (Nat.pow_le_pow_right (by decide) hlength)

/-- What sixteen characters are read as. -/
theorem readHex_bounds {text : String} (hlength : text.length = 16) {n : Int}
    (h : readHex u text = some n) : -2 ^ 60 < n ∧ n < 2 ^ 64 := by
  have hstrip := length_stripChars isAsciiSpace (text.toList.map (toAscii u))
  rw [List.length_map, String.length_toList, hlength] at hstrip
  have hlt : ∀ {cs : List Char} {k m : Nat}, readHexGroups (withoutBase cs) = some m →
      cs.length ≤ k → m < 16 ^ k := fun hm hk =>
    (readHexGroups_lt hm).trans_le
      (Nat.pow_le_pow_right (by decide) ((length_withoutBase _).trans hk))
  unfold readHex at h
  simp only at h
  split_ifs at h with hminus hplus
  · obtain ⟨m, hm, rfl⟩ := Option.map_eq_some_iff.mp h
    have hm := hlt hm (k := 15) (by rw [List.length_drop]; omega)
    rw [Int.negOfNat_eq, Int.ofNat_eq_natCast]
    omega
  · obtain ⟨m, hm, rfl⟩ := Option.map_eq_some_iff.mp h
    have hm := hlt hm (k := 16) (by rw [List.length_drop]; omega)
    rw [Int.ofNat_eq_natCast]
    omega
  · obtain ⟨m, hm, rfl⟩ := Option.map_eq_some_iff.mp h
    have hm := hlt hm hstrip
    rw [Int.ofNat_eq_natCast]
    omega

theorem count_bits {n : Nat} (h : n ≤ 2 ^ 64) : (Nat.bits n).count true ≤ 64 := by
  rcases h.lt_or_eq with h | rfl
  · refine List.count_le_length.trans ?_
    rw [Nat.size_eq_bits_len, Nat.size_le]
    exact h
  · decide +kernel

/-- Two such numbers differ in at most 64 bits. -/
theorem bitCount_xor {a b : Int} (ha : -2 ^ 60 < a ∧ a < 2 ^ 64) (hb : -2 ^ 60 < b ∧ b < 2 ^ 64) :
    bitCount (Int.xor a b) ≤ 64 := by
  have hxor : ∀ {m n : Nat}, m < 2 ^ 64 → n < 2 ^ 64 → m ^^^ n < 2 ^ 64 := Nat.xor_lt_two_pow
  have hnat : ∀ {n : Nat}, (Int.ofNat n : Int) < 2 ^ 64 → n < 2 ^ 64 := fun hn => by
    rw [Int.ofNat_eq_natCast] at hn
    omega
  refine count_bits ?_
  cases a with
  | ofNat m =>
    cases b with
    | ofNat n => exact (hxor (hnat ha.2) (hnat hb.2)).le
    | negSucc n => exact hxor (hnat ha.2) (by omega)
  | negSucc m =>
    cases b with
    | ofNat n => exact hxor (by omega) (hnat hb.2)
    | negSucc n => exact (hxor (by omega) (by omega)).le

theorem phashPair_unit {first second : String} {q : ℚ} (h : phashPair u first second = some q) :
    Unit q := by
  unfold phashPair at h
  split at h
  · cases h
  · rename_i hlength
    obtain ⟨hfirst, hsecond⟩ := not_or.mp hlength
    obtain ⟨a, ha, h⟩ := Option.bind_eq_some_iff.mp h
    obtain ⟨b, hb, h⟩ := Option.bind_eq_some_iff.mp h
    have hbits : (bitCount (Int.xor a b) : ℚ) ≤ 64 := by
      exact_mod_cast bitCount_xor (readHex_bounds (not_not.mp hfirst) ha)
        (readHex_bounds (not_not.mp hsecond) hb)
    have hpos : (0 : ℚ) ≤ bitCount (Int.xor a b) := by positivity
    obtain rfl := Option.some.inj h
    constructor <;> linarith

theorem phashSimilarity_unit (left right : Finset String) : Unit (phashSimilarity u left right) := by
  unfold phashSimilarity
  cases hmax : ((left ×ˢ right).biUnion fun pair => (phashPair u pair.1 pair.2).toFinset).max with
  | bot => exact ⟨le_refl 0, zero_le_one⟩
  | coe q =>
    obtain ⟨pair, -, hq⟩ := Finset.mem_biUnion.mp (Finset.mem_of_max hmax)
    exact phashPair_unit (Option.mem_toFinset.mp hq)

/-! ## The score -/

theorem weightedSignals_comm (left right : ComponentSignals)
    (trigram token identity spec text mediaSha phash : ℚ) :
    weightedSignals u left right trigram token identity spec text mediaSha phash =
      weightedSignals u right left trigram token identity spec text mediaSha phash := by
  have hcomparable : comparable u left right ≠ [] ↔ comparable u right left ≠ [] := by
    rw [comparable_swap left right, Ne, Ne, List.map_eq_nil_iff]
  unfold weightedSignals
  simp only [decide_eq_decide.mpr hcomparable, and_comm]

theorem sum_weights_nonneg {items : List Weighted} (h : ∀ item ∈ items, 0 ≤ item.weight) :
    0 ≤ ((items.filter Weighted.active).map Weighted.weight).sum := by
  refine List.sum_nonneg fun weight hweight => ?_
  obtain ⟨item, hitem, rfl⟩ := List.mem_map.mp hweight
  exact h item (List.mem_filter.mp hitem).1

/-- The title always counts. -/
theorem sum_weights_pos (left right : ComponentSignals)
    (trigram token identity spec text mediaSha phash : ℚ) :
    0 < (((weightedSignals u left right trigram token identity spec text mediaSha phash).filter
      Weighted.active).map Weighted.weight).sum := by
  unfold weightedSignals
  rw [List.filter_cons_of_pos rfl, List.map_cons, List.sum_cons]
  refine add_pos_of_pos_of_nonneg (by norm_num) (sum_weights_nonneg ?_)
  simp only [List.forall_mem_cons, List.not_mem_nil, false_implies, implies_true, and_true]
  norm_num

/-- The result of a pair whose signals are bounded. -/
theorem resultOf_ok {items : List Weighted} {penalties : List (Penalty × ℚ)} {n : Nat}
    (hweights : 0 < ((items.filter Weighted.active).map Weighted.weight).sum)
    (hvalues : ∀ item ∈ items, Unit item.value) :
    ∃ result, resultOf items penalties n = .ok result ∧ Unit result.score ∧
      ∀ item ∈ result.evidence.signals, Unit item.2 := by
  unfold resultOf
  simp only [quotient_ok hweights.ne', Records.ok_bind]
  refine ⟨_, rfl, roundFour_mem (unit_bounded _), fun item hitem => ?_⟩
  obtain ⟨signal, hsignal, rfl⟩ := List.mem_map.mp hitem
  exact roundFour_mem (hvalues signal hsignal)

/-- **A pair has one score, in either order, and it is bounded.** -/
theorem scorePair_sound (u : Unicode) (sha256 : String → String) (left right : ComponentSignals)
    (trigram : ℚ) :
    ∃ result, scorePair u sha256 left right trigram = .ok result ∧
      scorePair u sha256 right left trigram = .ok result ∧
      (0 ≤ result.score ∧ result.score ≤ 1) ∧
      ∀ item ∈ result.evidence.signals, 0 ≤ item.2 ∧ item.2 ≤ 1 := by
  obtain ⟨token, htoken, htokenUnit⟩ := jaccard_ok (tokens u left) (tokens u right)
  obtain ⟨identity, hidentity, hidentityUnit⟩ := @identitySimilarity_ok u left right
  obtain ⟨spec, conflicts, hspec, hspecUnit⟩ :=
    @specSimilarity_ok u sha256 left.specifications right.specifications
  obtain ⟨text, htext, htextUnit⟩ := jaccard_ok left.textHashes right.textHashes
  obtain ⟨media, hmedia, hmediaUnit⟩ := jaccard_ok left.mediaSha256 right.mediaSha256
  have hphashUnit := @phashSimilarity_unit u left.mediaPhashes right.mediaPhashes
  have hpair : scorePair u sha256 left right trigram =
      resultOf (weightedSignals u left right (bounded trigram) token identity spec text media
        (phashSimilarity u left.mediaPhashes right.mediaPhashes))
        (penaltiesOf u left right conflicts) conflicts := by
    unfold scorePair
    simp only [htoken, hidentity, hspec, htext, hmedia, Records.ok_bind]
  have hswap : scorePair u sha256 right left trigram = scorePair u sha256 left right trigram := by
    rw [hpair]
    unfold scorePair
    simp only [jaccard_comm _ (tokens u left), jaccard_comm _ left.textHashes,
      jaccard_comm _ left.mediaSha256, identitySimilarity_comm right, specSimilarity_comm
      right.specifications, phashSimilarity_comm right.mediaPhashes, htoken, hidentity, hspec, htext,
      hmedia, Records.ok_bind, weightedSignals_comm right, penaltiesOf_comm right]
  have hvalues : ∀ item ∈ weightedSignals u left right (bounded trigram) token identity spec text
      media (phashSimilarity u left.mediaPhashes right.mediaPhashes), Unit item.value := by
    unfold weightedSignals
    simp only [List.forall_mem_cons, List.not_mem_nil, false_implies, implies_true, and_true]
    exact ⟨unit_bounded trigram, htokenUnit, hidentityUnit, hspecUnit, htextUnit, hmediaUnit,
      hphashUnit⟩
  obtain ⟨result, hresult, hscore, hsignals⟩ :=
    @resultOf_ok _ (penaltiesOf u left right conflicts) conflicts (sum_weights_pos ..) hvalues
  exact ⟨result, hpair.trans hresult, (hswap.trans hpair).trans hresult, hscore, hsignals⟩

end ComponentKb.Catalog.Scoring
