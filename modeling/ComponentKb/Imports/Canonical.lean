import ComponentKb.Basic
import ComponentKb.Imports.Urls
import ComponentKb.Lib.Splitting
import ComponentKb.Lib.Utf8
import Mathlib

/-!
# Canonical URLs

What `approve_source_url` makes of a URL: its path is decoded, split into segments, and quoted
again.

* `unquote_quote`: what is quoted decodes to what it was.
-/

namespace ComponentKb.Imports

open Catalog Lib

/-! ## Quoting -/

section Quoting

variable {safe text : List Char}

/-- What one byte is quoted as. -/
def quoteByte (safe : List Char) (b : UInt8) : List Char :=
  let c := Char.ofNat b.toNat
  if b < 128 ∧ (c.isAlphanum ∨ c ∈ ['_', '.', '-', '~'] ∨ c ∈ safe) then [c]
  else ['%', upperHex (b.toNat / 16), upperHex (b.toNat % 16)]

theorem quote_eq (safe text : List Char) :
    quote safe text = (utf8Bytes text).flatMap (quoteByte safe) := by
  rw [quote, toList_toUTF8]
  rfl

theorem quote_append (safe a b : List Char) :
    quote safe (a ++ b) = quote safe a ++ quote safe b := by
  rw [quote_eq, quote_eq, quote_eq, utf8Bytes_append, List.flatMap_append]

/-- The digits of `quote`. -/
theorem upperHex_spec : ∀ n : Fin 16, hexDigit (upperHex n) = some n.val ∧
    (upperHex n).isAlphanum ∧ upperHex n ≠ '%' ∧ (upperHex n = '2' ↔ n.val = 2) ∧
      (upperHex n = '5' ↔ n.val = 5) ∧ upperHex n ≠ 'f' ∧ upperHex n ≠ 'c' ∧
        (upperHex n = 'F' ↔ n.val = 15) ∧ (upperHex n = 'C' ↔ n.val = 12) := by
  decide

theorem upperHex_high (b : UInt8) : b.toNat / 16 < 16 := by
  have := b.toNat_lt
  omega

theorem upperHex_low (b : UInt8) : b.toNat % 16 < 16 := by omega

/-- A character that is quoted as itself: it is visible, and it has no meaning in a path. -/
def isPlain (c : Char) : Bool :=
  0x20 < c.toNat && c.toNat < 0x7f && c ∉ ['%', '\\', '?', '#']

theorem isPlain_unreserved {c : Char} (h : c.isAlphanum ∨ c ∈ ['_', '.', '-', '~']) :
    isPlain c := by
  have hrange : c.isAlphanum → 0x20 < c.toNat ∧ c.toNat < 0x7f := by
    intro halnum
    simp only [Char.isAlphanum, Char.isAlpha, Char.isUpper, Char.isLower, Char.isDigit,
      Bool.or_eq_true, Bool.and_eq_true, decide_eq_true_eq, UInt32.le_iff_toNat_le, ge_iff_le]
      at halnum
    change ((65 ≤ c.toNat ∧ c.toNat ≤ 90) ∨ (97 ≤ c.toNat ∧ c.toNat ≤ 122)) ∨
      (48 ≤ c.toNat ∧ c.toNat ≤ 57) at halnum
    omega
  rcases h with h | h
  · obtain ⟨hlow, hhigh⟩ := hrange h
    have hno : c ∉ ['%', '\\', '?', '#'] := by
      intro hmem
      simp only [List.mem_cons, List.not_mem_nil, or_false] at hmem
      obtain rfl | rfl | rfl | rfl := hmem <;> exact absurd h (by decide)
    simp [isPlain, hlow, hhigh, hno]
  · simp only [List.mem_cons, List.not_mem_nil, or_false] at h
    obtain rfl | rfl | rfl | rfl := h <;> decide

/-- A byte is quoted as its character, or as a percent sign and two digits. -/
theorem quoteByte_cases (hsafe : ∀ c ∈ safe, isPlain c) (b : UInt8) :
    (∃ c, quoteByte safe b = [c] ∧ c.toNat = b.toNat ∧ isPlain c) ∨
    quoteByte safe b = ['%', upperHex (b.toNat / 16), upperHex (b.toNat % 16)] ∧
      ∀ c ∈ safe, c.toNat ≠ b.toNat := by
  by_cases hplain : b < 128 ∧ ((Char.ofNat b.toNat).isAlphanum ∨
      Char.ofNat b.toNat ∈ ['_', '.', '-', '~'] ∨ Char.ofNat b.toNat ∈ safe)
  · have hb : b.toNat < 128 := hplain.1
    have hall : ∀ n : Fin 128, (Char.ofNat n).toNat = n := by decide
    have hnat : (Char.ofNat b.toNat).toNat = b.toNat := hall ⟨b.toNat, hb⟩
    refine Or.inl ⟨Char.ofNat b.toNat, if_pos hplain, hnat, ?_⟩
    obtain ⟨-, h | h | h⟩ := hplain
    · exact isPlain_unreserved (Or.inl h)
    · exact isPlain_unreserved (Or.inr h)
    · exact hsafe _ h
  · refine Or.inr ⟨if_neg hplain, fun c hc heq => hplain ⟨?_, Or.inr (Or.inr ?_)⟩⟩
    · have hvisible := hsafe c hc
      simp only [isPlain, Bool.and_eq_true, decide_eq_true_eq] at hvisible
      change b.toNat < 128
      omega
    · rw [← heq, Char.ofNat_toNat]
      exact hc

theorem unquoteBytes_cons {c : Char} (rest : List Char) (hc : c ≠ '%') :
    unquoteBytes (c :: rest) = c.toUInt8 :: unquoteBytes rest := by
  rw [unquoteBytes]
  intro _ _ _ h
  exact absurd h hc

/-- Reading one quoted byte. -/
theorem unquoteBytes_quoteByte (hsafe : ∀ c ∈ safe, isPlain c) (b : UInt8) (rest : List Char) :
    unquoteBytes (quoteByte safe b ++ rest) = b :: unquoteBytes rest := by
  rcases quoteByte_cases hsafe b with ⟨c, hquote, hnat, hplain⟩ | ⟨hquote, -⟩
  · have hpercent : c ≠ '%' := by
      rintro rfl
      exact absurd hplain (by decide)
    have hbyte : c.toUInt8 = b := UInt8.toNat_inj.mp (by
      rw [← hnat]
      have hlt := b.toNat_lt
      rw [← hnat] at hlt
      exact Nat.mod_eq_of_lt hlt)
    rw [hquote, List.singleton_append, unquoteBytes_cons rest hpercent, hbyte]
  · have hhigh := (upperHex_spec ⟨_, upperHex_high b⟩).1
    have hlow := (upperHex_spec ⟨_, upperHex_low b⟩).1
    have hbyte : UInt8.ofNat (16 * (b.toNat / 16) + b.toNat % 16) = b := by
      rw [Nat.div_add_mod, UInt8.ofNat_toNat]
    rw [hquote, List.cons_append, List.cons_append, List.singleton_append, unquoteBytes]
    simp only [hhigh, hlow, hbyte]

theorem unquoteBytes_quote (hsafe : ∀ c ∈ safe, isPlain c) (text : List Char) :
    unquoteBytes (quote safe text) = utf8Bytes text := by
  rw [quote_eq]
  induction utf8Bytes text with
  | nil => rfl
  | cons b rest ih => rw [List.flatMap_cons, unquoteBytes_quoteByte hsafe, ih]

/-- A quoted text is made of plain characters and percent signs. -/
theorem mem_quote (hsafe : ∀ c ∈ safe, isPlain c) {c : Char} (hc : c ∈ quote safe text) :
    isPlain c ∨ c = '%' := by
  rw [quote_eq] at hc
  obtain ⟨b, -, hc⟩ := List.mem_flatMap.mp hc
  rcases quoteByte_cases hsafe b with ⟨d, hquote, -, hplain⟩ | ⟨hquote, -⟩
  · rw [hquote, List.mem_singleton] at hc
    exact Or.inl (hc ▸ hplain)
  · rw [hquote] at hc
    simp only [List.mem_cons, List.not_mem_nil, or_false] at hc
    obtain rfl | rfl | rfl := hc
    · exact Or.inr rfl
    · exact Or.inl (isPlain_unreserved (Or.inl (upperHex_spec ⟨_, upperHex_high b⟩).2.1))
    · exact Or.inl (isPlain_unreserved (Or.inl (upperHex_spec ⟨_, upperHex_low b⟩).2.1))

theorem quote_ascii (hsafe : ∀ c ∈ safe, isPlain c) {c : Char} (hc : c ∈ quote safe text) :
    c.toNat < 128 := by
  rcases mem_quote hsafe hc with h | rfl
  · simp only [isPlain, Bool.and_eq_true, decide_eq_true_eq] at h
    omega
  · decide

/-- An ASCII text is decoded as one run. -/
theorem unquote_ascii {text : List Char} (hne : text ≠ []) (hascii : ∀ c ∈ text, c.toNat < 128) :
    unquote text = (String.fromUTF8? ⟨(unquoteBytes text).toArray⟩).map String.toList := by
  have hchain : text.IsChain fun a b => decide (a.toNat < 128 ↔ b.toNat < 128) = true := by
    refine List.Pairwise.isChain (List.Pairwise.imp_of_mem (R := fun _ _ => True) ?_
      (List.pairwise_of_forall fun _ _ => trivial))
    intro a b ha hb _
    simp [hascii a ha, hascii b hb]
  obtain ⟨c, rest, rfl⟩ := List.exists_cons_of_ne_nil hne
  have hc := hascii c List.mem_cons_self
  rw [unquote, List.splitBy_of_isChain hne hchain]
  cases hdecode : String.fromUTF8? ⟨(unquoteBytes (c :: rest)).toArray⟩ with
  | none => simp [hc, hdecode]
  | some s => simp [hc, hdecode]

/-- **What is quoted decodes to what it was.** -/
theorem unquote_quote (hsafe : ∀ c ∈ safe, isPlain c) (hne : text ≠ []) :
    unquote (quote safe text) = some text := by
  have hquoted : quote safe text ≠ [] := by
    intro hnil
    have hbytes := unquoteBytes_quote hsafe text
    rw [hnil] at hbytes
    obtain ⟨c, rest, rfl⟩ := List.exists_cons_of_ne_nil hne
    rw [utf8Bytes_cons] at hbytes
    exact String.utf8EncodeChar_ne_nil (List.append_eq_nil_iff.mp hbytes.symm).1
  have hdecode : String.fromUTF8? ⟨(utf8Bytes text).toArray⟩ = some (String.ofList text) :=
    fromUTF8?_eq_some_iff.mpr (by rw [String.toList_ofList])
  rw [unquote_ascii hquoted fun c hc => quote_ascii hsafe hc, unquoteBytes_quote hsafe, hdecode,
    Option.map_some, String.toList_ofList]

end Quoting

/-! ## Separators -/

section Separators

variable {safe text : List Char}

theorem encodedSeparator_cons {c : Char} (rest : List Char) (hc : c ≠ '%') :
    encodedSeparator (c :: rest) = encodedSeparator rest := by
  rw [encodedSeparator]
  intro _ _ _ h
  exact absurd h hc

/-- A separator that is found after some characters is found with them. -/
theorem encodedSeparator_tail (c : Char) {rest : List Char} (h : encodedSeparator rest) :
    encodedSeparator (c :: rest) := by
  by_cases hc : c = '%'
  · subst hc
    match rest with
    | [] => exact h
    | [a] => rw [encodedSeparator]; exact h; simp
    | a :: b :: rest => simp [encodedSeparator, h]
  · rw [encodedSeparator_cons rest hc]
    exact h

theorem encodedSeparator_append_right (a : List Char) {b : List Char} (h : encodedSeparator b) :
    encodedSeparator (a ++ b) := by
  induction a with
  | nil => exact h
  | cons c a ih => exact encodedSeparator_tail c ih

theorem encodedSeparator_append_left {a : List Char} (b : List Char) (h : encodedSeparator a) :
    encodedSeparator (a ++ b) := by
  fun_induction encodedSeparator a with
  | case1 x y rest ih =>
    simp only [Bool.or_eq_true] at h
    simp only [List.cons_append, encodedSeparator, Bool.or_eq_true]
    rcases h with h | h
    · exact Or.inl h
    · exact Or.inr (ih h)
  | case2 c rest hno ih => exact encodedSeparator_tail c (ih h)
  | case3 => cases h

theorem encodedSeparator_within {a b : List Char} (hwithin : a <:+: b) (h : encodedSeparator a) :
    encodedSeparator b := by
  obtain ⟨before, after, rfl⟩ := hwithin
  exact encodedSeparator_append_left after (encodedSeparator_append_right before h)

/-- A quoted text has no encoded separator: its slashes are left as they are, and it has no
backslashes. -/
theorem encodedSeparator_quote (hsafe : ∀ c ∈ safe, isPlain c) (hslash : '/' ∈ safe)
    (hback : '\\' ∉ text) : encodedSeparator (quote safe text) = false := by
  have hbytes : ∀ b ∈ utf8Bytes text, b.toNat ≠ 0x5c := by
    intro b hb heq
    obtain ⟨c, hc, hnat⟩ := mem_utf8Bytes hb (by omega)
    have hchar : c = '\\' := Char.toNat_inj.mp (hnat.trans heq)
    exact hback (hchar ▸ hc)
  rw [quote_eq]
  generalize utf8Bytes text = bytes at hbytes
  induction bytes with
  | nil => rfl
  | cons b rest ih =>
    obtain ⟨hb, hrest⟩ := List.forall_mem_cons.mp hbytes
    rw [List.flatMap_cons]
    rcases quoteByte_cases hsafe b with ⟨c, hquote, -, hplain⟩ | ⟨hquote, hother⟩
    · have hpercent : c ≠ '%' := by
        rintro rfl
        exact absurd hplain (by decide)
      rw [hquote, List.singleton_append, encodedSeparator_cons _ hpercent, ih hrest]
    · obtain ⟨-, -, hhigh, htwo, hfive, -⟩ := upperHex_spec ⟨_, upperHex_high b⟩
      obtain ⟨-, -, hlow, -, -, hf, hc, hF, hC⟩ := upperHex_spec ⟨_, upperHex_low b⟩
      have hnotSlash : b.toNat ≠ 0x2f := fun heq => hother '/' hslash heq.symm
      have htail : encodedSeparator
          (upperHex (b.toNat / 16) :: upperHex (b.toNat % 16) :: rest.flatMap (quoteByte safe)) =
            false := by
        rw [encodedSeparator_cons _ hhigh, encodedSeparator_cons _ hlow, ih hrest]
      rw [hquote, List.cons_append, List.cons_append, List.singleton_append, encodedSeparator,
        htail, Bool.or_false, Bool.or_eq_false_iff]
      constructor
      · by_cases h2 : b.toNat / 16 = 2
        · have hlast : b.toNat % 16 ≠ 15 := by omega
          simp [hf, hF, hlast]
        · simp [htwo, h2]
      · by_cases h5 : b.toNat / 16 = 5
        · have hlast : b.toNat % 16 ≠ 12 := by omega
          simp [hc, hC, hlast]
        · simp [hfive, h5]

theorem hexDigit_eq {c : Char} {n : Nat} (h : hexDigit c = some n) :
    (n < 10 ∧ c.toNat = 48 + n) ∨ (10 ≤ n ∧ n < 16 ∧ (c.toNat = 87 + n ∨ c.toNat = 55 + n)) := by
  unfold hexDigit at h
  have hle : ∀ a b : Char, a ≤ b ↔ a.toNat ≤ b.toNat := fun a b => Iff.rfl
  split at h
  · rename_i hdigit
    have hbounds : 48 ≤ c.toNat ∧ c.toNat ≤ 57 := by
      simp only [Char.isDigit, Bool.and_eq_true, decide_eq_true_eq] at hdigit
      exact hdigit
    have hn := Option.some.inj h
    have h0 : '0'.toNat = 48 := rfl
    omega
  · split at h
    · rename_i hrange
      have hn := Option.some.inj h
      rw [hle, hle] at hrange
      have ha : 'a'.toNat = 97 := rfl
      have hf : 'f'.toNat = 102 := rfl
      omega
    · split at h
      · rename_i hrange
        have hn := Option.some.inj h
        rw [hle, hle] at hrange
        have ha : 'A'.toNat = 65 := rfl
        have hf : 'F'.toNat = 70 := rfl
        omega
      · cases h

/-- A backslash comes from a backslash, or from an encoded one. -/
theorem backslash_of_unquoteBytes {text : List Char} (hascii : ∀ c ∈ text, c.toNat < 128)
    (h : 0x5c ∈ unquoteBytes text) : '\\' ∈ text ∨ encodedSeparator text := by
  fun_induction unquoteBytes text with
  | case1 a b rest x y hx hy ih =>
    rcases List.mem_cons.mp h with h | h
    · have hx' := hexDigit_eq hx
      have hy' := hexDigit_eq hy
      have hbyte : 16 * x + y = 0x5c := by
        have hnat := congrArg UInt8.toNat h
        rw [UInt8.toNat_ofNat'] at hnat
        change 92 = _ at hnat
        omega
      have ha : a = '5' := Char.toNat_inj.mp (by
        have : '5'.toNat = 53 := rfl
        omega)
      have hb : b = 'c' ∨ b = 'C' := by
        have hc : 'c'.toNat = 99 := rfl
        have hC : 'C'.toNat = 67 := rfl
        rw [← Char.toNat_inj, ← Char.toNat_inj]
        omega
      refine Or.inr ?_
      rw [encodedSeparator, ha]
      rcases hb with rfl | rfl <;> simp
    · have hrest : ∀ c ∈ rest, c.toNat < 128 := fun c hc =>
        hascii c (List.mem_cons_of_mem _ (List.mem_cons_of_mem _ (List.mem_cons_of_mem _ hc)))
      rcases ih hrest h with h | h
      · exact Or.inl (List.mem_cons_of_mem _ (List.mem_cons_of_mem _ (List.mem_cons_of_mem _ h)))
      · exact Or.inr (encodedSeparator_append_right ['%', a, b] h)
  | case2 a b rest hno ih =>
    rcases List.mem_cons.mp h with h | h
    · exact absurd h (by decide)
    · rcases ih (fun c hc => hascii c (List.mem_cons_of_mem _ hc)) h with h | h
      · exact Or.inl (List.mem_cons_of_mem _ h)
      · exact Or.inr (encodedSeparator_tail _ h)
  | case3 c rest hno ih =>
    rcases List.mem_cons.mp h with h | h
    · refine Or.inl (List.mem_cons.mpr (Or.inl (Char.toNat_inj.mp ?_)))
      have hlt := hascii c List.mem_cons_self
      have hnat := congrArg UInt8.toNat h
      have hbyte : c.toUInt8.toNat = c.toNat := Nat.mod_eq_of_lt (by
        change c.toNat < 256
        omega)
      rw [hbyte] at hnat
      exact hnat
    · rcases ih (fun d hd => hascii d (List.mem_cons_of_mem _ hd)) h with h | h
      · exact Or.inl (List.mem_cons_of_mem _ h)
      · exact Or.inr (encodedSeparator_tail _ h)
  | case4 => cases h

/-- In a run that starts with an ASCII character there are no others. -/
theorem ascii_run {run : List Char}
    (hchain : run.IsChain fun a b => decide (a.toNat < 128 ↔ b.toNat < 128) = true)
    (hhead : ∀ c ∈ run.head?, c.toNat < 128) : ∀ c ∈ run, c.toNat < 128 := by
  induction run with
  | nil => exact fun c hc => absurd hc List.not_mem_nil
  | cons a rest ih =>
    have ha := hhead a rfl
    refine List.forall_mem_cons.mpr ⟨ha, ih hchain.tail fun b hb => ?_⟩
    cases rest with
    | nil => cases hb
    | cons b' rest =>
      cases hb
      exact (of_decide_eq_true (List.isChain_cons_cons.mp hchain).1).mp ha

/-- What is decoded of a path without separators has no backslash. -/
theorem backslash_of_unquote {text decoded : List Char} (h : unquote text = some decoded)
    (hback : '\\' ∉ text) (hseparator : ¬ encodedSeparator text) : '\\' ∉ decoded := by
  intro hmem
  obtain ⟨parts, hparts, rfl⟩ := Option.map_eq_some_iff.mp h
  obtain ⟨part, hpart, hc⟩ := List.mem_flatten.mp hmem
  obtain ⟨run, hrun, hdecoded⟩ := mem_of_mapM_some hparts hpart
  have hwithin : run <:+: text := by
    obtain ⟨before, after, hsplit⟩ := List.append_of_mem hrun
    refine ⟨before.flatten, after.flatten, ?_⟩
    rw [← List.flatten_splitBy (fun a b : Char => decide (a.toNat < 128 ↔ b.toNat < 128)) text,
      hsplit]
    simp
  split at hdecoded
  · rename_i hhead
    obtain ⟨s, hs, rfl⟩ := Option.map_eq_some_iff.mp hdecoded
    have hascii := ascii_run (List.isChain_of_mem_splitBy hrun) fun c hc => by
      rw [Option.mem_def.mp hc] at hhead
      exact of_decide_eq_true hhead
    have hbyte : (0x5c : UInt8) ∈ unquoteBytes run := by
      rw [fromUTF8?_eq_some_iff.mp hs]
      refine List.mem_flatMap.mpr ⟨_, hc, ?_⟩
      rw [utf8EncodeChar_of_lt (by decide)]
      exact List.mem_singleton.mpr rfl
    rcases backslash_of_unquoteBytes hascii hbyte with h | h
    · exact hback (hwithin.subset h)
    · exact hseparator (encodedSeparator_within hwithin h)
  · rw [Option.some.inj hdecoded] at hwithin
    exact hback (hwithin.subset hc)

end Separators

/-! ## Paths -/

/-- A segment that is left of a path. -/
structure Segment (s : List Char) : Prop where
  nonempty : s ≠ []
  dot : s ≠ ['.']
  dots : s ≠ ['.', '.']
  slash : '/' ∉ s
  backslash : '\\' ∉ s

/-- The path of some segments, with or without a slash at its end. -/
def rooted (segments : List (List Char)) (slash : Bool) : List Char :=
  '/' :: ['/'].intercalate segments ++ if slash then ['/'] else []

/-- What `_canonical_path` does not quote of a segment. -/
def pathSafe : List Char :=
  ['!', '$', '&', '\'', '(', ')', '*', '+', ',', ';', '=', ':', '@', '-', '.', '_', '~']

theorem isPlain_pathSafe : ∀ c ∈ '/' :: pathSafe, isPlain c := by decide

section Paths

variable {segments : List (List Char)} {slash : Bool}

theorem canonicalSegments_spec {s : List Char} (h : s ∈ canonicalSegments segments) :
    s ∈ segments ∧ s ≠ [] ∧ s ≠ ['.'] ∧ s ≠ ['.', '.'] := by
  have hfold : ∀ (segments kept : List (List Char)), s ∈ segments.foldl (fun kept segment =>
      if segment = [] ∨ segment = ['.'] then kept
      else if segment = ['.', '.'] then kept.dropLast
      else kept ++ [segment]) kept →
        s ∈ kept ∨ s ∈ segments ∧ s ≠ [] ∧ s ≠ ['.'] ∧ s ≠ ['.', '.'] := by
    intro segments
    induction segments with
    | nil => exact fun kept h => Or.inl h
    | cons segment rest ih =>
      intro kept h
      rw [List.foldl_cons] at h
      rcases ih _ h with h | ⟨h, hnormal⟩
      · split at h
        · exact Or.inl h
        · rename_i hblank
          split at h
          · exact Or.inl (List.dropLast_subset kept h)
          · rename_i hdots
            rcases List.mem_append.mp h with h | h
            · exact Or.inl h
            · rw [List.mem_singleton.mp h]
              obtain ⟨hnil, hdot⟩ := not_or.mp hblank
              exact Or.inr ⟨List.mem_cons_self, hnil, hdot, hdots⟩
      · exact Or.inr ⟨List.mem_cons_of_mem _ h, hnormal⟩
  exact (hfold segments [] h).resolve_left List.not_mem_nil

/-- Segments that are left are left again, with the empty parts around them. -/
theorem canonicalSegments_rooted (hsegments : ∀ s ∈ segments, Segment s) (tail : List (List Char))
    (htail : ∀ s ∈ tail, s = []) : canonicalSegments ([] :: segments ++ tail) = segments := by
  have hfold : ∀ (segments kept : List (List Char)), (∀ s ∈ segments, Segment s) →
      segments.foldl (fun kept segment =>
        if segment = [] ∨ segment = ['.'] then kept
        else if segment = ['.', '.'] then kept.dropLast
        else kept ++ [segment]) kept = kept ++ segments := by
    intro segments
    induction segments with
    | nil => exact fun kept _ => (List.append_nil kept).symm
    | cons segment rest ih =>
      intro kept h
      obtain ⟨hsegment, hrest⟩ := List.forall_mem_cons.mp h
      rw [List.foldl_cons, if_neg (not_or.mpr ⟨hsegment.nonempty, hsegment.dot⟩),
        if_neg hsegment.dots, ih _ hrest, List.append_assoc, List.singleton_append]
  have hblank : ∀ (tail kept : List (List Char)), (∀ s ∈ tail, s = []) →
      tail.foldl (fun kept segment =>
        if segment = [] ∨ segment = ['.'] then kept
        else if segment = ['.', '.'] then kept.dropLast
        else kept ++ [segment]) kept = kept := by
    intro tail
    induction tail with
    | nil => exact fun kept _ => rfl
    | cons segment rest ih =>
      intro kept h
      obtain ⟨hsegment, hrest⟩ := List.forall_mem_cons.mp h
      rw [List.foldl_cons, if_pos (Or.inl hsegment), ih _ hrest]
  rw [canonicalSegments, List.cons_append, List.foldl_cons, if_pos (Or.inl rfl), List.foldl_append,
    hfold segments [] hsegments, hblank _ _ htail, List.nil_append]

/-- What is left of a path without backslashes. -/
theorem segment_of_decoded {decoded s : List Char} (hback : '\\' ∉ decoded)
    (h : s ∈ canonicalSegments (decoded.splitOn '/')) : Segment s := by
  obtain ⟨hmem, hnil, hdot, hdots⟩ := canonicalSegments_spec h
  obtain ⟨hslash, hsub⟩ := of_mem_splitOn hmem
  exact ⟨hnil, hdot, hdots, hslash, fun hno => hback (hsub _ hno)⟩

/-- The parts of a path. -/
theorem rooted_eq (hslash : slash → segments ≠ []) :
    rooted segments slash =
      ['/'].intercalate ([] :: segments ++ if slash ∨ segments = [] then [[]] else []) := by
  cases segments with
  | nil =>
    have hno : slash = false := by
      cases slash
      · rfl
      · exact absurd rfl (hslash rfl)
    subst hno
    rfl
  | cons s rest =>
    have hsnoc : ∀ (parts : List (List Char)), parts ≠ [] →
        ['/'].intercalate (parts ++ [[]]) = ['/'].intercalate parts ++ ['/'] := by
      intro parts
      induction parts with
      | nil => exact fun h => absurd rfl h
      | cons a parts ih =>
        intro _
        by_cases hparts : parts = []
        · subst hparts
          simp [List.intercalate]
        · rw [List.cons_append, List.intercalate_cons_of_ne_nil (by simp), ih hparts,
            List.intercalate_cons_of_ne_nil hparts]
          simp
    cases slash
    · simp [rooted]
    · rw [if_pos (Or.inl rfl), hsnoc _ (by simp), List.intercalate_cons_of_ne_nil (by simp)]
      simp [rooted]

theorem splitOn_rooted (hsegments : ∀ s ∈ segments, Segment s) (hslash : slash → segments ≠ []) :
    (rooted segments slash).splitOn '/' =
      [] :: segments ++ if slash ∨ segments = [] then [[]] else [] := by
  rw [rooted_eq hslash]
  refine List.splitOn_intercalate '/' (fun part hpart => ?_) (by simp)
  rcases List.mem_append.mp hpart with hpart | hpart
  · rcases List.mem_cons.mp hpart with rfl | hpart
    · exact List.not_mem_nil
    · exact (hsegments part hpart).slash
  · split at hpart
    · rw [List.mem_singleton.mp hpart]
      exact List.not_mem_nil
    · cases hpart

/-- A path has the characters of its segments, and slashes. -/
theorem mem_rooted {c : Char} (h : c ∈ rooted segments slash) :
    c = '/' ∨ ∃ s ∈ segments, c ∈ s := by
  have hjoin : ∀ segments : List (List Char), c ∈ ['/'].intercalate segments →
      c = '/' ∨ ∃ s ∈ segments, c ∈ s := by
    intro segments
    induction segments with
    | nil => simp
    | cons s rest ih =>
      intro hc
      by_cases hnil : rest = []
      · subst hnil
        exact Or.inr ⟨s, List.mem_cons_self, by simpa using hc⟩
      · rw [List.intercalate_cons_of_ne_nil hnil, List.mem_append, List.mem_append] at hc
        obtain (hc | hc) | hc := hc
        · exact Or.inr ⟨s, List.mem_cons_self, hc⟩
        · exact Or.inl (List.mem_singleton.mp hc)
        · rcases ih hc with hc | ⟨t, ht, hc⟩
          · exact Or.inl hc
          · exact Or.inr ⟨t, List.mem_cons_of_mem _ ht, hc⟩
  rw [rooted, List.mem_append, List.mem_cons] at h
  obtain (h | h) | h := h
  · exact Or.inl h
  · exact hjoin segments h
  · split at h
    · exact Or.inl (List.mem_singleton.mp h)
    · cases h

theorem backslash_rooted (hsegments : ∀ s ∈ segments, Segment s) :
    '\\' ∉ rooted segments slash := by
  intro h
  rcases mem_rooted h with h | ⟨s, hs, h⟩
  · cases h
  · exact (hsegments s hs).backslash h

/-- A segment is quoted as it is with its slashes kept. -/
theorem quote_segment {safe s : List Char} (hs : '/' ∉ s) :
    quote ('/' :: safe) s = quote safe s := by
  rw [quote_eq, quote_eq]
  refine List.flatMap_congr fun b hb => ?_
  have hne : Char.ofNat b.toNat = '/' → ¬ b < 128 := by
    intro heq hlt
    obtain ⟨c, hc, hnat⟩ := mem_utf8Bytes hb hlt
    rw [← hnat, Char.ofNat_toNat] at heq
    exact hs (heq ▸ hc)
  unfold quoteByte
  by_cases hlt : b < 128
  · have hslash : Char.ofNat b.toNat ≠ '/' := fun heq => hne heq hlt
    simp [hslash]
  · simp [hlt]

theorem quote_rooted {safe : List Char} (hsegments : ∀ s ∈ segments, Segment s) :
    '/' :: ['/'].intercalate (segments.map (quote safe)) ++ (if slash then ['/'] else []) =
      quote ('/' :: safe) (rooted segments slash) := by
  have hsep : quote ('/' :: safe) ['/'] = ['/'] := by
    rw [quote_eq, utf8Bytes, List.flatMap_singleton, utf8EncodeChar_of_lt (by decide),
      List.flatMap_singleton, quoteByte]
    exact if_pos ⟨by decide, Or.inr (Or.inr List.mem_cons_self)⟩
  have hjoin : ∀ segments : List (List Char), (∀ s ∈ segments, Segment s) →
      ['/'].intercalate (segments.map (quote safe)) =
        quote ('/' :: safe) (['/'].intercalate segments) := by
    intro segments
    induction segments with
    | nil => exact fun _ => by simp [quote_eq]
    | cons s rest ih =>
      intro h
      obtain ⟨hs, hrest⟩ := List.forall_mem_cons.mp h
      by_cases hnil : rest = []
      · subst hnil
        simp [quote_segment hs.slash]
      · rw [List.map_cons, List.intercalate_cons_of_ne_nil (by simpa using hnil),
          List.intercalate_cons_of_ne_nil hnil, quote_append, quote_append, hsep, ih hrest,
          quote_segment hs.slash]
  have hend : quote ('/' :: safe) (if slash then ['/'] else []) = if slash then ['/'] else [] := by
    cases slash
    · simp [quote_eq]
    · exact hsep
  have hhead : '/' :: ['/'].intercalate segments = ['/'] ++ ['/'].intercalate segments := rfl
  rw [rooted, quote_append, hhead, quote_append, hsep, hend, hjoin segments hsegments]
  rfl

theorem pathSafe_eq : "!$&'()*+,;=:@-._~".toList = pathSafe := by decide

/-- Whether a path that decodes to `decoded` ends with a slash that is kept. -/
def keepsSlash (decoded : List Char) (segments : List (List Char)) : Bool :=
  decoded.getLast? = some '/' && segments ≠ []

/-- What `_canonical_path` gives of a decoded path. -/
theorem normalized_eq {decoded : List Char} (hsegments : ∀ s ∈ segments, Segment s) :
    (let normalized := '/' :: ['/'].intercalate (segments.map (quote pathSafe))
     if decoded.getLast? = some '/' ∧ normalized ≠ ['/'] then normalized ++ ['/'] else normalized) =
      quote ('/' :: pathSafe) (rooted segments (keepsSlash decoded segments)) := by
  rw [← quote_rooted hsegments]
  have hempty : '/' :: ['/'].intercalate (segments.map (quote pathSafe)) = ['/'] ↔
      segments = [] := by
    constructor
    · intro h
      cases segments with
      | nil => rfl
      | cons s rest =>
        have hjoin := (List.cons.inj h).2
        have hs : quote pathSafe s = [] := by
          by_cases hnil : rest = []
          · subst hnil
            simpa using hjoin
          · rw [List.map_cons, List.intercalate_cons_of_ne_nil (by simpa using hnil)] at hjoin
            exact (List.append_eq_nil_iff.mp (List.append_eq_nil_iff.mp hjoin).1).1
        have hplain : ∀ c ∈ pathSafe, isPlain c := fun c hc =>
          isPlain_pathSafe c (List.mem_cons_of_mem _ hc)
        have hquoted := unquote_quote hplain (hsegments s List.mem_cons_self).nonempty
        rw [hs] at hquoted
        exact absurd (Option.some.inj hquoted).symm (hsegments s List.mem_cons_self).nonempty
    · rintro rfl
      rfl
  by_cases hlast : decoded.getLast? = some '/'
  · by_cases hnil : segments = []
    · simp [keepsSlash, hnil]
    · simp only [keepsSlash, hlast, ne_eq, hempty, hnil, not_false_eq_true, and_self, if_true,
        decide_true, Bool.and_self]
  · simp [keepsSlash, hlast]

/-- **What a canonical path is.** -/
theorem canonicalPath_spec {path canonical : List Char} (h : canonicalPath path = .ok canonical) :
    ∃ decoded, unquote (if path = [] then ['/'] else path) = some decoded ∧
      (∀ s ∈ canonicalSegments (decoded.splitOn '/'), Segment s) ∧
      canonical = quote ('/' :: pathSafe) (rooted (canonicalSegments (decoded.splitOn '/'))
        (keepsSlash decoded (canonicalSegments (decoded.splitOn '/')))) := by
  unfold canonicalPath at h
  rw [pathSafe_eq] at h
  obtain ⟨hseparator, h⟩ := seq_eq_ok.mp h
  obtain ⟨decoded, hdecoded, h⟩ := bind_eq_ok.mp h
  obtain ⟨hback, hencoded⟩ := require_eq_ok.mp hseparator
  have hdecoded := fromSome_eq_ok.mp hdecoded
  have hclean : '\\' ∉ decoded := by
    by_cases hpath : path = []
    · rw [if_pos hpath] at hdecoded
      exact backslash_of_unquote hdecoded (by decide) (by decide)
    · rw [if_neg hpath] at hdecoded
      exact backslash_of_unquote hdecoded hback hencoded
  have hsegments : ∀ s ∈ canonicalSegments (decoded.splitOn '/'), Segment s := fun s hs =>
    segment_of_decoded hclean hs
  refine ⟨decoded, hdecoded, hsegments, ?_⟩
  rw [← normalized_eq hsegments]
  exact (Except.ok.inj h).symm

/-- A path ends with a slash when it is given one. -/
theorem keepsSlash_rooted (hsegments : ∀ s ∈ segments, Segment s)
    (hslash : slash → segments ≠ []) : keepsSlash (rooted segments slash) segments = slash := by
  cases hs : slash with
  | true =>
    have hend : (rooted segments true).getLast? = some '/' := by
      rw [rooted, if_pos rfl, List.getLast?_append]
      rfl
    simp [keepsSlash, hend, hslash hs]
  | false =>
    by_cases hnil : segments = []
    · simp [keepsSlash, hnil]
    · -- without a slash the last character is one of the last segment
      have hlast : ∀ segments : List (List Char), segments ≠ [] → (∀ s ∈ segments, Segment s) →
          ∃ s ∈ segments, ∃ c ∈ s, (['/'].intercalate segments).getLast? = some c := by
        intro segments
        induction segments with
        | nil => exact fun h => absurd rfl h
        | cons s rest ih =>
          intro _ h
          obtain ⟨hs, hrest⟩ := List.forall_mem_cons.mp h
          by_cases hnil : rest = []
          · subst hnil
            refine ⟨s, List.mem_cons_self, s.getLast hs.nonempty, List.getLast_mem _, ?_⟩
            rw [List.intercalate_singleton, List.getLast?_eq_some_getLast hs.nonempty]
          · obtain ⟨t, ht, c, hc, heq⟩ := ih hnil hrest
            refine ⟨t, List.mem_cons_of_mem _ ht, c, hc, ?_⟩
            rw [List.intercalate_cons_of_ne_nil hnil, List.getLast?_append, heq]
            rfl
      obtain ⟨s, hmem, c, hc, heq⟩ := hlast segments hnil hsegments
      have hne : c ≠ '/' := fun h => (hsegments s hmem).slash (h ▸ hc)
      have hend : (rooted segments false).getLast? = some c := by
        rw [rooted, if_neg Bool.false_ne_true, List.append_nil, ← List.singleton_append,
          List.getLast?_append, heq]
        rfl
      simp [keepsSlash, hend, hne]

/-- **A canonical path stays as it is.** -/
theorem canonicalPath_rooted (hsegments : ∀ s ∈ segments, Segment s)
    (hslash : slash → segments ≠ []) :
    canonicalPath (quote ('/' :: pathSafe) (rooted segments slash)) =
      .ok (quote ('/' :: pathSafe) (rooted segments slash)) := by
  have hback : '\\' ∉ quote ('/' :: pathSafe) (rooted segments slash) := by
    intro hmem
    rcases mem_quote isPlain_pathSafe hmem with h | h
    · exact absurd h (by decide)
    · cases h
  have hclean : '\\' ∉ rooted segments slash := backslash_rooted hsegments
  have hseparator := encodedSeparator_quote isPlain_pathSafe List.mem_cons_self hclean
  have hne : rooted segments slash ≠ [] := List.cons_ne_nil _ _
  have hunquote := unquote_quote isPlain_pathSafe hne
  have hquoted : quote ('/' :: pathSafe) (rooted segments slash) ≠ [] := by
    intro hnil
    rw [hnil] at hunquote
    exact hne (Option.some.inj hunquote).symm
  have hkept : canonicalSegments ((rooted segments slash).splitOn '/') = segments := by
    rw [splitOn_rooted hsegments hslash]
    refine canonicalSegments_rooted hsegments _ fun s hs => ?_
    split at hs
    · exact List.mem_singleton.mp hs
    · cases hs
  have hnormal :
      (let normalized := '/' :: ['/'].intercalate
         ((canonicalSegments ((rooted segments slash).splitOn '/')).map (quote pathSafe))
       if (rooted segments slash).getLast? = some '/' ∧ normalized ≠ ['/'] then
         normalized ++ ['/']
       else normalized) = quote ('/' :: pathSafe) (rooted segments slash) := by
    rw [hkept, normalized_eq hsegments, keepsSlash_rooted hsegments hslash]
  unfold canonicalPath
  rw [pathSafe_eq, if_neg hquoted, hunquote]
  simp only [hback, hseparator, not_false_eq_true, and_self, require, if_true, fromSome,
    Bool.false_eq_true]
  exact congrArg Except.ok hnormal

end Paths

end ComponentKb.Imports
