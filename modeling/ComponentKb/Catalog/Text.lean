import Mathlib.Algebra.GroupWithZero.Nat
import Mathlib.Data.Char
import Mathlib.Data.List.Lex
import Mathlib.Data.List.TakeWhile
import Mathlib.Tactic.Common

/-!
# Text

The string functions of the catalog. A string is a sequence of code points, as in Python. What
Python takes from the Unicode tables is `Unicode`: normalization to NFKC, case folding, the classes
of a character, and the order in which the database sorts text.
-/

namespace ComponentKb.Catalog

structure Unicode where
  /-- `unicodedata.normalize("NFKC", value)`. -/
  nfkc : String → String
  /-- `str.casefold`. -/
  casefold : String → String
  /-- `str.isalnum` of one character. -/
  isAlnum : Char → Bool
  /-- The value of a decimal digit of any script. -/
  digit : Char → Option Nat
  /-- The collation of the database. -/
  le : String → String → Bool

/-- `str.isspace` of one character. -/
def isSpace (c : Char) : Bool :=
  let n := c.toNat
  (0x09 ≤ n && n ≤ 0x0d) || (0x1c ≤ n && n ≤ 0x20) || n == 0x85 || n == 0xa0 || n == 0x1680 ||
    (0x2000 ≤ n && n ≤ 0x200a) || n == 0x2028 || n == 0x2029 || n == 0x202f || n == 0x205f ||
    n == 0x3000

/-- `str.strip`. -/
def strip (s : String) : String :=
  String.ofList (((s.toList.dropWhile isSpace).reverse.dropWhile isSpace).reverse)

/-- `not value.strip()`. -/
def isBlank (s : String) : Bool := strip s = ""

/-- `value.strip() if value else None`, of an optional value. -/
def stripped (s : Option String) : Option String :=
  s.bind fun s => if s = "" then none else some (strip s)

/-- `_normalized`. -/
def normalized (u : Unicode) (value : String) : String :=
  u.casefold (strip (u.nfkc value))

/-- `normalize_exact_identity`. -/
def normalizeExactIdentity (u : Unicode) (value : Option String) : Option String :=
  value.bind fun value =>
    let result := String.ofList ((u.casefold (u.nfkc value)).toList.filter u.isAlnum)
    if result = "" then none else some result

/-- A lower-case ASCII letter or a digit. -/
def isSlugChar (c : Char) : Bool := ('a' ≤ c && c ≤ 'z') || ('0' ≤ c && c ≤ '9')

/-- `_SLUG.fullmatch`: runs of lower-case letters and digits, separated by single hyphens. -/
def isSlug (s : String) : Bool :=
  (s.toList.splitOn '-').all fun part => !part.isEmpty && part.all isSlugChar

/-- `[a-z0-9][a-z0-9_+.#-]{0,31}`. -/
def isLanguage (s : String) : Bool :=
  match s.toList with
  | [] => false
  | c :: rest =>
    isSlugChar c && rest.length ≤ 31 && rest.all fun c => isSlugChar c || c ∈ ['_', '+', '.', '#', '-']

/-- `" ".join`. -/
def joined (values : List String) : String := " ".intercalate values

/-- Stripping does not make a text longer. -/
theorem length_strip_le (s : String) : (strip s).length ≤ s.length := by
  have hle : ∀ cs : List Char, (cs.dropWhile isSpace).length ≤ cs.length :=
    fun cs => List.Sublist.length_le (List.dropWhile_sublist isSpace)
  have h1 := hle s.toList
  have h2 := hle (s.toList.dropWhile isSpace).reverse
  rw [List.length_reverse] at h2
  unfold strip
  rw [String.length_ofList, List.length_reverse]
  rw [String.length_toList] at h1
  omega

/-- A text that starts at its first character and ends at its last one. -/
theorem strip_eq_self {s : String} (hfirst : ∀ c ∈ s.toList.head?, isSpace c = false)
    (hlast : ∀ c ∈ s.toList.getLast?, isSpace c = false) : strip s = s := by
  have hkept : ∀ cs : List Char, (∀ c ∈ cs.head?, isSpace c = false) →
      cs.dropWhile isSpace = cs := by
    intro cs h
    cases cs with
    | nil => rfl
    | cons c cs => rw [List.dropWhile_cons_of_neg (by simp [h c rfl])]
  rw [strip, hkept _ hfirst, hkept _ (by rwa [List.head?_reverse]), List.reverse_reverse,
    String.ofList_toList]

/-- What is left of a text neither starts nor ends with a space. -/
theorem strip_ends (s : String) : (∀ c ∈ (strip s).toList.head?, isSpace c = false) ∧
    ∀ c ∈ (strip s).toList.getLast?, isSpace c = false := by
  have hhead : ∀ (cs : List Char), ∀ c ∈ (cs.dropWhile isSpace).head?, isSpace c = false := by
    intro cs c hc
    simpa [Option.mem_def.mp hc] using List.head?_dropWhile_not isSpace cs
  rw [strip, String.toList_ofList]
  refine ⟨fun c hc => hhead s.toList c ?_, fun c hc => ?_⟩
  · -- what is taken away at the end leaves the first character
    have hprefix : ((s.toList.dropWhile isSpace).reverse.dropWhile isSpace).reverse <+:
        s.toList.dropWhile isSpace :=
      List.reverse_suffix.mp (by rw [List.reverse_reverse]; exact List.dropWhile_suffix _)
    obtain ⟨rest, hrest⟩ := hprefix
    rw [← hrest, List.head?_append, Option.mem_def.mp hc]
    rfl
  · rw [List.getLast?_reverse] at hc
    exact hhead _ c hc

theorem strip_strip (s : String) : strip (strip s) = strip s :=
  strip_eq_self (strip_ends s).1 (strip_ends s).2

/-- A text is blank iff each of its characters is a space. -/
theorem isBlank_iff (s : String) : isBlank s = true ↔ ∀ c ∈ s.toList, isSpace c = true := by
  rw [isBlank, decide_eq_true_iff, strip, String.ofList_eq_empty_iff, List.reverse_eq_nil_iff,
    List.dropWhile_eq_nil_iff]
  constructor
  · intro h
    rw [← List.dropWhile_eq_nil_iff]
    by_contra hne
    have hhead := h _ (List.mem_reverse.mpr (List.head_mem hne))
    exact Bool.false_ne_true ((List.head_dropWhile_not isSpace hne).symm.trans hhead)
  · intro h c hc
    exact h c (List.dropWhile_subset isSpace (List.mem_reverse.mp hc))

end ComponentKb.Catalog
