import ComponentKb.Catalog.Text
import ComponentKb.Basic

/-!
# Facts of a source page

What the import pipeline knows about a page before it resolves what the page describes: the source
and the evidence of every statement (`models/provenance.py`), the facts read off the page
(`models/extracted_facts.py`) and their normalized form (`models/normalized_facts.py`). The checks
of each constructor are fields, so that every value here is one its own model accepts.

Left out: the check of `source_url`, which no definition here reads, and `extracted_facts_sha256`,
which its own check makes the digest of `extracted_facts`. A time is aware by its type.
-/

namespace ComponentKb.Pipeline

open ComponentKb.Catalog (isBlank isBlank_iff isSlugChar isSpace)

/-! ## Texts -/

/-- `_bounded` with its maximum: not blank, without NUL, and not too long. -/
abbrev Bounded (maximum : Nat) (value : String) : Prop :=
  isBlank value = false ∧ (∀ c ∈ value.toList, c.toNat ≠ 0) ∧ value.length ≤ maximum

/-- `^[first][rest]{0,n}$`. -/
def matchesRun (first rest : Char → Bool) (n : Nat) (value : String) : Bool :=
  match value.toList with
  | [] => false
  | c :: cs => first c && cs.length ≤ n && cs.all rest

def isLower (c : Char) : Bool := 'a' ≤ c && c ≤ 'z'

def isAlnumAscii (c : Char) : Bool := isSlugChar c || ('A' ≤ c && c ≤ 'Z')

/-- `_SOURCE_KEY` and `_WARNING_CODE`. -/
def isSourceKey (value : String) : Bool :=
  matchesRun isLower (fun c => isSlugChar c || c == '_') 79 value

/-- `_METHOD`. -/
def isMethod (value : String) : Bool :=
  matchesRun isLower (fun c => isSlugChar c || c ∈ ['_', '.', '-']) 79 value

/-- `_RULE_ID`. -/
def isRuleId (value : String) : Bool :=
  matchesRun isLower (fun c => isSlugChar c || c ∈ ['_', '.', '-']) 99 value

/-- `_VERSION`. -/
def isVersion (value : String) : Bool :=
  matchesRun isAlnumAscii (fun c => isAlnumAscii c || c ∈ ['.', '_', '+', '-']) 39 value

theorem isVersion_first : isVersion "1.0.0" = true := by decide

/-- `_TAXONOMY_PATH`: two or more words, separated by single dots. -/
def isTaxonomyPath (value : String) : Bool :=
  let words := value.toList.splitOn '.'
  2 ≤ words.length && words.all fun word =>
    match word with
    | [] => false
    | c :: cs => isLower c && cs.all fun c => isSlugChar c || c == '_' || c == '-'

/-- `_IDENTIFIER_VALUE`. -/
def isIdentifierValue (value : String) : Bool :=
  1 ≤ value.length && value.length ≤ 300 &&
    value.toList.all fun c => c.toNat != 0 && c != '\r' && c != '\n'

/-- A text within a limit. -/
abbrev BoundedText (maximum : Nat) := { value : String // Bounded maximum value }

/-- The texts of an extracted field. -/
abbrev Text := BoundedText 100000

/-! ## Sources and evidence -/

structure SourceReference where
  sourceKey : String
  sourceUrl : Option String := none
  sourcePath : Option String := none
  sourceRevision : Option String := none
  keyed : isSourceKey sourceKey = true := by decide
  located : sourceUrl ≠ none ∨ sourcePath ≠ none := by decide
  pathed : ∀ path ∈ sourcePath, Bounded 1000 path := by decide
  revised : ∀ revision ∈ sourceRevision, isBlank revision = false ∧ revision.length ≤ 160 := by
    decide
deriving DecidableEq

structure EvidenceFragment where
  source : SourceReference
  rawText : String
  extractionMethod : String
  parserVersion : String
  selector : Option String := none
  «section» : Option String := none
  texted : isBlank rawText = false ∧ rawText.length ≤ 100000 := by decide
  extracted : isMethod extractionMethod = true := by decide
  parsed : isVersion parserVersion = true := by decide
  located : selector ≠ none ∨ «section» ≠ none := by decide
  placed : ∀ place ∈ selector.toList ++ «section».toList,
    isBlank place = false ∧ place.length ≤ 500 := by decide
deriving DecidableEq

structure ExtractionWarning where
  code : String
  message : String
  evidence : List EvidenceFragment := []
  coded : isSourceKey code = true := by decide
  worded : isBlank message = false ∧ message.length ≤ 1000 := by decide
deriving DecidableEq

structure SourceArtifactMetadata where
  source : SourceReference
  mediaType : String
  contentSha256 : String
  byteLength : Nat
  acquiredAt : Time
deriving DecidableEq

/-! ## Extracted facts -/

/-- `ExtractedField`. The check of a text value is in its type. -/
structure ExtractedField (α : Type) where
  value : α
  rawValue : Text
  evidence : List EvidenceFragment
  evidenced : evidence ≠ [] := by simp
deriving DecidableEq

structure DescriptionSection where
  heading : Option (BoundedText 500)
  body : Text
deriving DecidableEq

inductive IdentifierKind
  | sku | model | partNumber | productId | other
deriving DecidableEq

structure Identifier where
  kind : IdentifierKind
  value : String
  plain : isIdentifierValue value = true := by decide
deriving DecidableEq

structure ModulePin where
  number : Option (BoundedText 160)
  name : Option (BoundedText 160)
  function : BoundedText 2000
  identified : number ≠ none ∨ name ≠ none := by decide
deriving DecidableEq

structure RawSpecification where
  label : BoundedText 500
  value : BoundedText 10000
deriving DecidableEq

inductive ResourceKind
  | datasheet | library | schematic | «example» | documentation | other
deriving DecidableEq

structure ResourceReference where
  label : BoundedText 500
  locator : BoundedText 2000
  kind : ResourceKind := .other
deriving DecidableEq

structure ImageReference where
  locator : BoundedText 2000
  altText : Option (BoundedText 1000) := none
deriving DecidableEq

structure UnknownFact where
  label : BoundedText 500
  value : Text
deriving DecidableEq

/-- The evidence of a group of fields, as `_validate_sources` reads it. -/
def fieldEvidence {α : Type} (fields : List (ExtractedField α)) : List EvidenceFragment :=
  fields.flatMap (·.evidence)

structure ExtractedFacts where
  artifact : SourceArtifactMetadata
  titleCandidates : List (ExtractedField Text) := []
  summaryCandidates : List (ExtractedField Text) := []
  descriptionSections : List (ExtractedField DescriptionSection) := []
  featureFacts : List (ExtractedField Text) := []
  applicationFacts : List (ExtractedField Text) := []
  usageSections : List (ExtractedField DescriptionSection) := []
  identifiers : List (ExtractedField Identifier) := []
  manufacturerCandidates : List (ExtractedField Text) := []
  brandCandidates : List (ExtractedField Text) := []
  interfaceFacts : List (ExtractedField Text) := []
  modulePinout : List (ExtractedField ModulePin) := []
  primaryIcCandidates : List (ExtractedField Identifier) := []
  specifications : List (ExtractedField RawSpecification) := []
  resources : List (ExtractedField ResourceReference) := []
  images : List (ExtractedField ImageReference) := []
  unmappedFacts : List (ExtractedField UnknownFact) := []
  warnings : List ExtractionWarning := []
  sourced : ∀ evidence ∈ fieldEvidence titleCandidates ++ fieldEvidence summaryCandidates ++
    fieldEvidence descriptionSections ++ fieldEvidence featureFacts ++
    fieldEvidence applicationFacts ++ fieldEvidence usageSections ++ fieldEvidence identifiers ++
    fieldEvidence manufacturerCandidates ++ fieldEvidence brandCandidates ++
    fieldEvidence interfaceFacts ++ fieldEvidence modulePinout ++
    fieldEvidence primaryIcCandidates ++ fieldEvidence specifications ++ fieldEvidence resources ++
    fieldEvidence images ++ fieldEvidence unmappedFacts ++ warnings.flatMap (·.evidence),
    evidence.source = artifact.source
deriving DecidableEq

/-! ## Normalized facts -/

inductive NormalizationConfidence
  | high | medium | low
deriving DecidableEq

inductive NormalizationProfile
  | sensor | display | actuator | board | communication | generic
deriving DecidableEq

def NormalizationProfile.value : NormalizationProfile → String
  | .sensor => "sensor"
  | .display => "display"
  | .actuator => "actuator"
  | .board => "board"
  | .communication => "communication"
  | .generic => "generic"

structure NormalizationTrace where
  originalValue : BoundedText 10000
  rawValue : Text
  normalizedValue : BoundedText 10000
  ruleId : String
  ruleVersion : String
  confidence : NormalizationConfidence
  ruled : isRuleId ruleId = true := by decide
  versioned : isVersion ruleVersion = true := by decide
deriving DecidableEq

structure NormalizedSpecification where
  taxonomyPath : String
  canonicalLabel : BoundedText 500
  originalLabel : BoundedText 500
  normalizedUnit : Option (BoundedText 40)
  trace : NormalizationTrace
  evidence : List EvidenceFragment
  pathed : isTaxonomyPath taxonomyPath = true := by decide
  evidenced : evidence ≠ [] := by simp
deriving DecidableEq

structure NormalizedTextFact where
  semanticPath : String
  trace : NormalizationTrace
  evidence : List EvidenceFragment
  pathed : isTaxonomyPath semanticPath = true := by decide
  evidenced : evidence ≠ [] := by simp
deriving DecidableEq

structure NormalizedIdentifier where
  kind : IdentifierKind
  trace : NormalizationTrace
  evidence : List EvidenceFragment
  evidenced : evidence ≠ [] := by simp
deriving DecidableEq

structure UnmappedSpecification where
  originalLabel : BoundedText 500
  originalValue : BoundedText 10000
  rawValue : Text
  reason : String
  evidence : List EvidenceFragment
  reasoned : isRuleId reason = true := by decide
  evidenced : evidence ≠ [] := by simp
deriving DecidableEq

structure NormalizationConflict where
  taxonomyPath : String
  normalizedValues : List String
  evidence : List EvidenceFragment
  code : String := "incompatible_values"
  pathed : isTaxonomyPath taxonomyPath = true := by decide
  differing : 2 ≤ normalizedValues.dedup.length := by decide
  coded : isRuleId code = true := by decide
  evidenced : evidence ≠ [] := by simp
deriving DecidableEq

structure NormalizedFacts where
  artifact : SourceArtifactMetadata
  extractedFacts : ExtractedFacts
  profile : NormalizationProfile
  specifications : List NormalizedSpecification := []
  unmappedSpecifications : List UnmappedSpecification := []
  interfaces : List NormalizedTextFact := []
  unmappedInterfaces : List NormalizedTextFact := []
  manufacturers : List NormalizedTextFact := []
  identifiers : List NormalizedIdentifier := []
  primaryIcs : List NormalizedIdentifier := []
  conflicts : List NormalizationConflict := []
  warnings : List String := []
  extracted : extractedFacts.artifact = artifact
  sourced : ∀ evidence ∈ specifications.flatMap (·.evidence) ++
    unmappedSpecifications.flatMap (·.evidence) ++ interfaces.flatMap (·.evidence) ++
    unmappedInterfaces.flatMap (·.evidence) ++ manufacturers.flatMap (·.evidence) ++
    identifiers.flatMap (·.evidence) ++ primaryIcs.flatMap (·.evidence) ++
    conflicts.flatMap (·.evidence), evidence.source = artifact.source
  warned : (∀ warning ∈ warnings, warning ≠ "" ∧ warning.length ≤ 160) ∧ warnings.Nodup := by
    decide
deriving DecidableEq

/-! ## What every fact has -/

/-- Evidence from one source. -/
abbrev From (source : SourceReference) (evidence : List EvidenceFragment) : Prop :=
  ∀ fragment ∈ evidence, fragment.source = source

theorem bounded_iff {maximum : Nat} {value : String} :
    Bounded maximum value ↔ (∃ c ∈ value.toList, isSpace c = false) ∧
      (∀ c ∈ value.toList, c.toNat ≠ 0) ∧ value.length ≤ maximum := by
  have hblank : isBlank value = false ↔ ∃ c ∈ value.toList, isSpace c = false := by
    rw [← Bool.not_eq_true, isBlank_iff]
    push Not
    simp only [ne_eq, Bool.not_eq_true]
  rw [Bounded, hblank]

theorem Bounded.mono {maximum limit : Nat} {value : String} (h : Bounded maximum value)
    (hle : maximum ≤ limit) : Bounded limit value :=
  ⟨h.1, h.2.1, h.2.2.trans hle⟩

/-- A shorter limit of a text that has one. -/
theorem Bounded.iff_length {maximum limit : Nat} {value : String} (h : Bounded maximum value) :
    Bounded limit value ↔ value.length ≤ limit :=
  ⟨fun hb => hb.2.2, fun hlength => ⟨h.1, h.2.1, hlength⟩⟩

theorem matchesRun_bounded {first rest : Char → Bool} {n : Nat} {value : String}
    (hfirst : ∀ c, first c = true → isSpace c = false ∧ c.toNat ≠ 0)
    (hrest : ∀ c, rest c = true → c.toNat ≠ 0) (h : matchesRun first rest n value = true) :
    Bounded (n + 1) value := by
  unfold matchesRun at h
  split at h
  · cases h
  · next c cs hvalue =>
    simp only [Bool.and_eq_true, decide_eq_true_eq, List.all_eq_true] at h
    obtain ⟨⟨hc, hlength⟩, hcs⟩ := h
    have hlen : value.length = cs.length + 1 := by
      rw [← String.length_toList, hvalue, List.length_cons]
    refine bounded_iff.mpr ⟨⟨c, hvalue ▸ List.mem_cons_self, (hfirst c hc).1⟩, ?_, by omega⟩
    rw [hvalue, List.forall_mem_cons]
    exact ⟨(hfirst c hc).2, fun d hd => hrest d (hcs d hd)⟩

theorem isLower_plain {c : Char} (h : isLower c = true) : isSpace c = false ∧ c.toNat ≠ 0 := by
  have ha : 97 ≤ c.toNat ∧ c.toNat ≤ 122 := by
    simpa [isLower, Char.le_def, UInt32.le_iff_toNat_le] using h
  refine ⟨?_, by omega⟩
  simp only [isSpace, Bool.or_eq_false_iff, Bool.and_eq_false_iff, beq_eq_false_iff_ne,
    decide_eq_false_iff_not]
  omega

theorem isSlugChar_ne_zero {c : Char} (h : isSlugChar c = true) : c.toNat ≠ 0 := by
  intro hc
  have hnot : isSlugChar (Char.ofNat 0) = false := by decide
  rw [← Char.toNat_inj.mp (hc.trans (by decide : 0 = (Char.ofNat 0).toNat)), h] at hnot
  cases hnot

/-- A source key is a short text. -/
theorem isSourceKey_bounded {value : String} (h : isSourceKey value = true) : Bounded 80 value := by
  refine matchesRun_bounded (fun c => isLower_plain) (fun c hc => ?_) h
  rcases (Bool.or_eq_true _ _).mp hc with hc | hc
  · exact isSlugChar_ne_zero hc
  · rw [beq_iff_eq.mp hc]
    decide

/-- The letters of a text are the letters of its words. -/
theorem mem_splitOn {x c : Char} {cs : List Char} (hne : c ≠ x) :
    c ∈ cs ↔ ∃ word ∈ cs.splitOn x, c ∈ word := by
  have hwords : ∀ words : List (List Char),
      c ∈ [x].intercalate words ↔ ∃ word ∈ words, c ∈ word := by
    intro words
    induction words with
    | nil => simp
    | cons word rest ih =>
      by_cases hrest : rest = []
      · simp [hrest, List.intercalate_singleton]
      · rw [List.intercalate_cons_of_ne_nil hrest]
        simp [ih, hne]
  have hcs : [x].intercalate (cs.splitOn x) = cs := List.intercalate_splitOn x
  conv_lhs => rw [← hcs]
  exact hwords _

/-- A taxonomy path is a text of any length. -/
theorem isTaxonomyPath_bounded {value : String} (h : isTaxonomyPath value = true) :
    Bounded value.length value := by
  simp only [isTaxonomyPath, Bool.and_eq_true, decide_eq_true_eq, List.all_eq_true] at h
  obtain ⟨htwo, hwords⟩ := h
  have hword : ∀ word ∈ value.toList.splitOn '.', ∃ c cs, word = c :: cs ∧ isLower c = true ∧
      ∀ d ∈ cs, isSlugChar d = true ∨ d = '_' ∨ d = '-' := by
    intro word hword
    have hall := hwords word hword
    split at hall
    · cases hall
    · next c cs =>
      simp only [Bool.and_eq_true, List.all_eq_true, Bool.or_eq_true, beq_iff_eq, or_assoc] at hall
      exact ⟨c, cs, rfl, hall⟩
  refine bounded_iff.mpr ⟨?_, ?_, le_rfl⟩
  · obtain ⟨word, hmem⟩ := List.exists_mem_of_length_pos (lt_of_lt_of_le Nat.two_pos htwo)
    obtain ⟨c, cs, rfl, hc, -⟩ := hword word hmem
    have hdot : c ≠ '.' := by
      rintro rfl
      exact absurd hc (by decide)
    exact ⟨c, (mem_splitOn hdot).mpr ⟨_, hmem, List.mem_cons_self⟩, (isLower_plain hc).1⟩
  · intro c hc
    by_cases hdot : c = '.'
    · rw [hdot]
      decide
    obtain ⟨word, hmem, hc⟩ := (mem_splitOn hdot).mp hc
    obtain ⟨d, ds, rfl, hd, hds⟩ := hword word hmem
    rcases List.mem_cons.mp hc with rfl | hc
    · exact (isLower_plain hd).2
    rcases hds c hc with hslug | rfl | rfl
    · exact isSlugChar_ne_zero hslug
    · decide
    · decide

end ComponentKb.Pipeline
