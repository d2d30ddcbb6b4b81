import ComponentKb.Lib.Merging
import ComponentKb.Pipeline.Context
import ComponentKb.Pipeline.Resolution
import ComponentKb.Pipeline.Values
import Mathlib.Data.List.Dedup
import Mathlib.Data.List.ReduceOption

/-!
# Normalization of facts

`SemanticFactNormalizer` (`imports/pipeline/normalization/semantic.py`) with the registry of the
specifications it knows. A specification is mapped or kept as unmapped, the interfaces and the
manufacturers are merged by their normalized value, and the specifications of one path may compete.

* `mergeTextFacts_merged`: merging loses no evidence and leaves one fact for each value.
* `competes_iff`: which values compete, for evidence that names its section.
* **`conserves_iff`**: the facts of a page are conserved exactly when all of their texts fit.

Left out: the check of the registry on overlapping aliases, which nothing here relies on, and the
digest of the extracted facts.
-/

namespace ComponentKb.Pipeline.Normalization

open ComponentKb.Catalog (Unicode isBlank isSlugChar isSpace joined strip)
open ComponentKb.Lib ComponentKb.Lib.Merging
open Values (Chars ValueKind ValueNormalization clean normalizeInterface normalizeManufacturer
  normalizePartNumber normalizeValue searchWord)

/-! ## The registry -/

structure SpecificationDefinition where
  taxonomyPath : String
  canonicalLabel : String
  aliases : List String
  valueKind : ValueKind
  profiles : List NormalizationProfile := []
  pathed : isTaxonomyPath taxonomyPath = true := by decide
  labelled : isBlank canonicalLabel = false ∧ canonicalLabel.length ≤ 500 := by decide

structure SpecificationRegistry where
  definitions : List SpecificationDefinition
  defined : definitions ≠ [] := by simp
  distinct : (definitions.map (·.taxonomyPath)).Nodup := by decide

/-- `SPECIFICATION_REGISTRY`. -/
def specificationRegistry : SpecificationRegistry where
  definitions := [
    { taxonomyPath := "sensor.temperature.measurement_range"
      canonicalLabel := "Temperature measurement range"
      aliases := ["temperature range"]
      valueKind := .temperature
      profiles := [.sensor] },
    { taxonomyPath := "environment.temperature.operating_range"
      canonicalLabel := "Operating temperature"
      aliases := ["operating temperature", "operating temperature range", "operation temperature",
        "temperature range", "working temperature"]
      valueKind := .temperature },
    { taxonomyPath := "sensor.humidity.measurement_range"
      canonicalLabel := "Humidity measurement range"
      aliases := ["humidity range"]
      valueKind := .percent
      profiles := [.sensor] },
    { taxonomyPath := "sensor.pressure.measurement_range"
      canonicalLabel := "Pressure measurement range"
      aliases := ["pressure range"]
      valueKind := .pressure
      profiles := [.sensor] },
    { taxonomyPath := "display.resolution"
      canonicalLabel := "Display resolution"
      aliases := ["resolution"]
      valueKind := .dimensions
      profiles := [.display] },
    { taxonomyPath := "measurement.resolution"
      canonicalLabel := "Resolution"
      aliases := ["resolution"]
      valueKind := .text },
    { taxonomyPath := "communication.frequency.carrier"
      canonicalLabel := "Carrier frequency"
      aliases := ["frequency", "operating frequency"]
      valueKind := .frequency
      profiles := [.communication] },
    { taxonomyPath := "signal.frequency"
      canonicalLabel := "Frequency"
      aliases := ["frequency", "operating frequency", "sampling frequency"]
      valueKind := .frequency },
    { taxonomyPath := "actuator.current.maximum_output"
      canonicalLabel := "Maximum output current"
      aliases := ["maximum current", "max current"]
      valueKind := .current
      profiles := [.actuator] },
    { taxonomyPath := "electrical.current.maximum"
      canonicalLabel := "Maximum current"
      aliases := ["maximum current", "max current"]
      valueKind := .current },
    { taxonomyPath := "electrical.voltage.supply"
      canonicalLabel := "Supply voltage"
      aliases := ["input voltage", "rated voltage", "supply", "supply voltage", "voltage",
        "working voltage"]
      valueKind := .voltage },
    { taxonomyPath := "electrical.voltage.operating"
      canonicalLabel := "Operating voltage"
      aliases := ["operating voltage", "operation voltage", "operational voltage"]
      valueKind := .voltage },
    { taxonomyPath := "electrical.current.operating"
      canonicalLabel := "Operating current"
      aliases := ["current", "current consumption", "operating current", "operation current",
        "working current"]
      valueKind := .current },
    { taxonomyPath := "electrical.efficiency"
      canonicalLabel := "Efficiency"
      aliases := ["efficiency"]
      valueKind := .percent },
    { taxonomyPath := "measurement.range"
      canonicalLabel := "Measurement range"
      aliases := ["detection range", "measuring range", "measurement range", "operating range",
        "range", "sensing range"]
      valueKind := .auto },
    { taxonomyPath := "measurement.accuracy"
      canonicalLabel := "Accuracy"
      aliases := ["accuracy", "measurement accuracy"]
      valueKind := .auto },
    { taxonomyPath := "physical.dimensions"
      canonicalLabel := "Dimensions"
      aliases := ["dimension", "dimensions", "product size", "size"]
      valueKind := .dimensions },
    { taxonomyPath := "communication.interface"
      canonicalLabel := "Interface"
      aliases := ["bus", "communication interface", "interface", "interfaces", "protocol"]
      valueKind := .interface },
    { taxonomyPath := "mechanical.connector"
      canonicalLabel := "Connector"
      aliases := ["connector", "connector type"]
      valueKind := .text },
    { taxonomyPath := "identity.primary_ic"
      canonicalLabel := "Primary IC"
      aliases := ["chip", "controller", "main chip", "main ic", "mcu", "primary ic", "sensor ic"]
      valueKind := .text },
    { taxonomyPath := "display.color"
      canonicalLabel := "Display color"
      aliases := ["display color", "colour", "color"]
      valueKind := .text
      profiles := [.display] },
    { taxonomyPath := "communication.link_budget"
      canonicalLabel := "Link budget"
      aliases := ["link budget"]
      valueKind := .text
      profiles := [.communication] },
    { taxonomyPath := "board.processor"
      canonicalLabel := "Processor"
      aliases := ["processor", "cpu"]
      valueKind := .text
      profiles := [.board] }]

section

variable (u : Unicode)

/-- `normalize_label`. -/
def normalizeLabel (value : String) : String :=
  joined ((parts (fun c => !isSlugChar c) (u.casefold (strip (u.nfkc value))).toList).map
    String.ofList)

/-- `resolve`; a definition for the profile comes before one for all profiles. -/
def SpecificationRegistry.resolve (registry : SpecificationRegistry) (label : String)
    (profile : NormalizationProfile) : Option SpecificationDefinition :=
  let definitions := registry.definitions.filter fun definition =>
    normalizeLabel u label ∈ definition.aliases.map (normalizeLabel u)
  (definitions.find? fun definition => profile ∈ definition.profiles).or
    (definitions.find? fun definition => definition.profiles = [])

/-! ## The profile -/

/-- `_PROFILE_TOKENS`, without the word boundaries. -/
def profileTokens : List (NormalizationProfile × List String) :=
  [(.display, ["display", "lcd", "oled", "screen"]),
   (.communication, ["can bus", "communication", "lora", "radio", "wireless"]),
   (.actuator, ["actuator", "motor", "relay", "servo"]),
   (.sensor, ["sensor", "sensing", "temperature", "humidity", "pressure", "ranger"]),
   (.board, ["board", "xiao", "shield", "microcontroller"])]

/-- `_profile`. -/
def profileOf (facts : ExtractedFacts) : NormalizationProfile :=
  let searchable := joined ((facts.titleCandidates ++ facts.summaryCandidates ++
    facts.featureFacts ++ facts.applicationFacts).map (·.value.1))
  ((profileTokens.find? fun row =>
    row.2.any fun word => searchWord u word searchable.toList).map Prod.fst).getD .generic

/-! ## Facts and their checks -/

/-- `_trace_value`, with the checks of `NormalizationTrace`. -/
def traceValue (original : String) (raw : Text) (normalized : ValueNormalization) :
    Except String NormalizationTrace := do
  let ⟨hasOriginal⟩ ← demand (Bounded 10000 original) "normalization_original_value_invalid"
  let ⟨hasValue⟩ ← demand (Bounded 10000 (String.ofList normalized.value))
    "normalization_value_invalid"
  let ⟨ruled⟩ ← demand (isRuleId normalized.ruleId = true) "normalization_rule_id_invalid"
  return { originalValue := ⟨original, hasOriginal⟩
           rawValue := raw
           normalizedValue := ⟨_, hasValue⟩
           ruleId := normalized.ruleId
           ruleVersion := "1.0.0"
           confidence := normalized.confidence
           ruled
           versioned := isVersion_first }

/-- A field that is read as a text, with its raw value and its evidence. -/
structure Reading where
  original : String
  raw : Text
  evidence : List EvidenceFragment
  evidenced : evidence ≠ []

def readText (field : ExtractedField Text) : Reading :=
  ⟨field.value.1, field.rawValue, field.evidence, field.evidenced⟩

def readSpecification (field : ExtractedField RawSpecification) : Reading :=
  ⟨field.value.value.1, field.rawValue, field.evidence, field.evidenced⟩

def readIdentifier (field : ExtractedField Identifier) : Reading :=
  ⟨field.value.value, field.rawValue, field.evidence, field.evidenced⟩

/-- A `NormalizedTextFact` under one of the paths of the normalizer. -/
def textFact (path : { path : String // isTaxonomyPath path = true }) (reading : Reading)
    (normalized : ValueNormalization) : Except String NormalizedTextFact := do
  let trace ← traceValue reading.original reading.raw normalized
  return { semanticPath := path.1
           trace
           evidence := reading.evidence
           pathed := path.2
           evidenced := reading.evidenced }

/-- The unit of a value, with its check in `NormalizedSpecification`. -/
def unitText : Option Chars → Except String (Option (BoundedText 40))
  | none => return none
  | some unit => do
    let ⟨measured⟩ ← demand (Bounded 40 (String.ofList unit)) "normalized_specification_unit_invalid"
    return some ⟨_, measured⟩

/-- `NormalizedSpecification`. -/
def specification (definition : SpecificationDefinition)
    (field : ExtractedField RawSpecification) : Except String NormalizedSpecification := do
  let value := normalizeValue u field.value.value.1.toList definition.valueKind
  let trace ← traceValue field.value.value.1 field.rawValue value
  let ⟨labelled⟩ ← demand (Bounded 500 definition.canonicalLabel)
    "normalized_specification_label_invalid"
  let normalizedUnit ← unitText value.unit
  return { taxonomyPath := definition.taxonomyPath
           canonicalLabel := ⟨_, labelled⟩
           originalLabel := field.value.label
           normalizedUnit
           trace
           evidence := field.evidence
           pathed := definition.pathed
           evidenced := field.evidenced }

/-- `_identifier`. -/
def identifier (field : ExtractedField Identifier) : Except String NormalizedIdentifier := do
  let trace ← traceValue field.value.value field.rawValue
    (normalizePartNumber u field.value.value.toList)
  return ⟨field.value.kind, trace, field.evidence, field.evidenced⟩

/-! ## Interfaces -/

def interfacePath : { path : String // isTaxonomyPath path = true } :=
  ⟨"communication.interface", by decide⟩

def unmappedPath : { path : String // isTaxonomyPath path = true } :=
  ⟨"communication.interface_unmapped", by decide⟩

def manufacturerPath : { path : String // isTaxonomyPath path = true } :=
  ⟨"identity.manufacturer", by decide⟩

/-- The value of a text that names no interface. -/
def fallback (original : String) : ValueNormalization :=
  ⟨(normalizeValue u original.toList .text).value, none, "interface.unmapped.v1", .low⟩

/-- What a reading adds to the interfaces and to those that are unmapped. -/
structure Interfaces where
  known : List NormalizedTextFact := []
  unknown : List NormalizedTextFact := []

/-- `_add_interfaces`. -/
def addInterfaces (reading : Reading) : Except String Interfaces := do
  let found := normalizeInterface u reading.original.toList
  if found = [] then
    return { unknown := [← textFact unmappedPath reading (fallback u reading.original)] }
  else
    return { known := ← found.mapM fun value => textFact interfacePath reading value }

/-! ## Specifications -/

/-- What a specification adds to the lists of the normalizer. -/
structure Placed where
  mapped : List NormalizedSpecification := []
  unmapped : List UnmappedSpecification := []
  interfaces : Interfaces := {}

def keepUnmapped (field : ExtractedField RawSpecification) : UnmappedSpecification where
  originalLabel := field.value.label
  originalValue := field.value.value
  rawValue := field.rawValue
  reason := "taxonomy.alias-unmapped.v1"
  evidence := field.evidence
  evidenced := field.evidenced

/-- The body of the loop over the specifications. -/
def place (registry : SpecificationRegistry) (profile : NormalizationProfile)
    (field : ExtractedField RawSpecification) : Except String Placed :=
  match registry.resolve u field.value.label.1 profile with
  | none => return { unmapped := [keepUnmapped field] }
  | some definition => do
    let item ← specification u definition field
    if definition.valueKind = .interface then
      return { mapped := [item], interfaces := ← addInterfaces u (readSpecification field) }
    else
      return { mapped := [item] }

/-! ## Merging and conflicts -/

/-- The key of a fact in `_merge_text_facts`. -/
def factKey (fact : NormalizedTextFact) : String × String :=
  (fact.semanticPath, fact.trace.normalizedValue.1)

/-- A fact with the evidence of another one: `tuple(dict.fromkeys((*existing, *fact)))`. -/
def joinEvidence (existing fact : NormalizedTextFact) : NormalizedTextFact :=
  { existing with
    evidence := uniqueBy id (existing.evidence ++ fact.evidence)
    evidenced := by
      cases h : existing.evidence with
      | nil => exact absurd h existing.evidenced
      | cons first rest => exact List.cons_ne_nil _ _ }

/-- `_merge_text_facts`. -/
def mergeTextFacts (facts : List NormalizedTextFact) : List NormalizedTextFact :=
  merge factKey joinEvidence facts

def NormalizationConflict.make (taxonomyPath : String) (normalizedValues : List String)
    (evidence : List EvidenceFragment) : Except String NormalizationConflict := do
  let ⟨pathed⟩ ← demand (isTaxonomyPath taxonomyPath = true)
    "normalization_conflict_taxonomy_invalid"
  let ⟨differing⟩ ← demand (2 ≤ normalizedValues.dedup.length)
    "normalization_conflict_values_invalid"
  let ⟨evidenced⟩ ← demand (evidence ≠ []) "normalization_conflict_evidence_missing"
  return { taxonomyPath, normalizedValues, evidence, pathed, differing, evidenced }

/-- The values of specifications. -/
def valuesOf (candidates : List NormalizedSpecification) : List String :=
  uniqueBy id (candidates.map (·.trace.normalizedValue.1))

/-- The sections that the evidence of specifications names. -/
def sectionsOf (candidates : List NormalizedSpecification) : List String :=
  uniqueBy id ((candidates.flatMap (·.evidence)).filterMap (·.«section»))

/-- The body of the loop over the groups of `_conflicts`. -/
def conflictOf (path : String) (candidates : List NormalizedSpecification) :
    Except String (Option NormalizationConflict) := do
  if (valuesOf candidates).length < 2 ∨ (sectionsOf candidates).length < 2 then return none
  else
    return some (← NormalizationConflict.make path (valuesOf candidates)
      (uniqueBy id (candidates.flatMap (·.evidence))))

/-- `_conflicts`; a group for each path, in the order in which the paths come up. -/
def conflictsOf (specifications : List NormalizedSpecification) :
    Except String (List NormalizationConflict) := do
  let found ← (uniqueBy id (specifications.map (·.taxonomyPath))).mapM fun path =>
    conflictOf path (specifications.filter fun item => item.taxonomyPath = path)
  return found.reduceOption

/-! ## The normalizer -/

def NormalizedFacts.make (extractedFacts : ExtractedFacts) (profile : NormalizationProfile)
    (specifications : List NormalizedSpecification)
    (unmappedSpecifications : List UnmappedSpecification)
    (interfaces unmappedInterfaces manufacturers : List NormalizedTextFact)
    (identifiers primaryIcs : List NormalizedIdentifier) (conflicts : List NormalizationConflict)
    (warnings : List String) : Except String NormalizedFacts := do
  let ⟨sourced⟩ ← demand (∀ evidence ∈ specifications.flatMap (·.evidence) ++
    unmappedSpecifications.flatMap (·.evidence) ++ interfaces.flatMap (·.evidence) ++
    unmappedInterfaces.flatMap (·.evidence) ++ manufacturers.flatMap (·.evidence) ++
    identifiers.flatMap (·.evidence) ++ primaryIcs.flatMap (·.evidence) ++
    conflicts.flatMap (·.evidence), evidence.source = extractedFacts.artifact.source)
    "normalized_fact_source_mismatch"
  let ⟨short⟩ ← demand (∀ warning ∈ warnings, warning ≠ "" ∧ warning.length ≤ 160)
    "normalization_warning_invalid"
  let ⟨unique⟩ ← demand warnings.Nodup "normalization_warnings_must_be_unique"
  return { artifact := extractedFacts.artifact
           extractedFacts
           profile
           specifications
           unmappedSpecifications
           interfaces
           unmappedInterfaces
           manufacturers
           identifiers
           primaryIcs
           conflicts
           warnings
           extracted := rfl
           sourced
           warned := warningsValid short unique }

/-- The warnings of the normalizer. -/
def warningsOf (unmapped : List UnmappedSpecification) (unknown : List NormalizedTextFact)
    (conflicts : List NormalizationConflict) : List String :=
  (if unmapped ≠ [] then ["unmapped_specification"] else []) ++
    (if unknown ≠ [] then ["unmapped_interface"] else []) ++
    (if conflicts ≠ [] then ["normalization_conflict"] else [])

variable (registry : SpecificationRegistry)

/-- `_normalize`. -/
def normalizeFacts (facts : ExtractedFacts) : Except String NormalizedFacts := do
  let profile := profileOf u facts
  let placed ← facts.specifications.mapM (place u registry profile)
  let stated ← facts.interfaceFacts.mapM fun field => addInterfaces u (readText field)
  let found := placed.map (·.interfaces) ++ stated
  let unknown := mergeTextFacts (found.flatMap (·.unknown))
  let named ← facts.manufacturerCandidates.mapM fun field =>
    textFact manufacturerPath (readText field) (normalizeManufacturer u field.value.1.toList)
  let mapped := placed.flatMap (·.mapped)
  let unmapped := placed.flatMap (·.unmapped)
  let conflicts ← conflictsOf mapped
  let identifiers ← facts.identifiers.mapM (identifier u)
  let primaryIcs ← facts.primaryIcCandidates.mapM (identifier u)
  NormalizedFacts.make facts profile mapped unmapped
    (mergeTextFacts (found.flatMap (·.known))) unknown (mergeTextFacts named) identifiers primaryIcs
    conflicts (warningsOf unmapped unknown conflicts)

/-- `normalize`, with the two readings of the clock. -/
def normalize (context : ImportPipelineContext) (facts : ExtractedFacts)
    (startedAt completedAt : Time) :
    Except String (ImportPipelineContext × NormalizedFacts) := do
  let ⟨_⟩ ← demand (context.sourceKey = facts.artifact.source.sourceKey) "pipeline_source_mismatch"
  let ⟨_⟩ ← demand (context.nextStage = some .normalization) "normalization_stage_out_of_order"
  let normalized ← normalizeFacts u registry facts
  let execution ← StageExecution.make .normalization startedAt completedAt normalized.warnings
  let updated ← context.advance execution
  return (updated, normalized)

end

variable {u : Unicode} {registry : SpecificationRegistry}

/-! ## Rules and units -/

/-- The rule and the unit of a value pass their checks. -/
def Regular (value : ValueNormalization) : Prop :=
  isRuleId value.ruleId = true ∧ ∀ unit ∈ value.unit, Bounded 40 (String.ofList unit)

/-- The rules with a name of their own. -/
def fixedRules : List String :=
  ["dimensions.axes.v1", "text.nfkc-whitespace.v1", "interface.aliases.v1", "interface.unmapped.v1",
   "manufacturer.aliases.v1", "manufacturer.nfkc.v1", "part-number.ascii-case.v1"]

theorem fixedRules_valid : ∀ rule ∈ fixedRules, isRuleId rule = true := by decide

theorem canonicalUnit_bounded {kind : ValueKind} {unit canonical : Chars}
    (h : Values.canonicalUnit kind unit = some canonical) : Bounded 40 (String.ofList canonical) := by
  obtain ⟨row, hrow, rfl⟩ := Option.map_eq_some_iff.mp h
  have hall : ∀ row ∈ Values.quantityUnits kind, Bounded 40 (String.ofList row.2.toList) := by
    cases kind <;> decide
  exact hall row (List.mem_of_find?_eq_some hrow)

/-- The symbol of a quantity stands for one of its units. -/
theorem quantity_canonical {kind : ValueKind} {value : Chars} {q : Values.Quantity}
    (h : Values.quantity u kind value = some q) :
    ∃ unit, Values.canonicalUnit kind unit = some q.canonical := by
  have hmeasured : ∀ amount text, Values.measured u kind amount text = some q →
      ∃ unit, Values.canonicalUnit kind unit = some q.canonical := by
    intro amount text h
    obtain ⟨⟨number, rest⟩, -, h⟩ := Option.bind_eq_some_iff.mp h
    obtain ⟨unit, -, h⟩ := Option.bind_eq_some_iff.mp h
    obtain ⟨canonical, hcanonical, h⟩ := Option.bind_eq_some_iff.mp h
    obtain rfl := Option.some.inj h
    exact ⟨_, hcanonical⟩
  unfold Values.quantity at h
  rcases Option.or_eq_some_iff.mp h with h | ⟨-, h⟩
  · obtain ⟨groups, -, h⟩ := Option.bind_eq_some_iff.mp h
    obtain ⟨unit, -, h⟩ := Option.bind_eq_some_iff.mp h
    obtain ⟨canonical, hcanonical, h⟩ := Option.bind_eq_some_iff.mp h
    split at h
    · obtain rfl := Option.some.inj h
      exact ⟨_, hcanonical⟩
    · cases h
  · rcases Option.or_eq_some_iff.mp h with h | ⟨-, h⟩
    · unfold Values.toleranceQuantity at h
      split at h
      · exact hmeasured _ _ h
      · cases h
    · exact hmeasured _ _ h

theorem normalizeQuantity_regular {kind : ValueKind} {value : Chars} {n : ValueNormalization}
    (h : Values.normalizeQuantity u kind value = some n) : Regular n := by
  obtain ⟨q, hq, rfl⟩ := Option.map_eq_some_iff.mp h
  constructor
  · have hrules : ∀ word ∈ ["range", "tolerance", "scalar"],
        isRuleId ("quantity." ++ kind.value ++ "." ++ word ++ ".v1") = true := by
      cases kind <;> decide
    refine hrules q.amount.rule ?_
    cases q.amount <;> simp [Values.Amount.rule]
  · intro unit hunit
    obtain rfl := Option.some.inj hunit
    obtain ⟨text, htext⟩ := quantity_canonical hq
    exact canonicalUnit_bounded htext

theorem normalizeDimensions_regular {value : Chars} {n : ValueNormalization}
    (h : Values.normalizeDimensions u value = some n) : Regular n := by
  obtain ⟨groups, -, h⟩ := Option.bind_eq_some_iff.mp h
  obtain ⟨unit, hunit, h⟩ := Option.bind_eq_some_iff.mp h
  obtain rfl := Option.some.inj h
  refine ⟨fixedRules_valid _ (by simp [fixedRules]), fun text htext => ?_⟩
  have htext : unit = some text := htext
  unfold Values.dimensionUnit at hunit
  split at hunit
  · rw [← Option.some.inj hunit] at htext
    cases htext
  · obtain ⟨row, hrow, heq⟩ := Option.map_eq_some_iff.mp hunit
    rw [← heq] at htext
    obtain rfl := Option.some.inj htext
    have hall : ∀ row ∈ Values.dimensionUnits, Bounded 40 (String.ofList row.2.toList) := by decide
    exact hall row (List.mem_of_find?_eq_some hrow)

theorem plainText_regular (value : Chars) : Regular (Values.plainText value) :=
  ⟨fixedRules_valid _ (by simp [fixedRules, Values.plainText]), fun _ h => by cases h⟩

theorem getD_regular {found : Option ValueNormalization} {value : Chars}
    (h : ∀ n, found = some n → Regular n) : Regular (found.getD (Values.plainText value)) := by
  cases found with
  | none => exact plainText_regular value
  | some n => exact h n rfl

theorem normalizeValue_regular (value : Chars) (kind : ValueKind) :
    Regular (normalizeValue u value kind) := by
  unfold normalizeValue
  cases kind with
  | auto =>
    refine getD_regular fun n h => ?_
    obtain ⟨kind, -, h⟩ := List.exists_of_findSome?_eq_some h
    exact normalizeQuantity_regular h
  | voltage => exact getD_regular fun n h => normalizeQuantity_regular h
  | current => exact getD_regular fun n h => normalizeQuantity_regular h
  | temperature => exact getD_regular fun n h => normalizeQuantity_regular h
  | frequency => exact getD_regular fun n h => normalizeQuantity_regular h
  | percent => exact getD_regular fun n h => normalizeQuantity_regular h
  | pressure => exact getD_regular fun n h => normalizeQuantity_regular h
  | dimensions => exact getD_regular fun n h => normalizeDimensions_regular h
  | interface =>
    simp only
    split
    · exact plainText_regular _
    · exact ⟨fixedRules_valid _ (by simp [fixedRules]), fun _ h => by cases h⟩
  | text => exact plainText_regular _

theorem normalizeInterface_regular {value : Chars} {n : ValueNormalization}
    (h : n ∈ normalizeInterface u value) : Regular n := by
  unfold normalizeInterface at h
  obtain ⟨row, -, rfl⟩ := List.mem_map.mp (List.mem_dedup.mp h)
  exact ⟨fixedRules_valid _ (by simp [fixedRules]), fun _ h => by cases h⟩

theorem normalizeManufacturer_regular (value : Chars) :
    Regular (normalizeManufacturer u value) := by
  unfold normalizeManufacturer
  simp only
  split
  · exact ⟨fixedRules_valid _ (by simp [fixedRules]), fun _ h => by cases h⟩
  · exact ⟨fixedRules_valid _ (by simp [fixedRules]), fun _ h => by cases h⟩

theorem normalizePartNumber_regular (value : Chars) : Regular (normalizePartNumber u value) :=
  ⟨fixedRules_valid _ (by simp [fixedRules, normalizePartNumber]), fun _ h => by cases h⟩

/-! ## What each part records -/

/-- A text and its normalized value are within the limits of a trace. -/
abbrev TextFits (original : String) (value : ValueNormalization) : Prop :=
  Bounded 10000 original ∧ Bounded 10000 (String.ofList value.value)

theorem traceValue_passes {original : String} {raw : Text} {value : ValueNormalization}
    (h : isRuleId value.ruleId = true) :
    Passes (traceValue original raw value) (TextFits original value) fun trace =>
      trace.originalValue.1 = original ∧ trace.rawValue = raw ∧
        trace.normalizedValue.1 = String.ofList value.value := by
  refine Passes.bind_demand fun _ => ?_
  refine Passes.congr (Passes.bind_demand fun _ => ?_) (and_iff_left trivial)
  refine Passes.bind_met h ?_
  exact Passes.pure ⟨rfl, rfl, rfl⟩

/-- A reading with one of its normalized values. -/
abbrev Term := Reading × ValueNormalization

def Term.value (term : Term) : String := String.ofList term.2.value

/-- A fact that tells a term, with its evidence. -/
structure Tells (path : String) (term : Term) (fact : NormalizedTextFact) : Prop where
  path : fact.semanticPath = path
  value : fact.trace.normalizedValue.1 = term.value
  evidence : fact.evidence = term.1.evidence

theorem textFact_passes {path : { path : String // isTaxonomyPath path = true }} (term : Term)
    (h : Regular term.2) :
    Passes (textFact path term.1 term.2) (TextFits term.1.original term.2) fun fact =>
      Tells path.1 term fact := by
  refine ((traceValue_passes h.1).bind fun trace htrace => ?_).congr (and_iff_left trivial)
  exact Passes.pure ⟨rfl, htrace.2.2, rfl⟩

variable (u) in
/-- The interfaces that a reading names. -/
def knownTerms (reading : Reading) : List Term :=
  (normalizeInterface u reading.original.toList).map fun value => (reading, value)

variable (u) in
/-- The text of a reading that names no interface. -/
def unknownTerms (reading : Reading) : List Term :=
  if normalizeInterface u reading.original.toList = [] then
    [(reading, fallback u reading.original)]
  else []

/-- What a reading adds tells its terms. -/
structure Interfaces.Of (u : Unicode) (reading : Reading) (added : Interfaces) : Prop where
  known : List.Forall₂ (Tells interfacePath.1) (knownTerms u reading) added.known
  unknown : List.Forall₂ (Tells unmappedPath.1) (unknownTerms u reading) added.unknown

theorem addInterfaces_passes {reading : Reading} :
    Passes (addInterfaces u reading)
      (∀ term ∈ knownTerms u reading ++ unknownTerms u reading, TextFits term.1.original term.2)
      fun added => added.Of u reading := by
  have hregular : Regular (fallback u reading.original) :=
    ⟨fixedRules_valid _ (by simp [fixedRules, fallback]), fun _ h => by cases h⟩
  unfold addInterfaces
  by_cases hfound : normalizeInterface u reading.original.toList = []
  · simp only [hfound, if_pos]
    have hknown : knownTerms u reading = [] := by simp [knownTerms, hfound]
    have hunknown : unknownTerms u reading = [(reading, fallback u reading.original)] :=
      if_pos hfound
    refine ((textFact_passes (reading, fallback u reading.original) hregular).bind
      fun fact hfact => Passes.pure ⟨?_, ?_⟩).congr ?_
    · rw [hknown, hunknown, and_true, List.nil_append, List.forall_mem_singleton]
    · rw [hknown]
      exact .nil
    · rw [hunknown]
      exact .cons hfact .nil
  · simp only [if_neg hfound]
    have hunknown : unknownTerms u reading = [] := if_neg hfound
    refine ((Passes.mapM (T := fun value fact => Tells interfacePath.1 (reading, value) fact)
      fun value hvalue => textFact_passes (reading, value)
        (normalizeInterface_regular hvalue)).bind fun facts hfacts => Passes.pure ⟨?_, ?_⟩).congr ?_
    · rw [hunknown, and_true, List.append_nil, knownTerms, List.forall_mem_map]
    · exact List.forall₂_map_left_iff.mpr hfacts
    · rw [hunknown]
      exact .nil

theorem unitText_passes {unit : Option Chars}
    (h : ∀ text ∈ unit, Bounded 40 (String.ofList text)) :
    Passes (unitText unit) True fun found => found.map (·.1) = unit.map String.ofList := by
  cases unit with
  | none => exact Passes.pure rfl
  | some text =>
    refine Passes.bind_met (h text rfl) ?_
    exact Passes.pure rfl

/-- A specification that records a field under a definition. -/
structure Records (u : Unicode) (definition : SpecificationDefinition)
    (field : ExtractedField RawSpecification) (item : NormalizedSpecification) : Prop where
  path : item.taxonomyPath = definition.taxonomyPath
  label : item.originalLabel = field.value.label
  original : item.trace.originalValue.1 = field.value.value.1
  raw : item.trace.rawValue = field.rawValue
  value : item.trace.normalizedValue.1 =
    String.ofList (normalizeValue u field.value.value.1.toList definition.valueKind).value
  evidence : item.evidence = field.evidence

variable (u) in
/-- A field is within the limits of a normalized specification. -/
abbrev SpecificationFits (definition : SpecificationDefinition)
    (field : ExtractedField RawSpecification) : Prop :=
  Bounded 500 definition.canonicalLabel ∧ Bounded 10000
    (String.ofList (normalizeValue u field.value.value.1.toList definition.valueKind).value)

theorem specification_passes {definition : SpecificationDefinition}
    {field : ExtractedField RawSpecification} :
    Passes (specification u definition field) (SpecificationFits u definition field)
      fun item => Records u definition field item := by
  have hregular := normalizeValue_regular (u := u) field.value.value.1.toList definition.valueKind
  refine ((traceValue_passes hregular.1).bind fun trace htrace =>
    Passes.bind_demand fun hlabel => (unitText_passes hregular.2).bind fun unit _ =>
      Passes.pure ⟨rfl, rfl, htrace.1, htrace.2.1, htrace.2.2, rfl⟩).congr ?_
  rw [true_and, and_true, TextFits, SpecificationFits, and_iff_right field.value.value.2, and_comm]

/-- An identifier that records a field. -/
structure Identifies (u : Unicode) (field : ExtractedField Identifier)
    (item : NormalizedIdentifier) : Prop where
  kind : item.kind = field.value.kind
  original : item.trace.originalValue.1 = field.value.value
  value : item.trace.normalizedValue.1 =
    String.ofList (normalizePartNumber u field.value.value.toList).value
  evidence : item.evidence = field.evidence

theorem identifier_passes {field : ExtractedField Identifier} :
    Passes (identifier u field)
      (TextFits field.value.value (normalizePartNumber u field.value.value.toList))
      fun item => Identifies u field item := by
  refine ((traceValue_passes (normalizePartNumber_regular _).1).bind fun trace htrace => ?_).congr
    (and_iff_left trivial)
  exact Passes.pure ⟨rfl, htrace.1, htrace.2.2, rfl⟩

/-! ## Placing specifications -/

section Placing

variable (u) (registry) (profile : NormalizationProfile)

/-- The registry has a definition for a field. -/
def isMapped (field : ExtractedField RawSpecification) : Bool :=
  (registry.resolve u field.value.label.1 profile).isSome

/-- A field that is read for interfaces. -/
def interfaceReadings (field : ExtractedField RawSpecification) : List Reading :=
  match registry.resolve u field.value.label.1 profile with
  | none => []
  | some definition => if definition.valueKind = .interface then [readSpecification field] else []

/-- A specification that records a field under its definition. -/
def RecordsField (field : ExtractedField RawSpecification) (item : NormalizedSpecification) : Prop :=
  ∃ definition, registry.resolve u field.value.label.1 profile = some definition ∧
    Records u definition field item

/-- An unmapped specification that keeps a field. -/
structure Keeps (field : ExtractedField RawSpecification) (item : UnmappedSpecification) : Prop where
  label : item.originalLabel = field.value.label
  value : item.originalValue = field.value.value
  raw : item.rawValue = field.rawValue
  evidence : item.evidence = field.evidence

/-- All terms of a reading are within their limits. -/
abbrev ReadingFits (reading : Reading) : Prop :=
  ∀ term ∈ knownTerms u reading ++ unknownTerms u reading, TextFits term.1.original term.2

/-- A field can be placed. -/
structure FieldFits (field : ExtractedField RawSpecification) : Prop where
  mapped : ∀ definition, registry.resolve u field.value.label.1 profile = some definition →
    SpecificationFits u definition field
  interfaces : ∀ reading ∈ interfaceReadings u registry profile field, ReadingFits u reading

/-- What a field adds. -/
structure Placed.Of (field : ExtractedField RawSpecification) (placed : Placed) : Prop where
  mapped : List.Forall₂ (RecordsField u registry profile)
    ([field].filter (isMapped u registry profile)) placed.mapped
  unmapped : List.Forall₂ Keeps ([field].filter fun field => !isMapped u registry profile field)
    placed.unmapped
  known : List.Forall₂ (Tells interfacePath.1)
    ((interfaceReadings u registry profile field).flatMap (knownTerms u)) placed.interfaces.known
  unknown : List.Forall₂ (Tells unmappedPath.1)
    ((interfaceReadings u registry profile field).flatMap (unknownTerms u))
    placed.interfaces.unknown

variable {u registry profile} {field : ExtractedField RawSpecification}

theorem place_passes : Passes (place u registry profile field) (FieldFits u registry profile field)
    fun placed => placed.Of u registry profile field := by
  unfold place
  cases hresolve : registry.resolve u field.value.label.1 profile with
  | none =>
    have hmapped : isMapped u registry profile field = false := by simp [isMapped, hresolve]
    have hreadings : interfaceReadings u registry profile field = [] := by
      simp [interfaceReadings, hresolve]
    have hplaced : Placed.Of u registry profile field { unmapped := [keepUnmapped field] } := by
      refine ⟨?_, ?_, ?_, ?_⟩
      · simp [hmapped]
      · simpa [hmapped] using Keeps.mk rfl rfl rfl rfl
      · simp [hreadings]
      · simp [hreadings]
    refine (Passes.pure hplaced).congr (iff_of_true trivial ⟨fun definition h => ?_, ?_⟩)
    · rw [hresolve] at h
      cases h
    · simp [hreadings]
  | some definition =>
    have hmapped : isMapped u registry profile field = true := by simp [isMapped, hresolve]
    have hfits : FieldFits u registry profile field ↔ SpecificationFits u definition field ∧
        ∀ reading ∈ interfaceReadings u registry profile field, ReadingFits u reading := by
      refine ⟨fun h => ⟨h.mapped definition hresolve, h.interfaces⟩,
        fun h => ⟨fun other hother => ?_, h.2⟩⟩
      rw [hresolve] at hother
      exact Option.some.inj hother ▸ h.1
    have hrecords : ∀ item, Records u definition field item →
        List.Forall₂ (RecordsField u registry profile)
          ([field].filter (isMapped u registry profile)) [item] := by
      intro item hitem
      simpa [hmapped] using ⟨definition, hresolve, hitem⟩
    rw [hfits]
    refine specification_passes.bind fun item hitem => ?_
    by_cases hkind : definition.valueKind = .interface
    · have hreadings : interfaceReadings u registry profile field = [readSpecification field] := by
        simp [interfaceReadings, hresolve, hkind]
      rw [if_pos hkind]
      refine (addInterfaces_passes.bind fun added hadded => Passes.pure ?_).congr ?_
      · refine ⟨hrecords item hitem, by simp [hmapped], ?_, ?_⟩
        · simpa [hreadings] using hadded.known
        · simpa [hreadings] using hadded.unknown
      · rw [and_true, hreadings, List.forall_mem_singleton]
    · have hreadings : interfaceReadings u registry profile field = [] := by
        simp [interfaceReadings, hresolve, hkind]
      rw [if_neg hkind]
      refine (Passes.pure ?_).congr (by simp [hreadings])
      exact ⟨hrecords item hitem, by simp [hmapped], by simp [hreadings], by simp [hreadings]⟩

end Placing

/-! ## Lists without repetition -/

section Unique

variable {α : Type} [DecidableEq α] {xs : List α} {x : α}

theorem mem_uniqueBy_id : x ∈ uniqueBy id xs ↔ x ∈ xs := by
  refine ⟨mem_of_mem_uniqueBy, fun h => ?_⟩
  obtain ⟨y, hy, hkey⟩ : ∃ y ∈ uniqueBy id xs, id y = id x := exists_mem_uniqueBy h
  have hkey : y = x := hkey
  exact hkey ▸ hy

theorem nodup_uniqueBy_id (xs : List α) : (uniqueBy id xs).Nodup := by
  induction xs with
  | nil => exact List.nodup_nil
  | cons x xs ih =>
    refine List.nodup_cons.mpr ⟨fun h => ?_, ih.filter _⟩
    simpa using (List.mem_filter.mp h).2

/-- A list has two different elements iff two are left of it. -/
theorem two_le_uniqueBy : 2 ≤ (uniqueBy id xs).length ↔ ∃ x ∈ xs, ∃ y ∈ xs, x ≠ y := by
  constructor
  · intro h
    have hnodup := nodup_uniqueBy_id xs
    have hmem : ∀ y ∈ uniqueBy id xs, y ∈ xs := fun y => mem_uniqueBy_id.mp
    generalize uniqueBy id xs = ys at h hnodup hmem
    match ys, h with
    | x :: y :: ys, _ =>
      rw [List.forall_mem_cons, List.forall_mem_cons] at hmem
      refine ⟨x, hmem.1, y, hmem.2.1, ?_⟩
      rintro rfl
      exact (List.nodup_cons.mp hnodup).1 List.mem_cons_self
  · rintro ⟨x, hx, y, hy, hne⟩
    have hx' := mem_uniqueBy_id.mpr hx
    have hy' := mem_uniqueBy_id.mpr hy
    by_contra hlt
    generalize uniqueBy id xs = ys at hx' hy' hlt
    match ys, hlt with
    | [], _ => cases hx'
    | [z], _ => exact hne ((List.mem_singleton.mp hx').trans (List.mem_singleton.mp hy').symm)
    | _ :: _ :: ys, hlt => exact hlt (Nat.le_add_left _ _)

end Unique

/-! ## Merged facts -/

/-- Facts that tell these terms: one for each value, with the evidence of all that have it. -/
structure Merged (terms : List Term) (facts : List NormalizedTextFact) : Prop where
  distinct : (facts.map (·.trace.normalizedValue.1)).Nodup
  values : ∀ value, value ∈ facts.map (·.trace.normalizedValue.1) ↔ value ∈ terms.map Term.value
  evidence : ∀ fact ∈ facts, ∀ item, item ∈ fact.evidence ↔
    ∃ term ∈ terms, term.value = fact.trace.normalizedValue.1 ∧ item ∈ term.1.evidence

theorem mem_joinEvidence {existing fact : NormalizedTextFact} {item : EvidenceFragment} :
    item ∈ (joinEvidence existing fact).evidence ↔
      item ∈ existing.evidence ∨ item ∈ fact.evidence :=
  mem_uniqueBy_id.trans List.mem_append

/-- **Merging loses no evidence and leaves one fact for each value.** -/
theorem mergeTextFacts_merged {path : String} {terms : List Term}
    {facts : List NormalizedTextFact} (h : List.Forall₂ (Tells path) terms facts) :
    Merged terms (mergeTextFacts facts) := by
  have hkey : ∀ a b, factKey (joinEvidence a b) = factKey a := fun _ _ => rfl
  have hpath : ∀ fact ∈ mergeTextFacts facts, fact.semanticPath = path := by
    intro fact hfact
    obtain ⟨first, hfirst, heq⟩ := List.mem_map.mp
      ((mem_keys_merge hkey).mp (List.mem_map.mpr ⟨fact, hfact, rfl⟩))
    obtain ⟨term, -, htells⟩ := Passes.exists_of_mem h hfirst
    exact (congrArg Prod.fst heq).symm.trans htells.path
  have hkeys : (mergeTextFacts facts).map factKey =
      ((mergeTextFacts facts).map (·.trace.normalizedValue.1)).map (Prod.mk path) := by
    rw [List.map_map]
    refine List.map_congr_left fun fact hfact => ?_
    rw [factKey, hpath fact hfact]
    rfl
  have hdistinct : ((mergeTextFacts facts).map factKey).Nodup := nodup_merge hkey facts
  -- what is said of a value, told of the terms
  have hterms : ∀ (value : String) (holds : List EvidenceFragment → Prop),
      (∃ fact ∈ facts, factKey fact = (path, value) ∧ holds fact.evidence) ↔
        ∃ term ∈ terms, term.value = value ∧ holds term.1.evidence := by
    intro value holds
    constructor
    · rintro ⟨fact, hfact, heq, hholds⟩
      obtain ⟨term, hterm, htells⟩ := Passes.exists_of_mem h hfact
      exact ⟨term, hterm, htells.value.symm.trans (congrArg Prod.snd heq), htells.evidence ▸ hholds⟩
    · rintro ⟨term, hterm, heq, hholds⟩
      obtain ⟨fact, hfact, htells⟩ := Passes.exists_of_mem' h hterm
      exact ⟨fact, hfact, Prod.ext htells.path (htells.value.trans heq),
        htells.evidence.symm ▸ hholds⟩
  refine ⟨?_, fun value => ?_, fun fact hfact item => ?_⟩
  · rw [hkeys] at hdistinct
    exact hdistinct.of_map _
  · have hvalue : (∃ fact ∈ facts, factKey fact = (path, value)) ↔ value ∈ terms.map Term.value := by
      simpa using hterms value fun _ => True
    have hmem : (path, value) ∈ (mergeTextFacts facts).map factKey ↔
        (path, value) ∈ facts.map factKey := mem_keys_merge hkey
    rw [← hvalue, ← List.mem_map, ← hmem, hkeys,
      List.mem_map_of_injective (Prod.mk_right_injective path)]
  · have hiff : (∃ m ∈ mergeTextFacts facts, factKey m = factKey fact ∧ item ∈ m.evidence) ↔
        ∃ a ∈ facts, factKey a = factKey fact ∧ item ∈ a.evidence :=
      exists_merge_iff (fun (fact : NormalizedTextFact) item => item ∈ fact.evidence) hkey
        fun _ _ _ _ => mem_joinEvidence
    rw [factKey, hpath fact hfact, hterms _ (item ∈ ·)] at hiff
    rw [← hiff]
    constructor
    · intro hitem
      refine ⟨fact, hfact, ?_, hitem⟩
      rw [factKey, hpath fact hfact]
    · rintro ⟨other, hother, heq, hitem⟩
      have hsame : factKey other = factKey fact := by
        rw [heq, factKey, hpath fact hfact]
      rwa [List.inj_on_of_nodup_map hdistinct hother hfact hsame] at hitem

/-! ## Conflicts -/

/-- The specifications of one path. -/
def group (specifications : List NormalizedSpecification) (path : String) :
    List NormalizedSpecification :=
  specifications.filter fun item => item.taxonomyPath = path

/-- `_conflicts` reports these. -/
abbrev Contested (candidates : List NormalizedSpecification) : Prop :=
  2 ≤ (valuesOf candidates).length ∧ 2 ≤ (sectionsOf candidates).length

/-- A conflict that reports these. -/
structure Reports (path : String) (candidates : List NormalizedSpecification)
    (conflict : NormalizationConflict) : Prop where
  path : conflict.taxonomyPath = path
  values : conflict.normalizedValues = valuesOf candidates
  evidence : ∀ item, item ∈ conflict.evidence ↔
    ∃ candidate ∈ candidates, item ∈ candidate.evidence

theorem conflictOf_passes {path : String} (candidates : List NormalizedSpecification)
    (hpath : isTaxonomyPath path = true) : Passes (conflictOf path candidates) True fun found =>
      (found = none ∧ ¬ Contested candidates) ∨
        ∃ conflict, found = some conflict ∧ Contested candidates ∧
          Reports path candidates conflict := by
  unfold conflictOf
  by_cases hcontested : Contested candidates
  · have hif : ¬ ((valuesOf candidates).length < 2 ∨ (sectionsOf candidates).length < 2) := by
      omega
    rw [if_neg hif]
    have hvalues : (valuesOf candidates).dedup = valuesOf candidates :=
      (nodup_uniqueBy_id _).dedup
    have hevidence : uniqueBy id (candidates.flatMap (·.evidence)) ≠ [] := by
      obtain ⟨value, hvalue, -⟩ := two_le_uniqueBy.mp hcontested.1
      obtain ⟨item, hitem, -⟩ := List.mem_map.mp hvalue
      obtain ⟨fragment, hfragment⟩ := List.exists_mem_of_ne_nil _ item.evidenced
      exact List.ne_nil_of_mem
        (mem_uniqueBy_id.mpr (List.mem_flatMap.mpr ⟨item, hitem, hfragment⟩))
    refine Passes.congr (Passes.bind (P := True) (Q := Reports path candidates) ?_
      fun conflict hreports => Passes.pure (.inr ⟨conflict, rfl, hcontested, hreports⟩))
      and_self_iff
    refine Passes.bind_met hpath ?_
    refine Passes.bind_met (hvalues.symm ▸ hcontested.1) ?_
    refine Passes.bind_met hevidence ?_
    exact Passes.pure ⟨rfl, rfl, fun item => mem_uniqueBy_id.trans List.mem_flatMap⟩
  · have hif : (valuesOf candidates).length < 2 ∨ (sectionsOf candidates).length < 2 := by
      unfold Contested at hcontested
      omega
    rw [if_pos hif]
    exact Passes.pure (.inl ⟨rfl, hcontested⟩)

/-- The conflicts of these specifications: one for each path that is contested. -/
structure Reported (specifications : List NormalizedSpecification)
    (conflicts : List NormalizationConflict) : Prop where
  paths : conflicts.map (·.taxonomyPath) = (uniqueBy id (specifications.map (·.taxonomyPath))).filter
    fun path => Contested (group specifications path)
  reports : ∀ conflict ∈ conflicts,
    Reports conflict.taxonomyPath (group specifications conflict.taxonomyPath) conflict

theorem conflictsOf_passes {specifications : List NormalizedSpecification} :
    Passes (conflictsOf specifications) True fun conflicts => Reported specifications conflicts := by
  have hpath : ∀ path ∈ uniqueBy id (specifications.map (·.taxonomyPath)),
      isTaxonomyPath path = true := by
    intro path hmem
    obtain ⟨item, -, rfl⟩ := List.mem_map.mp (mem_uniqueBy_id.mp hmem)
    exact item.pathed
  refine ((Passes.mapM fun path hmem => conflictOf_passes (group specifications path)
    (hpath path hmem)).bind fun found hfound => Passes.pure ?_).congr (by simp)
  generalize hpaths : uniqueBy id (specifications.map (·.taxonomyPath)) = paths at hfound
  suffices h : found.reduceOption.map (·.taxonomyPath) = paths.filter
      (fun path => Contested (group specifications path)) ∧
      ∀ conflict ∈ found.reduceOption,
        Reports conflict.taxonomyPath (group specifications conflict.taxonomyPath) conflict from
    ⟨hpaths ▸ h.1, h.2⟩
  clear hpaths hpath
  induction hfound with
  | nil => exact ⟨rfl, fun _ h => by cases h⟩
  | @cons path conflict paths found hconflict _ ih =>
    obtain ⟨ihpaths, ihreports⟩ := ih
    rcases hconflict with ⟨rfl, hnot⟩ | ⟨conflict, rfl, hcontested, hreports⟩
    · rw [List.reduceOption_cons_of_none, List.filter_cons_of_neg (by simpa using hnot)]
      exact ⟨ihpaths, ihreports⟩
    · rw [List.reduceOption_cons_of_some, List.filter_cons_of_pos (by simpa using hcontested),
        List.map_cons, ihpaths, hreports.path, List.forall_mem_cons]
      refine ⟨rfl, ?_, ihreports⟩
      rw [hreports.path]
      exact hreports

/-- Two specifications of a path have different values, with evidence from different sections. -/
def Competes (specifications : List NormalizedSpecification) (path : String) : Prop :=
  ∃ a ∈ specifications, ∃ b ∈ specifications, a.taxonomyPath = path ∧ b.taxonomyPath = path ∧
    a.trace.normalizedValue.1 ≠ b.trace.normalizedValue.1 ∧
      ∃ e ∈ a.evidence, ∃ f ∈ b.evidence, e.«section» ≠ f.«section»

/-- **Two values from different sections compete iff there are two values and two sections**, when
all evidence names its section. -/
theorem competes_iff {specifications : List NormalizedSpecification} {path : String}
    (hsections : ∀ item ∈ specifications, ∀ e ∈ item.evidence, e.«section» ≠ none) :
    Competes specifications path ↔ Contested (group specifications path) := by
  have hgroup : ∀ item, item ∈ group specifications path ↔
      item ∈ specifications ∧ item.taxonomyPath = path := by
    intro item
    rw [group, List.mem_filter, decide_eq_true_eq]
  have hsection : ∀ text, text ∈ ((group specifications path).flatMap (·.evidence)).filterMap
      (·.«section») ↔ ∃ item ∈ group specifications path, ∃ e ∈ item.evidence,
        e.«section» = some text := by
    intro text
    simp only [List.mem_filterMap, List.mem_flatMap]
    tauto
  constructor
  · rintro ⟨a, ha, b, hb, hapath, hbpath, hne, e, he, f, hf, hother⟩
    have ha' := (hgroup a).mpr ⟨ha, hapath⟩
    have hb' := (hgroup b).mpr ⟨hb, hbpath⟩
    obtain ⟨s, hs⟩ := Option.ne_none_iff_exists'.mp (hsections a ha e he)
    obtain ⟨t, ht⟩ := Option.ne_none_iff_exists'.mp (hsections b hb f hf)
    refine ⟨two_le_uniqueBy.mpr ⟨_, List.mem_map_of_mem ha', _, List.mem_map_of_mem hb', hne⟩,
      two_le_uniqueBy.mpr ⟨s, (hsection s).mpr ⟨a, ha', e, he, hs⟩, t,
        (hsection t).mpr ⟨b, hb', f, hf, ht⟩, ?_⟩⟩
    rintro rfl
    exact hother (hs.trans ht.symm)
  · rintro ⟨hvalues, htexts⟩
    obtain ⟨_, hv, _, hw, hne⟩ := two_le_uniqueBy.mp hvalues
    obtain ⟨a, ha, rfl⟩ := List.mem_map.mp hv
    obtain ⟨b, hb, rfl⟩ := List.mem_map.mp hw
    obtain ⟨s, hs, t, ht, hst⟩ := two_le_uniqueBy.mp htexts
    obtain ⟨e, he⟩ := List.exists_mem_of_ne_nil _ a.evidenced
    obtain ⟨f, hf⟩ := List.exists_mem_of_ne_nil _ b.evidenced
    -- some specification has evidence from another section than that of `a`
    obtain ⟨c, hc, d, hd, hother⟩ : ∃ c ∈ group specifications path, ∃ d ∈ c.evidence,
        d.«section» ≠ e.«section» := by
      obtain ⟨c, hc, d, hd, hs⟩ := (hsection s).mp hs
      obtain ⟨c', hc', d', hd', ht⟩ := (hsection t).mp ht
      by_cases hsame : d.«section» = e.«section»
      · refine ⟨c', hc', d', hd', fun h => hst ?_⟩
        exact Option.some.inj (hs.symm.trans (hsame.trans (h.symm.trans ht)))
      · exact ⟨c, hc, d, hd, hsame⟩
    obtain ⟨ha, hapath⟩ := (hgroup a).mp ha
    obtain ⟨hb, hbpath⟩ := (hgroup b).mp hb
    obtain ⟨hc, hcpath⟩ := (hgroup c).mp hc
    by_cases hca : c.trace.normalizedValue.1 = a.trace.normalizedValue.1
    · by_cases hfe : f.«section» = e.«section»
      · exact ⟨c, hc, b, hb, hcpath, hbpath, hca ▸ hne, d, hd, f, hf, hfe ▸ hother⟩
      · exact ⟨a, ha, b, hb, hapath, hbpath, hne, e, he, f, hf, Ne.symm hfe⟩
    · exact ⟨c, hc, a, ha, hcpath, hapath, hca, d, hd, e, he, hother⟩

/-! ## The facts of a page -/

section Page

variable (u) (registry) (facts : ExtractedFacts)

/-- The fields of a page that are read for interfaces. -/
def pageReadings : List Reading :=
  facts.specifications.flatMap (interfaceReadings u registry (profileOf u facts)) ++
    facts.interfaceFacts.map readText

def manufacturerTerms : List Term :=
  facts.manufacturerCandidates.map fun field =>
    (readText field, normalizeManufacturer u field.value.1.toList)

/-- Normalized facts conserve those of a page. -/
structure Conserves (normalized : NormalizedFacts) : Prop where
  specifications : List.Forall₂ (RecordsField u registry (profileOf u facts))
    (facts.specifications.filter (isMapped u registry (profileOf u facts)))
    normalized.specifications
  unmapped : List.Forall₂ Keeps
    (facts.specifications.filter fun field => !isMapped u registry (profileOf u facts) field)
    normalized.unmappedSpecifications
  interfaces : Merged ((pageReadings u registry facts).flatMap (knownTerms u)) normalized.interfaces
  unmappedInterfaces : Merged ((pageReadings u registry facts).flatMap (unknownTerms u))
    normalized.unmappedInterfaces
  manufacturers : Merged (manufacturerTerms u facts) normalized.manufacturers
  identifiers : List.Forall₂ (Identifies u) facts.identifiers normalized.identifiers
  primaryIcs : List.Forall₂ (Identifies u) facts.primaryIcCandidates normalized.primaryIcs
  conflicts : ∀ path, (∃ conflict ∈ normalized.conflicts, conflict.taxonomyPath = path) ↔
    Competes normalized.specifications path
  once : (normalized.conflicts.map (·.taxonomyPath)).Nodup

/-- The texts of a page, and what they are normalized to, are within their limits. -/
structure Fits : Prop where
  specifications : ∀ field ∈ facts.specifications, FieldFits u registry (profileOf u facts) field
  interfaces : ∀ field ∈ facts.interfaceFacts, ReadingFits u (readText field)
  manufacturers : ∀ field ∈ facts.manufacturerCandidates,
    TextFits field.value.1 (normalizeManufacturer u field.value.1.toList)
  identifiers : ∀ field ∈ facts.identifiers,
    TextFits field.value.value (normalizePartNumber u field.value.value.toList)
  primaryIcs : ∀ field ∈ facts.primaryIcCandidates,
    TextFits field.value.value (normalizePartNumber u field.value.value.toList)

variable {u registry facts}

/-- What is made of fields from one source is from that source. -/
theorem from_related {α β : Type} {T : α → β → Prop} {xs : List α} {bs : List β}
    {source : SourceReference} {evidence : α → List EvidenceFragment}
    {kept : β → List EvidenceFragment} (h : List.Forall₂ T xs bs)
    (hkept : ∀ a b, T a b → kept b = evidence a) (hfrom : ∀ a ∈ xs, From source (evidence a)) :
    From source (bs.flatMap kept) := by
  intro item hitem
  obtain ⟨b, hb, hitem⟩ := List.mem_flatMap.mp hitem
  obtain ⟨a, ha, htold⟩ := Passes.exists_of_mem h hb
  exact hfrom a ha item (hkept a b htold ▸ hitem)

theorem from_merged {terms : List Term} {merged : List NormalizedTextFact}
    {source : SourceReference} (h : Merged terms merged)
    (hfrom : ∀ term ∈ terms, From source term.1.evidence) :
    From source (merged.flatMap (·.evidence)) := by
  intro item hitem
  obtain ⟨fact, hfact, hitem⟩ := List.mem_flatMap.mp hitem
  obtain ⟨term, hterm, -, hitem⟩ := (h.evidence fact hfact item).mp hitem
  exact hfrom term hterm item hitem

theorem from_reported {specifications : List NormalizedSpecification}
    {conflicts : List NormalizationConflict} {source : SourceReference}
    (h : Reported specifications conflicts)
    (hfrom : From source (specifications.flatMap (·.evidence))) :
    From source (conflicts.flatMap (·.evidence)) := by
  intro item hitem
  obtain ⟨conflict, hconflict, hitem⟩ := List.mem_flatMap.mp hitem
  obtain ⟨candidate, hcandidate, hitem⟩ := ((h.reports conflict hconflict).evidence item).mp hitem
  exact hfrom item (List.mem_flatMap.mpr ⟨candidate, (List.mem_filter.mp hcandidate).1, hitem⟩)

/-- Every field of a page is from its source. -/
theorem from_page {source : SourceReference} (h : facts.artifact.source = source) :
    (∀ field ∈ facts.specifications, From source field.evidence) ∧
      (∀ field ∈ facts.interfaceFacts, From source field.evidence) ∧
      (∀ field ∈ facts.manufacturerCandidates, From source field.evidence) ∧
      (∀ field ∈ facts.identifiers, From source field.evidence) ∧
      ∀ field ∈ facts.primaryIcCandidates, From source field.evidence := by
  subst h
  have hsourced := facts.sourced
  simp only [List.forall_mem_append] at hsourced
  obtain ⟨⟨⟨⟨⟨⟨⟨⟨⟨⟨⟨-, hidentifiers⟩, hmanufacturers⟩, -⟩, hinterfaces⟩, -⟩, hprimary⟩,
    hspecifications⟩, -⟩, -⟩, -⟩, -⟩ := hsourced
  refine ⟨?_, ?_, ?_, ?_, ?_⟩
  · exact fun field hfield item hitem =>
      hspecifications item (List.mem_flatMap.mpr ⟨field, hfield, hitem⟩)
  · exact fun field hfield item hitem =>
      hinterfaces item (List.mem_flatMap.mpr ⟨field, hfield, hitem⟩)
  · exact fun field hfield item hitem =>
      hmanufacturers item (List.mem_flatMap.mpr ⟨field, hfield, hitem⟩)
  · exact fun field hfield item hitem =>
      hidentifiers item (List.mem_flatMap.mpr ⟨field, hfield, hitem⟩)
  · exact fun field hfield item hitem =>
      hprimary item (List.mem_flatMap.mpr ⟨field, hfield, hitem⟩)

theorem from_readings {source : SourceReference} (h : facts.artifact.source = source) :
    ∀ reading ∈ pageReadings u registry facts, From source reading.evidence := by
  obtain ⟨hspecifications, hinterfaces, -⟩ := from_page h
  intro reading hreading
  rcases List.mem_append.mp hreading with hreading | hreading
  · obtain ⟨field, hfield, hreading⟩ := List.mem_flatMap.mp hreading
    unfold interfaceReadings at hreading
    split at hreading
    · cases hreading
    · split at hreading
      · rw [List.mem_singleton.mp hreading]
        exact hspecifications field hfield
      · cases hreading
  · obtain ⟨field, hfield, rfl⟩ := List.mem_map.mp hreading
    exact hinterfaces field hfield

/-- The terms of a reading are terms of it. -/
theorem reading_of_term {reading : Reading} {term : Term}
    (h : term ∈ knownTerms u reading ∨ term ∈ unknownTerms u reading) : term.1 = reading := by
  rcases h with h | h
  · obtain ⟨value, -, rfl⟩ := List.mem_map.mp h
    rfl
  · unfold unknownTerms at h
    split at h
    · rw [List.mem_singleton.mp h]
    · cases h

/-- Every reading has a term. -/
theorem exists_term (reading : Reading) :
    ∃ term, term ∈ knownTerms u reading ++ unknownTerms u reading := by
  unfold knownTerms unknownTerms
  cases h : normalizeInterface u reading.original.toList with
  | nil => exact ⟨_, List.mem_append_right _ List.mem_cons_self⟩
  | cons value rest => exact ⟨_, List.mem_append_left _ List.mem_cons_self⟩

theorem from_terms {source : SourceReference} {terms : Reading → List Term}
    (h : facts.artifact.source = source)
    (hterms : ∀ reading, ∀ term ∈ terms reading, term.1 = reading) :
    ∀ term ∈ (pageReadings u registry facts).flatMap terms, From source term.1.evidence := by
  intro term hterm
  obtain ⟨reading, hreading, hterm⟩ := List.mem_flatMap.mp hterm
  rw [hterms reading term hterm]
  exact from_readings h reading hreading

theorem warningsOf_valid {unmapped : List UnmappedSpecification}
    {unknown : List NormalizedTextFact} {conflicts : List NormalizationConflict} :
    (∀ warning ∈ warningsOf unmapped unknown conflicts, warning ≠ "" ∧ warning.length ≤ 160) ∧
      (warningsOf unmapped unknown conflicts).Nodup := by
  unfold warningsOf
  split <;> split <;> split <;> decide

end Page

/-! ## The normalizer -/

section Normalizer

variable {facts : ExtractedFacts}

/-- What the parts of a page add, one after the other. -/
theorem forall₂_flatMap {α β γ δ : Type} {T : α → β → Prop} {S : γ → δ → Prop} {f : α → List γ}
    {g : β → List δ} {xs : List α} {ys : List β} (h : List.Forall₂ T xs ys)
    (hparts : ∀ a b, T a b → List.Forall₂ S (f a) (g b)) :
    List.Forall₂ S (xs.flatMap f) (ys.flatMap g) := by
  induction h with
  | nil => exact .nil
  | cons hab _ ih =>
    rw [List.flatMap_cons, List.flatMap_cons]
    exact List.rel_append (hparts _ _ hab) ih

theorem filter_eq_flatMap {α : Type} (p : α → Bool) (xs : List α) :
    xs.filter p = xs.flatMap fun x => [x].filter p := by
  induction xs with
  | nil => rfl
  | cons x xs ih =>
    rw [List.flatMap_cons, ← ih]
    by_cases hx : p x = true
    · rw [List.filter_cons_of_pos hx, List.filter_cons_of_pos hx, List.filter_nil]
      rfl
    · rw [List.filter_cons_of_neg hx, List.filter_cons_of_neg hx, List.filter_nil]
      rfl

theorem normalizeFacts_passes
    (hsections : ∀ field ∈ facts.specifications, ∀ e ∈ field.evidence, e.«section» ≠ none) :
    Passes (normalizeFacts u registry facts) (Fits u registry facts) fun normalized =>
      Conserves u registry facts normalized := by
  have hfits : Fits u registry facts ↔
      (∀ field ∈ facts.specifications, FieldFits u registry (profileOf u facts) field) ∧
      (∀ field ∈ facts.interfaceFacts, ReadingFits u (readText field)) ∧
      (∀ field ∈ facts.manufacturerCandidates,
        TextFits field.value.1 (normalizeManufacturer u field.value.1.toList)) ∧
      True ∧
      (∀ field ∈ facts.identifiers,
        TextFits field.value.value (normalizePartNumber u field.value.value.toList)) ∧
      (∀ field ∈ facts.primaryIcCandidates,
        TextFits field.value.value (normalizePartNumber u field.value.value.toList)) ∧ True := by
    constructor
    · rintro ⟨hspecifications, hinterfaces, hmanufacturers, hidentifiers, hprimaryIcs⟩
      exact ⟨hspecifications, hinterfaces, hmanufacturers, trivial, hidentifiers, hprimaryIcs,
        trivial⟩
    · rintro ⟨hspecifications, hinterfaces, hmanufacturers, -, hidentifiers, hprimaryIcs, -⟩
      exact ⟨hspecifications, hinterfaces, hmanufacturers, hidentifiers, hprimaryIcs⟩
  rw [hfits]
  refine (Passes.mapM fun field _ => place_passes).bind fun placed hplaced => ?_
  refine (Passes.mapM fun field _ => addInterfaces_passes).bind fun stated hstated => ?_
  refine (Passes.mapM (T := fun (field : ExtractedField Text) fact =>
    Tells manufacturerPath.1 (readText field, normalizeManufacturer u field.value.1.toList) fact)
    fun field _ => textFact_passes (readText field, _) (normalizeManufacturer_regular _)).bind fun named hnamed => ?_
  refine conflictsOf_passes.bind fun conflicts hconflicts => ?_
  refine (Passes.mapM fun field _ => identifier_passes).bind fun identifiers hidentifiers => ?_
  refine (Passes.mapM fun field _ => identifier_passes).bind fun primaryIcs hprimaryIcs => ?_
  -- what was placed and stated, together
  have hmapped : List.Forall₂ (RecordsField u registry (profileOf u facts))
      (facts.specifications.filter (isMapped u registry (profileOf u facts)))
      (placed.flatMap (·.mapped)) := by
    rw [filter_eq_flatMap]
    exact forall₂_flatMap hplaced fun _ _ h => h.mapped
  have hunmapped : List.Forall₂ Keeps
      (facts.specifications.filter fun field => !isMapped u registry (profileOf u facts) field)
      (placed.flatMap (·.unmapped)) := by
    rw [filter_eq_flatMap]
    exact forall₂_flatMap hplaced fun _ _ h => h.unmapped
  have hknown : List.Forall₂ (Tells interfacePath.1)
      ((pageReadings u registry facts).flatMap (knownTerms u))
      ((placed.map (·.interfaces) ++ stated).flatMap (·.known)) := by
    rw [pageReadings, List.flatMap_append, List.flatMap_append, List.flatMap_assoc,
      List.flatMap_map, List.flatMap_map]
    exact List.rel_append (forall₂_flatMap hplaced fun _ _ h => h.known)
      (forall₂_flatMap hstated fun _ _ h => h.known)
  have hunknown : List.Forall₂ (Tells unmappedPath.1)
      ((pageReadings u registry facts).flatMap (unknownTerms u))
      ((placed.map (·.interfaces) ++ stated).flatMap (·.unknown)) := by
    rw [pageReadings, List.flatMap_append, List.flatMap_append, List.flatMap_assoc,
      List.flatMap_map, List.flatMap_map]
    exact List.rel_append (forall₂_flatMap hplaced fun _ _ h => h.unknown)
      (forall₂_flatMap hstated fun _ _ h => h.unknown)
  have hnamed : List.Forall₂ (Tells manufacturerPath.1) (manufacturerTerms u facts) named :=
    List.forall₂_map_left_iff.mpr hnamed
  have hinterfaces := mergeTextFacts_merged hknown
  have hunknown := mergeTextFacts_merged hunknown
  have hmanufacturers := mergeTextFacts_merged hnamed
  -- all of it is from the source of the page
  obtain ⟨hpage, -, hmakers, hidentified, hprimary⟩ := @from_page facts _ rfl
  have hsourced : From facts.artifact.source ((placed.flatMap (·.mapped)).flatMap (·.evidence)) :=
    from_related hmapped (fun _ _ ⟨_, _, h⟩ => h.evidence)
      fun field hfield => hpage field (List.mem_filter.mp hfield).1
  refine Passes.bind_met ?_ (Passes.bind_met warningsOf_valid.1
    (Passes.bind_met warningsOf_valid.2 (Passes.pure ?_)))
  · simp only [List.forall_mem_append]
    refine ⟨⟨⟨⟨⟨⟨⟨hsourced, ?_⟩, ?_⟩, ?_⟩, ?_⟩, ?_⟩, ?_⟩, from_reported hconflicts hsourced⟩
    · exact from_related hunmapped (fun _ _ h => h.evidence)
        fun field hfield => hpage field (List.mem_filter.mp hfield).1
    · exact from_merged hinterfaces (from_terms rfl fun _ _ h => reading_of_term (.inl h))
    · exact from_merged hunknown (from_terms rfl fun _ _ h => reading_of_term (.inr h))
    · refine from_merged hmanufacturers fun term hterm => ?_
      obtain ⟨field, hfield, rfl⟩ := List.mem_map.mp hterm
      exact hmakers field hfield
    · exact from_related hidentifiers (fun _ _ h => h.evidence) hidentified
    · exact from_related hprimaryIcs (fun _ _ h => h.evidence) hprimary
  · have hnamedSections : ∀ item ∈ placed.flatMap (·.mapped), ∀ e ∈ item.evidence,
        e.«section» ≠ none := by
      intro item hitem e he
      obtain ⟨field, hfield, definition, -, hrecords⟩ := Passes.exists_of_mem hmapped hitem
      exact hsections field (List.mem_filter.mp hfield).1 e (hrecords.evidence ▸ he)
    refine ⟨hmapped, hunmapped, hinterfaces, hunknown, hmanufacturers, hidentifiers, hprimaryIcs,
      fun path => ?_, ?_⟩
    · rw [competes_iff hnamedSections, ← List.mem_map, hconflicts.paths, List.mem_filter,
        decide_eq_true_eq]
      refine and_iff_right_of_imp fun hcontested => mem_uniqueBy_id.mpr ?_
      obtain ⟨_, hvalue, -⟩ := two_le_uniqueBy.mp hcontested.1
      obtain ⟨item, hitem, -⟩ := List.mem_map.mp hvalue
      obtain ⟨hitem, hpath⟩ := List.mem_filter.mp hitem
      exact List.mem_map.mpr ⟨item, hitem, of_decide_eq_true hpath⟩
    · rw [hconflicts.paths]
      exact (nodup_uniqueBy_id _).filter _

/-- **The facts of a page are conserved iff its texts fit.** When the evidence of every specification
names its section, the normalizer returns facts that conserve those of the page exactly when the
texts that it records, and what they are normalized to, are within the limits of a trace. -/
theorem conserves_iff (u : Unicode) (registry : SpecificationRegistry) (facts : ExtractedFacts)
    (hsections : ∀ field ∈ facts.specifications, ∀ e ∈ field.evidence, e.«section» ≠ none) :
    (∃ normalized, normalizeFacts u registry facts = .ok normalized ∧
      Conserves u registry facts normalized) ↔ Fits u registry facts := by
  have hpasses : Passes (normalizeFacts u registry facts) (Fits u registry facts)
      (Conserves u registry facts) := normalizeFacts_passes hsections
  rw [← hpasses.returns_iff]
  constructor
  · rintro ⟨normalized, h, -⟩
    exact ⟨normalized, h⟩
  · rintro ⟨normalized, h⟩
    exact ⟨normalized, h, hpasses.result normalized h⟩

/-- The stage hands on the facts that it normalized. -/
theorem normalize_normalized {context updated : ImportPipelineContext}
    {startedAt completedAt : Time} {normalized : NormalizedFacts}
    (h : normalize u registry context facts startedAt completedAt = .ok (updated, normalized)) :
    normalizeFacts u registry facts = .ok normalized := by
  obtain ⟨⟨_⟩, -, h⟩ := bind_eq_ok.mp h
  obtain ⟨⟨_⟩, -, h⟩ := bind_eq_ok.mp h
  obtain ⟨found, hfound, h⟩ := bind_eq_ok.mp h
  obtain ⟨_, -, h⟩ := bind_eq_ok.mp h
  obtain ⟨_, -, h⟩ := bind_eq_ok.mp h
  have hsame : found = normalized := congrArg Prod.snd (Except.ok.inj h)
  exact hsame ▸ hfound

/-! ## A page with a voltage -/

def specificationEvidence : EvidenceFragment where
  source := seeedSource
  rawText := "Operating voltage: 5V"
  extractionMethod := "markdown.table"
  parserVersion := "1.0.0"
  «section» := some "Specifications"
  parsed := isVersion_first

def voltageField : ExtractedField RawSpecification where
  value := ⟨⟨"Operating voltage", by decide⟩, ⟨"5V", by decide⟩⟩
  rawValue := ⟨"5V", by decide⟩
  evidence := [specificationEvidence]

def interfaceField (text : Text) : ExtractedField Text where
  value := text
  rawValue := text
  evidence := [specificationEvidence]

/-- A page with a voltage and these texts on interfaces. -/
def voltagePage (texts : List Text) : ExtractedFacts where
  artifact := seeedArtifact
  interfaceFacts := texts.map interfaceField
  specifications := [voltageField]
  sourced := by
    intro evidence h
    have hevidence : evidence = specificationEvidence := by
      simp only [fieldEvidence, List.flatMap_nil, List.flatMap_map, List.append_nil, List.nil_append,
        List.mem_append, List.mem_flatMap, List.mem_singleton] at h
      rcases h with ⟨text, -, h⟩ | ⟨field, rfl, h⟩
      · exact List.mem_singleton.mp h
      · exact List.mem_singleton.mp h
    rw [hevidence]
    rfl

theorem voltagePage_sections (texts : List Text) : ∀ field ∈ (voltagePage texts).specifications,
    ∀ e ∈ field.evidence, e.«section» ≠ none := by
  simp [voltagePage, voltageField, specificationEvidence]

/-- Two spellings of one interface. -/
theorem conserves_iff_voltagePage :
    ∃ normalized, normalizeFacts asciiUnicode specificationRegistry
        (voltagePage [⟨"I2C bus", by decide⟩, ⟨"IIC", by decide⟩]) = .ok normalized ∧
      Conserves asciiUnicode specificationRegistry
        (voltagePage [⟨"I2C bus", by decide⟩, ⟨"IIC", by decide⟩]) normalized :=
  (conserves_iff asciiUnicode specificationRegistry _ (voltagePage_sections _)).mpr
    { specifications := by
        rintro field hfield
        obtain rfl := List.mem_singleton.mp hfield
        exact ⟨by decide +kernel, by decide +kernel⟩
      interfaces := by decide +kernel
      manufacturers := by simp [voltagePage]
      identifiers := by simp [voltagePage]
      primaryIcs := by simp [voltagePage] }

theorem length_replicate (n : Nat) : (String.ofList (List.replicate n 'a')).length = n := by
  rw [String.length_ofList, List.length_replicate]

theorem bounded_replicate {n maximum : Nat} (hpos : n ≠ 0) (hle : n ≤ maximum) :
    Bounded maximum (String.ofList (List.replicate n 'a')) := by
  refine bounded_iff.mpr ⟨⟨'a', ?_, by decide⟩, fun c hc => ?_, ?_⟩
  · simpa using hpos
  · rw [String.toList_ofList] at hc
    rw [List.eq_of_mem_replicate hc]
    decide
  · rw [length_replicate]
    exact hle

/-- A text of more than 10 000 characters. -/
def longText : Text :=
  ⟨String.ofList (List.replicate 10001 'a'), bounded_replicate (by decide) (by decide)⟩

/-- A page with a long text on interfaces is accepted, and not normalized. -/
theorem long_interface_lost :
    (∀ field ∈ (voltagePage [longText]).specifications,
      ∀ e ∈ field.evidence, e.«section» ≠ none) ∧
    ¬ ∃ normalized,
      normalizeFacts asciiUnicode specificationRegistry (voltagePage [longText]) = .ok normalized ∧
        Conserves asciiUnicode specificationRegistry (voltagePage [longText]) normalized := by
  refine ⟨voltagePage_sections _, ?_⟩
  rintro ⟨normalized, h, -⟩
  have hfits := (normalizeFacts_passes (voltagePage_sections [longText])).returns_iff.mp
    ⟨normalized, h⟩
  have hreading : ReadingFits asciiUnicode (readText (interfaceField longText)) :=
    hfits.interfaces _ (by simp [voltagePage])
  obtain ⟨term, hterm⟩ := exists_term (u := asciiUnicode) (readText (interfaceField longText))
  have hvalue : term.1.original = longText.1 := by
    rw [reading_of_term (List.mem_append.mp hterm)]
    rfl
  have hlength := (hreading term hterm).1.2.2
  rw [hvalue] at hlength
  have hlong : longText.1.length = 10001 := length_replicate 10001
  omega

end Normalizer

end ComponentKb.Pipeline.Normalization
