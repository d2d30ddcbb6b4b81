import ComponentKb.Pipeline.Context
import ComponentKb.Pipeline.Identity

/-!
# Identity resolution

`WeightedIdentityResolver` (`identity/resolver.py`) with the rules of `identity/rules.py`: it scores
the texts of a page against declarative rules, ranks the candidates for category and kind, and
builds a `ComponentIdentity`. The arguments of each `ScoreContribution` and `IdentityAlias` are a
list in the order of the calls, and the constructors run over that list.
-/

namespace ComponentKb.Pipeline

open ComponentKb.Catalog (Unicode isSlugChar joined)
open ComponentKb.Lib ComponentKb.Lib.Ranking

/-! ## Matching texts -/

/-- `_normalized`: NFKC and case folding, then each run of characters outside `[a-z0-9]` is one
blank, with none at the ends. -/
def normalizedName (u : Unicode) (value : String) : String :=
  joined ((((u.casefold (u.nfkc value)).toList.splitOnP fun c => !isSlugChar c).filter
    (· ≠ [])).map String.ofList)

/-- `f" {text} "`. -/
def padded (text : String) : List Char := ' ' :: text.toList ++ [' ']

@[ext]
structure Signal where
  value : Text
  evidence : List EvidenceFragment
  evidenced : evidence ≠ []

instance : DecidableEq Signal := fun a b =>
  decidable_of_iff (a.value = b.value ∧ a.evidence = b.evidence) Signal.ext_iff.symm

/-- A text carries one of the tokens as whole words. -/
def carries (u : Unicode) (tokens : List String) (value : String) : Bool :=
  tokens.any fun token =>
    decide (padded (normalizedName u token) <:+: padded (normalizedName u value))

/-- `_first_match`. -/
def firstMatch (u : Unicode) (signals : List Signal) (tokens : List String) : Option Signal :=
  signals.find? fun signal => carries u tokens signal.value

def textSignals (fields : List (ExtractedField Text)) : List Signal :=
  fields.map fun field => ⟨field.value, field.evidence, field.evidenced⟩

def sectionSignals (fields : List (ExtractedField DescriptionSection)) : List Signal :=
  fields.map fun field => ⟨field.value.body, field.evidence, field.evidenced⟩

/-! `_signals`. -/

def titleSignals (facts : NormalizedFacts) : List Signal :=
  textSignals facts.extractedFacts.titleCandidates

def summarySignals (facts : NormalizedFacts) : List Signal :=
  textSignals facts.extractedFacts.summaryCandidates

def detailSignals (facts : NormalizedFacts) : List Signal :=
  sectionSignals facts.extractedFacts.descriptionSections ++
    textSignals facts.extractedFacts.featureFacts ++
    textSignals facts.extractedFacts.applicationFacts ++
    sectionSignals facts.extractedFacts.usageSections

/-- `_exact_primary_ic`. -/
def exactPrimaryIc (u : Unicode) (facts : NormalizedFacts) (canonicalName : String) :
    Option NormalizedIdentifier :=
  facts.primaryIcs.find? fun item =>
    normalizedName u item.trace.normalizedValue = normalizedName u canonicalName

/-- The arguments of a `ScoreContribution`. -/
structure ScoreArguments where
  ruleId : String
  signal : String
  weight : Int
  reason : String
  evidence : List EvidenceFragment

def ScoreArguments.build (arguments : ScoreArguments) : Except String ScoreContribution :=
  ScoreContribution.make arguments.ruleId arguments.signal arguments.weight arguments.reason
    arguments.evidence

/-- `sum(item.weight for item in breakdown)`, capped at 100. -/
def totalScore (breakdown : List ScoreContribution) : Int := min 100 (breakdown.map (·.weight)).sum

/-! ## Categories -/

structure CategoryRule where
  categoryKey : String
  tokens : List String
  taxonomyPrefixes : List String := []
  profile : Option NormalizationProfile := none
  taxonomyWeight : Int := 20

/-- `CATEGORY_RULES`. -/
def categoryRules : List CategoryRule :=
  [{ categoryKey := "sensors"
     tokens := ["sensor", "sensing", "temperature", "humidity", "pressure", "ultrasonic", "ranger",
       "distance", "proximity", "accelerometer", "gyroscope", "light sensor", "gas sensor"]
     taxonomyPrefixes := ["sensor."]
     profile := some .sensor },
   { categoryKey := "displays"
     tokens := ["display", "oled", "lcd", "screen", "e ink", "epaper"]
     taxonomyPrefixes := ["display."]
     profile := some .display },
   { categoryKey := "actuators"
     tokens := ["actuator", "motor", "relay", "servo", "solenoid", "pump", "buzzer"]
     taxonomyPrefixes := ["actuator."]
     profile := some .actuator },
   { categoryKey := "input"
     tokens := ["button", "switch", "joystick", "keypad", "encoder", "potentiometer"] },
   { categoryKey := "power"
     tokens := ["battery", "charger", "power supply", "dc dc", "converter", "power module"] },
   { categoryKey := "communication"
     tokens := ["wifi", "wi fi", "bluetooth", "lora", "can bus", "radio", "wireless", "ethernet"]
     taxonomyPrefixes := ["communication.frequency.", "communication.link_budget"]
     profile := some .communication },
   { categoryKey := "boards"
     tokens := ["development board", "board", "shield", "xiao", "seeeduino", "wio terminal"]
     taxonomyPrefixes := ["board."]
     profile := some .board },
   { categoryKey := "connectors"
     tokens := ["connector", "terminal", "adapter", "socket", "header"]
     taxonomyPrefixes := ["mechanical.connector"]
     taxonomyWeight := 10 },
   { categoryKey := "semiconductors"
     tokens := ["transistor", "diode", "mosfet", "thyristor", "triac", "led"] }]

section

variable (u : Unicode) (facts : NormalizedFacts) (canonical : ExtractedField Text)

/-- `_add_text_contribution`. -/
def textArguments (rule : CategoryRule) (source terminology : String) (weight : Int)
    (signals : List Signal) : List ScoreArguments :=
  (firstMatch u signals rule.tokens).toList.map fun matched =>
    { ruleId := "category." ++ rule.categoryKey ++ "." ++ source ++ ".v1"
      signal := matched.value
      weight
      reason := terminology ++ " terminology supports " ++ rule.categoryKey ++ "."
      evidence := matched.evidence }

/-- The first specification under one of the rule's prefixes. -/
def taxonomySpecification (rule : CategoryRule) : Option NormalizedSpecification :=
  facts.specifications.find? fun item =>
    rule.taxonomyPrefixes.any fun start => start.toList.isPrefixOf item.taxonomyPath.toList

/-- The contributions of one rule, in the order of the calls. -/
def categoryArguments (rule : CategoryRule) : List ScoreArguments :=
  let texts := textArguments u rule "title" "Title" 55 (titleSignals facts) ++
    textArguments u rule "summary" "Summary" 20 (summarySignals facts) ++
    textArguments u rule "details" "Details" 10 (detailSignals facts)
  let taxonomy := (taxonomySpecification facts rule).toList.map fun specification =>
    { ruleId := "category." ++ rule.categoryKey ++ ".taxonomy.v1"
      signal := specification.taxonomyPath
      weight := rule.taxonomyWeight
      reason := "Taxonomy path supports " ++ rule.categoryKey ++ "."
      evidence := specification.evidence }
  let profile : List ScoreArguments :=
    if rule.profile = some facts.profile then
      [{ ruleId := "category." ++ rule.categoryKey ++ ".profile.v1"
         signal := facts.profile.value
         weight := 15
         reason := "Normalization profile supports " ++ rule.categoryKey ++ "."
         evidence := canonical.evidence }]
    else []
  texts ++ (if rule.categoryKey ≠ "connectors" ∨ texts.isEmpty = false then taxonomy else []) ++
    profile

def categoryCandidate (rule : CategoryRule) : Except String (List CategoryCandidate) := do
  let breakdown ← (categoryArguments u facts canonical rule).mapM ScoreArguments.build
  if breakdown = [] then
    return []
  else
    return [← CategoryCandidate.make rule.categoryKey (totalScore breakdown) breakdown]

/-- The contribution of a title that is the part number of a primary IC. -/
def exactArguments (ruleId : String) (item : NormalizedIdentifier) : ScoreArguments where
  ruleId
  signal := item.trace.normalizedValue
  weight := 85
  reason := "The complete title equals an evidenced primary IC part number."
  evidence := (canonical.evidence ++ item.evidence).eraseDups

/-- `_category_candidates`. -/
def categoryCandidates : Except String (List CategoryCandidate) := do
  let candidates ← categoryRules.mapM (categoryCandidate u facts canonical)
  let exact ← (exactPrimaryIc u facts canonical.value).toList.mapM fun item => do
    let contribution ← (exactArguments canonical
      "category.integrated-circuits.exact-primary-identity.v1" item).build
    CategoryCandidate.make "integrated-circuits" 85 [contribution]
  return rankCategories (candidates.flatten ++ exact)

end

/-! ## Kinds -/

structure KindRule where
  kind : ComponentKind
  tokens : List String
  titleWeight : Int

/-- `rules` of `_kind_candidates`. -/
def kindRules : List KindRule :=
  [{ kind := .developmentBoard
     tokens := ["development board", "xiao", "seeeduino", "wio terminal", "arduino board"]
     titleWeight := 70 },
   { kind := .connector
     tokens := ["connector", "terminal", "adapter", "socket", "header"]
     titleWeight := 70 },
   { kind := .discreteComponent
     tokens := ["resistor", "capacitor", "diode", "transistor", "mosfet", "led", "crystal"]
     titleWeight := 70 },
   { kind := .integratedCircuit
     tokens := ["integrated circuit", "microcontroller", "mcu", "controller ic"]
     titleWeight := 70 },
   { kind := .module
     tokens := ["grove", "module", "shield", "sensor", "display", "driver", "converter", "button",
       "relay"]
     titleWeight := 35 }]

section

variable (u : Unicode) (facts : NormalizedFacts) (canonical : ExtractedField Text)

/-- The first text of the page's body that supports a kind; the body says nothing of a discrete
component or an integrated circuit. -/
def bodyMatch (rule : KindRule) : Option Signal :=
  if rule.kind = .discreteComponent ∨ rule.kind = .integratedCircuit then none
  else firstMatch u (summarySignals facts ++ detailSignals facts) rule.tokens

/-- The contributions of one rule, in the order of the calls. -/
def kindArguments (rule : KindRule) : List ScoreArguments :=
  let title := (firstMatch u (titleSignals facts) rule.tokens).toList.map fun matched =>
    { ruleId := "kind." ++ rule.kind.value ++ ".title.v1"
      signal := matched.value
      weight := rule.titleWeight
      reason := "Title supports component kind " ++ rule.kind.value ++ "."
      evidence := matched.evidence }
  let body := (bodyMatch u facts rule).toList.map fun matched =>
    { ruleId := "kind." ++ rule.kind.value ++ ".body.v1"
      signal := matched.value
      weight := 20
      reason := "Source body supports component kind " ++ rule.kind.value ++ "."
      evidence := matched.evidence }
  let connector := (facts.specifications.find? (·.taxonomyPath = "mechanical.connector")).toList.map
    fun specification =>
      { ruleId := "kind.connector.taxonomy.v1"
        signal := specification.taxonomyPath
        weight := 10
        reason := "Connector taxonomy supports connector kind."
        evidence := specification.evidence }
  let registered : ScoreArguments :=
    { ruleId := "kind.module.registered-seeed-source.v1"
      signal := facts.artifact.source.sourceKey
      weight := 15
      reason := "A registered Seeed product page weakly supports module identity."
      evidence := canonical.evidence }
  title ++ body ++
    (if rule.kind = .connector ∧ (title ++ body).isEmpty = false then connector else []) ++
    (if rule.kind = .module then [registered] else [])

def kindCandidate (rule : KindRule) : Except String (List KindCandidate) := do
  let breakdown ← (kindArguments u facts canonical rule).mapM ScoreArguments.build
  if breakdown = [] then
    return []
  else
    return [← KindCandidate.make rule.kind (totalScore breakdown) breakdown]

/-- The candidate of a page that no rule says anything of. -/
def fallbackCandidate : Except String KindCandidate := do
  let contribution ← ScoreContribution.make "kind.generic_unknown.fallback.v1" canonical.value 10
    "No specific component-kind rule matched." canonical.evidence
  KindCandidate.make .genericUnknown 10 [contribution]

/-- `_kind_candidates`. -/
def kindCandidates : Except String (List KindCandidate) := do
  let candidates := (← kindRules.mapM (kindCandidate u facts canonical)).flatten
  let exact ← (exactPrimaryIc u facts canonical.value).toList.mapM fun item => do
    let contribution ← (exactArguments canonical
      "kind.integrated_circuit.exact-primary-identity.v1" item).build
    KindCandidate.make .integratedCircuit 85 [contribution]
  let candidates :=
    if exact = [] then candidates
    else candidates.filter (·.kind ≠ .integratedCircuit) ++ exact
  if candidates = [] then
    return [← fallbackCandidate canonical]
  else
    return rankKinds candidates

end

/-! ## The resolver -/

/-- The first entry for each key: `dict.setdefault` over a list. -/
def uniqueBy {α κ : Type} [DecidableEq κ] (key : α → κ) : List α → List α
  | [] => []
  | x :: xs => x :: (uniqueBy key xs).filter (key · ≠ key x)

/-- The arguments of an `IdentityAlias`. -/
structure AliasArguments where
  value : String
  reason : String
  evidence : List EvidenceFragment

section

variable (u : Unicode) (facts : NormalizedFacts) (canonical : ExtractedField Text)

/-- The aliases `_aliases` builds: the other titles, then the models that are no primary IC. -/
def aliasArguments : List AliasArguments :=
  ((facts.extractedFacts.titleCandidates.tail.filter fun field =>
    normalizedName u field.value ≠ normalizedName u canonical.value).map fun field =>
      ⟨field.value, "identity.alternate-title.v1", field.evidence⟩) ++
  ((facts.identifiers.filter fun item =>
    item.kind = .model ∧
      normalizedName u item.trace.normalizedValue ≠ normalizedName u canonical.value ∧
      normalizedName u item.trace.normalizedValue ∉
        facts.primaryIcs.map fun ic => normalizedName u ic.trace.normalizedValue).map fun item =>
      ⟨item.trace.normalizedValue, "identity.model-alias.v1", item.evidence⟩)

/-- `_aliases`. -/
def aliases : Except String (List IdentityAlias) := do
  let named ← (aliasArguments u facts canonical).mapM fun arguments =>
    IdentityAlias.make arguments.value arguments.reason arguments.evidence
  return uniqueBy (fun item => u.casefold item.value) named

end

def autoResolveScore : Int := 65

def autoResolveMargin : Int := 15

def reviewScore : Int := 35

/-- `categories[0].score - (categories[1].score if len(categories) > 1 else 0)`. -/
def margin : List CategoryCandidate → Int
  | [] => 0
  | [only] => only.score
  | first :: second :: _ => first.score - second.score

/-- `_resolution`. -/
def resolution (facts : NormalizedFacts) (categories : List CategoryCandidate)
    (kind : KindCandidate) : IdentityResolutionStatus × IdentityConfidence :=
  match categories.head? with
  | none => (.unresolved, .low)
  | some first =>
    if first.score < reviewScore ∨ kind.kind = .genericUnknown then (.unresolved, .low)
    else if first.score ≥ autoResolveScore ∧ margin categories > autoResolveMargin ∧
        kind.score ≥ 50 ∧ facts.conflicts = [] ∧
        ∀ warning ∈ facts.extractedFacts.warnings, warning.code ≠ "ambiguous_title" then
      (.autoResolved, .high)
    else (.reviewRequired, .medium)

/-- `_warnings`. -/
def identityWarnings (facts : NormalizedFacts) (status : IdentityResolutionStatus)
    (categories : List CategoryCandidate) : List String :=
  (match status with
    | .unresolved => ["identity_unresolved"]
    | .reviewRequired => ["identity_review_required"]
    | .autoResolved => []) ++
  (if 2 ≤ categories.length ∧ margin categories ≤ autoResolveMargin then ["category_ambiguous"]
    else []) ++
  if facts.conflicts = [] then [] else ["normalization_conflict_present"]

/-- `_resolve`, after the first title was found. -/
def resolveTitled (u : Unicode) (facts : NormalizedFacts) (canonical : ExtractedField Text) :
    Except String (ComponentIdentity u) := do
  let canonicalName ← IdentityValue.make canonical.value "identity.canonical-title.v1"
    canonical.evidence
  let manufacturer ← facts.manufacturers.head?.mapM fun fact =>
    IdentityValue.make fact.trace.normalizedValue "identity.manufacturer-normalized.v1"
      fact.evidence
  let named ← aliases u facts canonical
  let categories ← categoryCandidates u facts canonical
  let kinds ← kindCandidates u facts canonical
  let kind ← fromSome kinds.head? "tuple index out of range"
  let status := resolution facts categories kind
  ComponentIdentity.make u
    { artifact := facts.artifact
      normalizedFacts := facts
      canonicalName
      manufacturer
      productIdentifiers := facts.identifiers.filter (·.kind ≠ .partNumber)
      partNumbers := facts.identifiers.filter (·.kind = .partNumber)
      primaryIcCandidates := facts.primaryIcs
      aliases := named
      componentKind := kind.kind
      kindCandidates := kinds
      selectedCategory :=
        if status.1 = .autoResolved then categories.head?.map (·.categoryKey) else none
      categoryCandidates := categories
      confidence := status.2
      resolutionStatus := status.1
      warnings := identityWarnings facts status.1 categories }

/-- `_resolve`. -/
def resolveFacts (u : Unicode) (facts : NormalizedFacts) : Except String (ComponentIdentity u) :=
  match facts.extractedFacts.titleCandidates with
  | [] => .error "identity_title_missing"
  | canonical :: _ => resolveTitled u facts canonical

/-- `resolve`, with the two readings of the clock. -/
def resolve (u : Unicode) (context : ImportPipelineContext) (facts : NormalizedFacts)
    (startedAt completedAt : Time) :
    Except String (ImportPipelineContext × ComponentIdentity u) := do
  let ⟨_⟩ ← demand (context.sourceKey = facts.artifact.source.sourceKey) "pipeline_source_mismatch"
  let ⟨_⟩ ← demand (context.nextStage = some .identity) "identity_stage_out_of_order"
  let identity ← resolveFacts u facts
  let execution ← StageExecution.make .identity startedAt completedAt identity.warnings
  let updated ← context.advance execution
  return (updated, identity)

end ComponentKb.Pipeline
