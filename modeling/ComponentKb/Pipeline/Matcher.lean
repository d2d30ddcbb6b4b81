import ComponentKb.Imports.Urls
import ComponentKb.Lib.Records
import ComponentKb.Lib.Sorting
import ComponentKb.Lib.Splitting
import ComponentKb.Pipeline.Enrichment
import ComponentKb.Pipeline.Lineage
import ComponentKb.Pipeline.Resolver

/-!
# The matcher

`SeeedKicadMatcher` (`enrichment/matcher.py`): what relates a component to a symbol that the index
found for it, and the decision on that. The rules are asked one after the other; a rule that applies
gives the arguments of a contribution. The digest of an identity is a parameter, and so is the letter
that a search without case takes a character for.

* `score_arguments`: the breakdown is what the rules that apply say.
* `sound_manufacturer`, `sound_identifier`, `relationType_module`: one kind of agreement each.
* **`sound_iff`**: a candidate is sound iff no empty key met another, and the symbol is not a part
  number of the page beside being a primary IC of the module, with a score that accepts it.
-/

namespace ComponentKb.Pipeline.Matcher

open ComponentKb.Catalog (Unicode isSlugChar strip)
open ComponentKb.Imports (HostTables urlsplit)
open ComponentKb.Lib ComponentKb.Lib.Sorting

/-- `SeeedKicadMatcher`: the threshold in thousandths. -/
structure SeeedKicadMatcher where
  threshold : Nat
  strict : 950 ≤ threshold ∧ threshold ≤ 1000

/-- The exception of `int` for too many digits. -/
def tooManyDigits : String := "Exceeds the limit (4300 digits) for integer string conversion"

section

variable (u : Unicode) (t : HostTables) (lower : Char → Char)

/-! ## Keys -/

/-- NFKC and case folding. -/
def folded (value : String) : List Char := (u.casefold (u.nfkc value)).toList

/-- `_compact`. -/
def compact (value : String) : String := String.ofList ((folded u value).filter isSlugChar)

/-- The name of a symbol and its aliases. -/
def symbolNames (record : KicadSymbolRecord) : List String :=
  record.symbolName.1 :: record.aliases.map (·.1)

/-- `_record_keys`. -/
def recordKeys (record : KicadSymbolRecord) : List String :=
  ((symbolNames record).map (compact u)).filter (· ≠ "")

/-- The keys of identifiers. -/
def identifierKeysOf (items : List NormalizedIdentifier) : List String :=
  items.map fun item => compact u item.trace.normalizedValue.1

/-- The tokens `[a-z0-9]+(?:[-_./][a-z0-9]+)*` of a text, after those that are read. -/
def tokensFrom (read : List Char) : List Char → List (List Char)
  | [] => if read = [] then [] else [read]
  | c :: cs =>
    if isSlugChar c ∨ (c ∈ ['-', '_', '.', '/'] ∧ read ≠ [] ∧ cs.head?.any isSlugChar) then
      tokensFrom (read ++ [c]) cs
    else if read = [] then tokensFrom [] cs
    else read :: tokensFrom [] cs

/-- `_identifier_keys`. -/
def identifierKeys (value : String) : List String :=
  ((tokensFrom [] (folded u value)).map fun token => compact u (String.ofList token)).filter (· ≠ "")

/-- `_words`. -/
def words (value : String) : List String :=
  (parts (fun c => !isSlugChar c) (folded u value)).map String.ofList

/-! ## Texts -/

/-- `\w`. -/
def isWordChar (c : Char) : Bool := u.isAlnum c || c = '_'

/-- A search for a text between word boundaries; `inside` tells of the character before. -/
def findsWord (pattern : List Char) : (inside : Bool) → List Char → Bool
  | _, [] => false
  | inside, c :: cs =>
    (!inside && pattern.isPrefixOf (c :: cs) &&
      !((c :: cs).drop pattern.length).head?.any (isWordChar u)) ||
      findsWord pattern (isWordChar u c) cs

/-- The alternatives of the pattern of `_onboard_mention_evidence`. -/
def onboardContexts : List String :=
  ["based on", "built around", "contains", "equipped with", "main ic", "onboard", "on-board", "uses"]

/-- The patterns of `_interfaces`, with the alternatives of each written out. -/
def interfacePatterns : List (String × List String) :=
  [("i2c", ["i2c", "i²c", "twi"]), ("spi", ["spi"]), ("uart", ["uart", "serial"]),
   ("can", ["can", "can bus"]), ("usb", ["usb"]), ("analog", ["analog"]), ("digital", ["digital"]),
   ("wifi", ["wifi", "wi fi", "wi-fi"]), ("bluetooth", ["bluetooth"])]

/-- `_interfaces`, in the order of the table. -/
def interfaces (value : String) : List String :=
  (interfacePatterns.filter fun row =>
    row.2.any fun pattern => findsWord u pattern.toList false (folded u value)).map Prod.fst

/-- `_comparison_tokens`. -/
def comparisonTokens (value : String) : List String :=
  ((parts (fun c => !isLower c) (u.casefold value).toList).filter fun token =>
    2 ≤ token.length).map String.ofList |>.filter (· ∉ ["filter", "footprint", "package"])

/-- The labels that `_PIN_COUNT_LABEL` accepts, in lower case. -/
def pinCountLabels : List String :=
  ["", "number of "].flatMap fun before => ["pin", "pins"].flatMap fun word =>
    ["", " count"].map fun after => before ++ word ++ after

/-- `\d`. -/
def isDigitChar (c : Char) : Bool := (u.digit c).isSome

/-- The first number of a text: `int(re.search(r"\d+", value).group())`. -/
def firstNumber (value : String) : Option (Except String Nat) :=
  match (value.toList.dropWhile fun c => !isDigitChar u c).takeWhile (isDigitChar u) with
  | [] => none
  | digits =>
    some (if 4300 < digits.length then .error tooManyDigits
      else .ok (digits.foldl (fun n c => 10 * n + (u.digit c).getD 0) 0))

/-- The tokens `[a-z]*\d+[a-z0-9]*` of a text. -/
def numberedTokens : Nat → List Char → List (List Char)
  | 0, _ | _, [] => []
  | fuel + 1, c :: cs =>
    let letters := (c :: cs).takeWhile isLower
    let rest := (c :: cs).drop letters.length
    let digits := rest.takeWhile (isDigitChar u)
    if digits = [] then numberedTokens fuel ((c :: cs).drop (max 1 letters.length))
    else
      let tail := (rest.drop digits.length).takeWhile isSlugChar
      (letters ++ digits ++ tail) :: numberedTokens fuel (rest.drop (digits.length + tail.length))

/-- The parts of a URL that the matcher reads: its host and its path. -/
def split (value : String) : Except String (Option String × String) :=
  match urlsplit u value with
  | .ok parsed => .ok (parsed.hostname t, String.ofList parsed.path)
  | .error (.value text) => .error text
  | .error _ => .error ""

/-- `_normalized_url`. -/
def normalizedUrl (value : String) : Except String String := do
  let (host, path) ← split u t (strip value)
  return u.casefold (host.getD "") ++
    u.casefold (String.ofList ((path.toList.reverse.dropWhile (· = '/')).reverse))

/-- `_datasheet_tokens`. -/
def datasheetTokens (value : String) : Except String (List String) := do
  let (_, path) ← split u t value
  let path := (u.casefold path).toList
  return ((numberedTokens u path.length path).filter fun token => 4 ≤ token.length).map
    String.ofList |>.filter (· ≠ "ds002")

/-! ## Evidence -/

variable (identity : ComponentIdentity u) (hit : KicadSearchHit)

/-- `facts`: those of the identity. -/
abbrev factsOf : NormalizedFacts := identity.normalizedFacts

/-- The values of an identity that a search term may stand for, each with its evidence. -/
def identityNames : List (String × List EvidenceFragment) :=
  (identity.partNumbers ++ identity.primaryIcCandidates ++ identity.productIdentifiers).map
      (fun item => (item.trace.normalizedValue.1, item.evidence)) ++
    identity.aliases.map (fun item => (item.value, item.evidence)) ++
    [(identity.canonicalName.value, identity.canonicalName.evidence)]

/-- `_identity_term_evidence`. -/
def identityTermEvidence (query : String) : List EvidenceFragment :=
  uniqueBy id (((identityNames u identity).filter fun named =>
    compact u named.1 = compact u query).flatMap Prod.snd)

/-- `_all_source_evidence`. -/
def allSourceEvidence : List EvidenceFragment :=
  let extracted := (factsOf u identity).extractedFacts
  uniqueBy id (uniqueBy id identity.evidenceGroups.flatten ++
    fieldEvidence extracted.summaryCandidates ++ fieldEvidence extracted.descriptionSections ++
    fieldEvidence extracted.featureFacts ++ fieldEvidence extracted.applicationFacts ++
    fieldEvidence extracted.usageSections ++ fieldEvidence extracted.modulePinout ++
    fieldEvidence extracted.specifications ++ fieldEvidence extracted.resources ++
    fieldEvidence extracted.unmappedFacts)

/-- `_record_mention_evidence`. -/
def recordMentionEvidence : List EvidenceFragment :=
  (allSourceEvidence u identity).filter fun evidence =>
    (recordKeys u hit.record).any fun key => key ∈ identifierKeys u evidence.rawText

/-- `_onboard_mention_evidence`. -/
def onboardMentionEvidence : List EvidenceFragment :=
  (recordMentionEvidence u identity hit).filter fun evidence =>
    onboardContexts.any fun pattern =>
      findsWord u pattern.toList false (evidence.rawText.toList.map lower)

/-- `_is_connector`. -/
def isConnector : Bool :=
  "connector" ∈ words u (hit.record.library.1 ++ " " ++ hit.record.symbolName.1)

/-! ## Rules -/

/-- `_BASIS_PRIORITY`. -/
def basisPriority : KicadMatchBasis → Nat
  | .exactPartNumber => 0
  | .alias => 1
  | .normalizedName => 2
  | .description => 3
  | .manufacturerHint => 4

/-- `min(hit.matched_terms, key=…)`: the first of the terms with the least priority. -/
def primaryTerm (terms : List KicadMatchedTerm) : Option KicadMatchedTerm :=
  (sortBy (fun term => basisPriority term.basis) terms).head?

/-- `_BASIS_WEIGHT`. -/
def basisWeight : KicadMatchBasis → Option (String × Int × String)
  | .exactPartNumber => some ("matcher.part-number-exact.v1", 700,
      "Exact part-number equality is a strong identity signal.")
  | .alias => some ("matcher.alias-exact.v1", 520,
      "An exact KiCad alias matches an evidenced Seeed identifier.")
  | .normalizedName => some ("matcher.name-normalized.v1", 100,
      "Only the normalized component name matches.")
  | .description => some ("matcher.description-token.v1", 40,
      "Description tokens overlap; this is a weak functional signal.")
  | .manufacturerHint => none

/-- The rule for the term that the symbol was found by. -/
def termRule : Option ContributionArguments := do
  let term ← primaryTerm hit.matchedTerms
  let (ruleId, weight, reason) ← basisWeight term.basis
  let evidence := identityTermEvidence u identity term.query
  if evidence ≠ [] then
    return ⟨ruleId, term.query, weight, reason, evidence, term.matchedValue⟩
  else
    return ⟨"matcher.match-term-unproven.v1", term.query, -1000,
      "The search term is not backed by the resolved Seeed identity.", [], term.matchedValue⟩

/-- The rule for a symbol that the page mentions. -/
def mentionRule : Option ContributionArguments :=
  let evidence := recordMentionEvidence u identity hit
  if evidence = [] then none
  else some ⟨"matcher.source-explicit-mention.v1", hit.record.symbolName.1, 150,
    "The KiCad symbol or alias appears explicitly in Seeed evidence.", evidence,
    hit.record.symbolName.1⟩

/-- The rule for a symbol with the name of the component. -/
def nameRule : Option ContributionArguments :=
  if compact u identity.canonicalName.value ∈ recordKeys u hit.record then
    some ⟨"matcher.canonical-name-exact.v1", identity.canonicalName.value, 100,
      "The resolved component name exactly identifies the KiCad symbol.",
      identity.canonicalName.evidence, hit.record.symbolName.1⟩
  else none

/-- `", ".join(…)`. -/
def commaJoined (values : List String) : String := ", ".intercalate values

/-- `_manufacturer_contribution`. -/
def manufacturerRule : Option ContributionArguments := do
  let manufacturer ← identity.manufacturer
  let hints := hit.record.manufacturerHints.map (·.1)
  if hints = [] then none
  else if compact u manufacturer.value ∈ hints.map (compact u) then
    return ⟨"matcher.manufacturer-match.v1", manufacturer.value, 50,
      "Seeed and KiCad manufacturer identities agree.", manufacturer.evidence, commaJoined hints⟩
  else
    return ⟨"matcher.manufacturer-conflict.v1", manufacturer.value, -500,
      "Seeed and KiCad identify different manufacturers.", manufacturer.evidence,
      commaJoined hints⟩

/-- `next(…)` with a condition that may raise. -/
def firstWith {α : Type} (p : α → Except String Bool) : List α → Except String (Option α)
  | [] => return none
  | a :: rest => do
    if ← p a then return some a
    else firstWith p rest

/-- `_datasheet_contribution`, for a symbol with a datasheet and a page with some. -/
def datasheetAmong (datasheet : String) (fields : List (ExtractedField ResourceReference))
    (first : ExtractedField ResourceReference) : Except String (Option ContributionArguments) := do
  let target ← normalizedUrl u t datasheet
  match ← firstWith (fun field => do
      return (← normalizedUrl u t field.value.locator.1) = target) fields with
  | some field =>
    return some ⟨"matcher.datasheet-exact.v1", field.value.locator.1, 80,
      "Seeed and KiCad reference the same datasheet URL.", field.evidence, datasheet⟩
  | none => do
    let targetTokens ← datasheetTokens u t datasheet
    match ← firstWith (fun field => do
        return (← datasheetTokens u t field.value.locator.1).any (· ∈ targetTokens)) fields with
    | some field =>
      return some ⟨"matcher.datasheet-identity.v1", field.value.locator.1, 60,
        "Datasheet filenames contain the same component identity.", field.evidence, datasheet⟩
    | none => do
      match ← firstWith (fun field => do
          return (← split u t field.value.locator.1).1 = (← split u t datasheet).1) fields with
      | some field =>
        return some ⟨"matcher.datasheet-domain.v1", field.value.locator.1, 30,
          "Seeed and KiCad datasheets share a source domain.", field.evidence, datasheet⟩
      | none => do
        let sourceTokens ← fields.mapM fun field => datasheetTokens u t field.value.locator.1
        return if targetTokens ≠ [] ∧ sourceTokens.flatten ≠ [] then
            some ⟨"matcher.datasheet-conflict.v1", first.value.locator.1, -120,
              "Datasheet identities disagree and require manual validation.", first.evidence,
              datasheet⟩
          else none

/-- `_datasheet_contribution`. -/
def datasheetRule : Except String (Option ContributionArguments) :=
  let fields := (factsOf u identity).extractedFacts.resources.filter fun field =>
    field.value.kind = .datasheet
  match hit.record.datasheet, fields with
  | some datasheet, first :: _ => datasheetAmong u t datasheet.1 fields first
  | _, _ => return none

/-- `_interface_contribution`. -/
def interfaceRule : Option ContributionArguments :=
  let facts := (factsOf u identity).interfaces
  let source := (interfacePatterns.map Prod.fst).filter fun name =>
    facts.any fun fact => name ∈ interfaces u fact.trace.normalizedValue.1
  let record := interfaces u (" ".intercalate ((hit.record.description.map (·.1)).getD "" ::
    hit.record.keywords.map (·.1) ++ hit.record.pins.map (·.name.1)))
  let evidence := uniqueBy id (facts.flatMap (·.evidence))
  let shown (names : List String) := commaJoined (sortBy id names)
  if source = [] ∨ record = [] then none
  else if source.any (· ∈ record) then
    some ⟨"matcher.interface-compatible.v1", shown source, 40,
      "Seeed and KiCad expose at least one compatible interface.", evidence, shown record⟩
  else
    some ⟨"matcher.interface-conflict.v1", shown source, -180,
      "Seeed and KiCad state incompatible interface sets.", evidence, shown record⟩

/-- `_package_contribution`. -/
def packageRule : Option ContributionArguments := do
  let package ← (factsOf u identity).extractedFacts.specifications.find? fun field =>
    compact u field.value.label.1 ∈ ["package", "footprint", "packagecase"]
  let filters := hit.record.footprintFilters.map (·.1)
  if filters = [] then none
  else if (comparisonTokens u package.value.value.1).any
      (· ∈ comparisonTokens u (" ".intercalate filters)) then
    return ⟨"matcher.package-compatible.v1", package.value.value.1, 50,
      "The explicit Seeed package is compatible with a KiCad footprint filter.", package.evidence,
      commaJoined filters⟩
  else
    return ⟨"matcher.package-conflict.v1", package.value.value.1, -250,
      "The explicit Seeed package conflicts with KiCad footprint filters.", package.evidence,
      commaJoined filters⟩

/-- The first specification that counts pins, and its number. -/
def pinCount : Option (ExtractedField RawSpecification × Except String Nat) :=
  (factsOf u identity).extractedFacts.specifications.findSome? fun field =>
    if String.ofList ((strip field.value.label.1).toList.map lower) ∈ pinCountLabels then
      (firstNumber u field.value.value.1).map fun number => (field, number)
    else none

/-- `_pin_count_contribution`. -/
def pinCountRule : Except String (Option ContributionArguments) :=
  match pinCount u lower identity with
  | none => return none
  | some (field, number) => do
    let expected ← number
    let actual := (hit.record.pins.map (·.number.1)).dedup.length
    if hit.record.pins = [] then return none
    else if expected = actual then
      return some ⟨"matcher.pin-count-compatible.v1", toString expected, 50,
        "An explicit component pin count agrees with the KiCad symbol.", field.evidence,
        toString actual⟩
    else
      return some ⟨"matcher.pin-count-conflict.v1", toString expected, -250,
        "An explicit component pin count conflicts with the KiCad symbol.", field.evidence,
        toString actual⟩

/-- The rule for a generic symbol. -/
def genericRule : Option ContributionArguments :=
  if hit.record.isGeneric = true ∧ ¬ ∃ term ∈ hit.matchedTerms, term.basis = .exactPartNumber then
    some ⟨"matcher.generic-without-explicit-id.v1", hit.record.symbolName.1, -1000,
      "A generic symbol cannot be linked without an exact evidenced identifier.",
      recordMentionEvidence u identity hit, hit.record.recordId⟩
  else none

/-- The rules in the order of `_score`. -/
def rules : List (Except String (Option ContributionArguments)) :=
  [.ok (termRule u identity hit), .ok (mentionRule u identity hit), .ok (nameRule u identity hit),
   .ok (manufacturerRule u identity hit), datasheetRule u t identity hit,
   .ok (interfaceRule u identity hit), .ok (packageRule u identity hit),
   pinCountRule u lower identity hit, .ok (genericRule u identity hit)]

/-- The contribution of a rule. -/
def contribution (rule : Except String (Option ContributionArguments)) :
    Except String (Option EnrichmentScoreContribution) := do
  match ← rule with
  | none => return none
  | some arguments => return some (← arguments.build)

/-- `_score`. -/
def score : Except String (List EnrichmentScoreContribution) := do
  let made ← (rules u t lower identity hit).mapM contribution
  return made.reduceOption

/-- `_relation_type`. -/
def relationType : ComponentSymbolRelationType :=
  let keys := recordKeys u hit.record
  if identity.componentKind = .connector ∧ isConnector u hit then .connector
  else if ∃ key ∈ keys, key ∈ identifierKeysOf u identity.partNumbers then .exactComponent
  else if ∃ key ∈ keys, key ∈ identifierKeysOf u identity.primaryIcCandidates then
    if identity.componentKind = .module ∨ identity.componentKind = .developmentBoard then
      .mainIntegratedCircuit
    else .exactComponent
  else if compact u identity.canonicalName.value ∈ keys ∧
      (identity.componentKind = .discreteComponent ∨ identity.componentKind = .integratedCircuit) then
    .exactComponent
  else if isConnector u hit ∧ recordMentionEvidence u identity hit ≠ [] then .connector
  else if onboardMentionEvidence u lower identity hit ≠ [] then .onboardComponent
  else .functionalEquivalent

/-! ## Decisions -/

/-- `_SEVERE_CONFLICT_RULES`, sorted. -/
def severeConflictRules : List String :=
  ["matcher.manufacturer-conflict.v1", "matcher.package-conflict.v1",
   "matcher.pin-count-conflict.v1"]

/-- `f"{basis_points / 1_000:.3f}"`. -/
def thousandths (n : Nat) : String :=
  toString (n / 1000) ++ "." ++ String.ofList
    [Nat.digitChar (n / 100 % 10), Nat.digitChar (n / 10 % 10), Nat.digitChar (n % 10)]

/-- `_decision`: the decision, the reasons to review and the reasons to reject. -/
def decision (matcher : SeeedKicadMatcher) (relation : ComponentSymbolRelation) :
    EnrichmentDecision × List String × List String :=
  let negative := relation.negativeEvidence
  let severe := severeConflictRules.filter fun rule => rule ∈ negative.map (·.ruleId)
  if severe ≠ [] then
    (.rejected, [], severe.map fun rule =>
      "Rejected because " ++ rule ++ " is a blocking identity conflict.")
  else if relation.relationType = .exactComponent ∧ relation.Exact ∧ negative = [] ∧
      relation.symbol.isGeneric = false ∧ 2 ≤ relation.positiveSourceEvidence.length ∧
      (matcher.threshold : Int) ≤ relation.confidenceBasisPoints then
    (.autoAccepted, [], [])
  else if relation.confidenceBasisPoints < 450 then
    (.rejected, [], uniqueBy id (("Confidence " ++
      thousandths relation.confidenceBasisPoints.toNat ++ " is below the review threshold 0.450.") ::
        negative.map fun item => "Negative evidence: " ++ item.reason))
  else
    let type := relation.relationType
    (.reviewRequired, uniqueBy id (
      (if type = .mainIntegratedCircuit ∨ type = .onboardComponent then
        ["Internal component relations require human review by policy."] else []) ++
      (if type = .functionalEquivalent then
        ["Functional equivalents are never accepted automatically."] else []) ++
      (if type = .connector then
        ["Connector relations require confirmation of the physical connector."] else []) ++
      (if relation.symbol.isGeneric then
        ["Generic symbols require explicit human confirmation."] else []) ++
      (if ¬ relation.Exact then ["The candidate lacks an exact part-number match."] else []) ++
      negative.map (fun item => "Negative evidence requires review: " ++ item.reason) ++
      (if relation.confidenceBasisPoints < matcher.threshold then
        ["Confidence " ++ thousandths relation.confidenceBasisPoints.toNat ++
          " is below auto-accept threshold " ++ thousandths matcher.threshold ++ "."] else []) ++
      (if type = .exactComponent ∧ relation.Exact ∧ relation.positiveSourceEvidence.length < 2 then
        ["Auto-accept requires at least two independent source evidence fragments."] else [])), [])

/-- `score_hit`. -/
def scoreHit (digest : ComponentIdentity u → String) (matcher : SeeedKicadMatcher)
    (facts : NormalizedFacts) : Except String EnrichmentCandidate := do
  require (identity.normalizedFacts = facts) "matcher_facts_mismatch"
  let breakdown ← score u t lower identity hit
  let relation ← ComponentSymbolRelation.make (digest identity) (relationType u lower identity hit)
    hit.record hit.matchedTerms (breakdownConfidence breakdown) breakdown "1.0.0"
  let (decision, review, rejection) := decision matcher relation
  EnrichmentCandidate.make relation decision review rejection

end

variable {u : Unicode} {t : HostTables} {lower : Char → Char} {identity : ComponentIdentity u}
  {hit : KicadSearchHit}

/-! ## The breakdown -/

/-- The arguments that a contribution was made of. -/
def argumentsOf (item : EnrichmentScoreContribution) : ContributionArguments :=
  ⟨item.ruleId, item.signal, item.weightBasisPoints, item.reason, item.sourceEvidence,
    item.kicadEvidence⟩

theorem argumentsOf_build {arguments : ContributionArguments} {item : EnrichmentScoreContribution}
    (h : arguments.build = .ok item) : argumentsOf item = arguments := by
  unfold ContributionArguments.build at h
  obtain ⟨⟨_⟩, -, h⟩ := bind_eq_ok.mp h
  obtain ⟨⟨_⟩, -, h⟩ := bind_eq_ok.mp h
  obtain ⟨⟨_⟩, -, h⟩ := bind_eq_ok.mp h
  obtain ⟨⟨_⟩, -, h⟩ := bind_eq_ok.mp h
  obtain ⟨⟨_⟩, -, h⟩ := bind_eq_ok.mp h
  obtain ⟨⟨_⟩, -, h⟩ := bind_eq_ok.mp h
  rw [← Except.ok.inj h]
  rfl

variable (u t lower identity hit) in
/-- The rules that apply. -/
def applied : List ContributionArguments :=
  (rules u t lower identity hit).filterMap fun rule => rule.toOption.join

theorem contribution_ok {rule : Except String (Option ContributionArguments)}
    {made : Option EnrichmentScoreContribution} (h : contribution rule = .ok made) :
    rule.toOption.join = made.map argumentsOf := by
  unfold contribution at h
  obtain ⟨arguments, rfl, h⟩ := bind_eq_ok.mp h
  cases arguments with
  | none =>
    obtain rfl := Except.ok.inj h
    rfl
  | some arguments =>
    change (arguments.build >>= fun item => .ok (some item)) = .ok made at h
    obtain ⟨item, hitem, h⟩ := bind_eq_ok.mp h
    obtain rfl := Except.ok.inj h
    change some arguments = some (argumentsOf item)
    rw [argumentsOf_build hitem]

/-- **The breakdown is what the rules that apply say.** -/
theorem score_arguments {breakdown : List EnrichmentScoreContribution}
    (h : score u t lower identity hit = .ok breakdown) :
    breakdown.map argumentsOf = applied u t lower identity hit := by
  obtain ⟨made, hmade, hmap⟩ := bind_eq_ok.mp h
  obtain rfl := Except.ok.inj hmap
  clear h hmap
  unfold applied
  generalize rules u t lower identity hit = asked at hmade ⊢
  induction asked generalizing made with
  | nil =>
    obtain rfl := Except.ok.inj hmade
    rfl
  | cons rule asked ih =>
    rw [List.mapM_cons] at hmade
    obtain ⟨item, hitem, hmade⟩ := bind_eq_ok.mp hmade
    obtain ⟨items, hitems, hmade⟩ := bind_eq_ok.mp hmade
    obtain rfl := Except.ok.inj hmade
    rw [List.filterMap_cons, contribution_ok hitem, ← ih items hitems]
    cases item with
    | none => rfl
    | some item => rfl

/-! ## Which rule a contribution is of -/

/-- The rules of a search term. -/
def termIds : List String :=
  ["matcher.part-number-exact.v1", "matcher.alias-exact.v1", "matcher.name-normalized.v1",
   "matcher.description-token.v1", "matcher.match-term-unproven.v1"]

def datasheetIds : List String :=
  ["matcher.datasheet-exact.v1", "matcher.datasheet-identity.v1", "matcher.datasheet-domain.v1",
   "matcher.datasheet-conflict.v1"]

/-- The rules that give a contribution its identifier: one of these. -/
structure Names (ids : List String) (rule : Except String (Option ContributionArguments)) : Prop where
  named : ∀ a, rule = .ok (some a) → a.ruleId ∈ ids

theorem basisWeight_id {basis : KicadMatchBasis} {ruleId reason : String} {weight : Int}
    (h : basisWeight basis = some (ruleId, weight, reason)) : ruleId ∈ termIds := by
  cases basis <;> simp only [basisWeight, Option.some.injEq, Prod.mk.injEq, reduceCtorEq] at h
  all_goals
    rw [← h.1]
    decide

theorem termRule_names : Names termIds (.ok (termRule u identity hit)) where
  named a h := by
    obtain ⟨term, -, h⟩ := Option.bind_eq_some_iff.mp (Except.ok.inj h)
    obtain ⟨⟨ruleId, weight, reason⟩, hweight, h⟩ := Option.bind_eq_some_iff.mp h
    simp only at h
    split at h
    · rw [← Option.some.inj h]
      exact basisWeight_id hweight
    · rw [← Option.some.inj h]
      simp [termIds]

theorem mentionRule_names :
    Names ["matcher.source-explicit-mention.v1"] (.ok (mentionRule u identity hit)) where
  named a h := by
    unfold mentionRule at h
    have h := Except.ok.inj h
    simp only at h
    split at h
    · cases h
    · rw [← Option.some.inj h]
      simp

theorem nameRule_names :
    Names ["matcher.canonical-name-exact.v1"] (.ok (nameRule u identity hit)) where
  named a h := by
    unfold nameRule at h
    have h := Except.ok.inj h
    split at h
    · rw [← Option.some.inj h]
      simp
    · cases h

theorem manufacturerRule_names :
    Names ["matcher.manufacturer-match.v1", "matcher.manufacturer-conflict.v1"]
      (.ok (manufacturerRule u identity hit)) where
  named a h := by
    obtain ⟨manufacturer, -, h⟩ := Option.bind_eq_some_iff.mp (Except.ok.inj h)
    simp only at h
    split at h
    · cases h
    · split at h
      · rw [← Option.some.inj h]
        simp
      · rw [← Option.some.inj h]
        simp

theorem datasheetRule_names : Names datasheetIds (datasheetRule u t identity hit) where
  named a h := by
    unfold datasheetRule at h
    simp only at h
    split at h
    · obtain ⟨target, -, h⟩ := bind_eq_ok.mp h
      obtain ⟨exact, -, h⟩ := bind_eq_ok.mp h
      cases exact with
      | some field =>
        rw [← Option.some.inj (Except.ok.inj h)]
        simp [datasheetIds]
      | none =>
        obtain ⟨targetTokens, -, h⟩ := bind_eq_ok.mp h
        obtain ⟨filename, -, h⟩ := bind_eq_ok.mp h
        cases filename with
        | some field =>
          rw [← Option.some.inj (Except.ok.inj h)]
          simp [datasheetIds]
        | none =>
          obtain ⟨sameDomain, -, h⟩ := bind_eq_ok.mp h
          cases sameDomain with
          | some field =>
            rw [← Option.some.inj (Except.ok.inj h)]
            simp [datasheetIds]
          | none =>
            obtain ⟨sourceTokens, -, h⟩ := bind_eq_ok.mp h
            have h := Except.ok.inj h
            split at h
            · rw [← Option.some.inj h]
              simp [datasheetIds]
            · cases h
    · cases h

theorem interfaceRule_names :
    Names ["matcher.interface-compatible.v1", "matcher.interface-conflict.v1"]
      (.ok (interfaceRule u identity hit)) where
  named a h := by
    unfold interfaceRule at h
    have h := Except.ok.inj h
    simp only at h
    split at h
    · cases h
    · split at h
      · rw [← Option.some.inj h]
        simp
      · rw [← Option.some.inj h]
        simp

theorem packageRule_names :
    Names ["matcher.package-compatible.v1", "matcher.package-conflict.v1"]
      (.ok (packageRule u identity hit)) where
  named a h := by
    obtain ⟨package, -, h⟩ := Option.bind_eq_some_iff.mp (Except.ok.inj h)
    simp only at h
    split at h
    · cases h
    · split at h
      · rw [← Option.some.inj h]
        simp
      · rw [← Option.some.inj h]
        simp

theorem pinCountRule_names :
    Names ["matcher.pin-count-compatible.v1", "matcher.pin-count-conflict.v1"]
      (pinCountRule u lower identity hit) where
  named a h := by
    unfold pinCountRule at h
    split at h
    · cases h
    · obtain ⟨expected, -, h⟩ := bind_eq_ok.mp h
      simp only at h
      split at h
      · cases h
      · split at h
        · rw [← Option.some.inj (Except.ok.inj h)]
          simp
        · rw [← Option.some.inj (Except.ok.inj h)]
          simp

theorem genericRule_names :
    Names ["matcher.generic-without-explicit-id.v1"] (.ok (genericRule u identity hit)) where
  named a h := by
    unfold genericRule at h
    have h := Except.ok.inj h
    split at h
    · rw [← Option.some.inj h]
      simp
    · cases h

/-- The identifiers of the rules, in the order of `rules`. -/
def ruleIds : List (List String) :=
  [termIds, ["matcher.source-explicit-mention.v1"], ["matcher.canonical-name-exact.v1"],
   ["matcher.manufacturer-match.v1", "matcher.manufacturer-conflict.v1"], datasheetIds,
   ["matcher.interface-compatible.v1", "matcher.interface-conflict.v1"],
   ["matcher.package-compatible.v1", "matcher.package-conflict.v1"],
   ["matcher.pin-count-compatible.v1", "matcher.pin-count-conflict.v1"],
   ["matcher.generic-without-explicit-id.v1"]]

theorem rules_named : List.Forall₂ Names ruleIds (rules u t lower identity hit) :=
  .cons termRule_names (.cons mentionRule_names (.cons nameRule_names (.cons manufacturerRule_names
    (.cons datasheetRule_names (.cons interfaceRule_names (.cons packageRule_names
      (.cons pinCountRule_names (.cons genericRule_names .nil))))))))

/-- A contribution is of a rule with its identifier. -/
theorem rule_of_applied {a : ContributionArguments} {name : String}
    (h : a ∈ applied u t lower identity hit) (hname : a.ruleId = name) :
    ∃ row ∈ (ruleIds.zip (rules u t lower identity hit)).filter fun row => name ∈ row.1,
      row.2 = .ok (some a) := by
  subst hname
  obtain ⟨rule, hrule, hjoin⟩ := List.mem_filterMap.mp h
  have hok : rule = .ok (some a) := by
    cases rule with
    | error e => cases hjoin
    | ok made => exact congrArg Except.ok hjoin
  have hall := @rules_named u t lower identity hit
  generalize rules u t lower identity hit = asked at hrule hall ⊢
  generalize ruleIds = idss at hall ⊢
  induction hall with
  | nil => cases hrule
  | @cons ids rule' idss asked hnamed hall ih =>
    rw [List.zip_cons_cons, List.filter_cons]
    rcases List.mem_cons.mp hrule with rfl | hrule
    · rw [if_pos (decide_eq_true (hnamed.named a hok))]
      exact ⟨_, List.mem_cons_self, hok⟩
    · obtain ⟨row, hrow, hrest⟩ := ih hrule
      refine ⟨row, ?_, hrest⟩
      split
      · exact List.mem_cons_of_mem _ hrow
      · exact hrow

theorem mem_applied {a : ContributionArguments} {rule : Except String (Option ContributionArguments)}
    (hrule : rule ∈ rules u t lower identity hit) (h : rule = .ok (some a)) :
    a ∈ applied u t lower identity hit :=
  List.mem_filterMap.mpr ⟨rule, hrule, by rw [h]; rfl⟩

/-- A rule that shares its identifiers with no other. -/
theorem manufacturerRule_of_applied {a : ContributionArguments}
    (h : a ∈ applied u t lower identity hit) (hname : a.ruleId = "matcher.manufacturer-match.v1") :
    manufacturerRule u identity hit = some a := by
  obtain ⟨row, hrow, hrule⟩ := rule_of_applied h hname
  simp [ruleIds, rules, termIds, datasheetIds] at hrow
  subst hrow
  exact Except.ok.inj hrule

theorem nameRule_of_applied {a : ContributionArguments}
    (h : a ∈ applied u t lower identity hit) (hname : a.ruleId = "matcher.canonical-name-exact.v1") :
    nameRule u identity hit = some a := by
  obtain ⟨row, hrow, hrule⟩ := rule_of_applied h hname
  simp [ruleIds, rules, termIds, datasheetIds] at hrow
  subst hrow
  exact Except.ok.inj hrule

theorem mentionRule_of_applied {a : ContributionArguments}
    (h : a ∈ applied u t lower identity hit)
    (hname : a.ruleId = "matcher.source-explicit-mention.v1") :
    mentionRule u identity hit = some a := by
  obtain ⟨row, hrow, hrule⟩ := rule_of_applied h hname
  simp [ruleIds, rules, termIds, datasheetIds] at hrow
  subst hrow
  exact Except.ok.inj hrule

/-- The rules of a term that stand for an identifier. -/
def identifierIds : List String :=
  ["matcher.part-number-exact.v1", "matcher.alias-exact.v1", "matcher.name-normalized.v1"]

theorem termRule_of_applied {a : ContributionArguments}
    (h : a ∈ applied u t lower identity hit) (hname : a.ruleId ∈ identifierIds) :
    termRule u identity hit = some a := by
  simp only [identifierIds, List.mem_cons, List.not_mem_nil, or_false] at hname
  rcases hname with hname | hname | hname
  all_goals
    obtain ⟨row, hrow, hrule⟩ := rule_of_applied h hname
    simp [ruleIds, rules, termIds, datasheetIds] at hrow
    subst hrow
    exact Except.ok.inj hrule

/-! ## Agreement -/

section Soundness

variable (u) (identity) (hit)

/-- Two texts agree: they have one key, and it is not empty. -/
def Agree (a b : String) : Prop := compact u a = compact u b ∧ compact u a ≠ ""

/-- Two texts differ: they do not agree, and are not equal up to NFKC and case. -/
def Differ (a b : String) : Prop := folded u a ≠ folded u b ∧ ¬ Agree u a b

/-- The manufacturers that a symbol hints at. -/
def hints : List String := hit.record.manufacturerHints.map (·.1)

/-- A key of the symbol is among these. -/
def Keyed (keys : List String) : Prop := ∃ key ∈ recordKeys u hit.record, key ∈ keys

/-- What a candidate says about agreement is so. -/
structure Sound (candidate : EnrichmentCandidate) : Prop where
  manufacturer : ∀ item ∈ candidate.relation.scoreBreakdown,
    item.ruleId = "matcher.manufacturer-match.v1" →
      ∃ manufacturer ∈ identity.manufacturer, ∃ hint ∈ hints hit, Agree u manufacturer.value hint
  conflict : ∀ manufacturer ∈ identity.manufacturer, hints hit ≠ [] →
    (∀ hint ∈ hints hit, Differ u manufacturer.value hint) →
      ∃ item ∈ candidate.relation.scoreBreakdown, item.ruleId = "matcher.manufacturer-conflict.v1"
  identifier : ∀ item ∈ candidate.relation.scoreBreakdown, item.ruleId ∈ identifierIds →
    ∃ named ∈ identityNames u identity, Agree u named.1 item.signal
  name : ∀ item ∈ candidate.relation.scoreBreakdown,
    item.ruleId = "matcher.canonical-name-exact.v1" →
      ∃ name ∈ symbolNames hit.record, Agree u identity.canonicalName.value name
  mention : ∀ item ∈ candidate.relation.scoreBreakdown,
    item.ruleId = "matcher.source-explicit-mention.v1" → item.sourceEvidence ≠ [] ∧
      ∀ evidence ∈ item.sourceEvidence, ∃ name ∈ symbolNames hit.record, compact u name ≠ "" ∧
        compact u name ∈ identifierKeys u evidence.rawText
  primary : identity.componentKind = .module →
    Keyed u hit (identifierKeysOf u identity.primaryIcCandidates) →
      candidate.decision ≠ .autoAccepted

/-- The rules that apply rate a symbol for acceptance. -/
structure Rated (t : HostTables) (lower : Char → Char) (threshold : Nat) : Prop where
  exact : ∃ term ∈ hit.matchedTerms, term.basis = .exactPartNumber
  specific : hit.record.isGeneric = false
  agreed : ∀ a ∈ applied u t lower identity hit, 0 < a.weight
  evidenced : 2 ≤ (((applied u t lower identity hit).filter fun a => 0 < a.weight).flatMap
    (·.evidence)).eraseDups.length
  scored : (threshold : Int) ≤ ((applied u t lower identity hit).map (·.weight)).sum

/-- No empty key meets another, and no chip of a module is taken for the module. -/
structure Clear (t : HostTables) (lower : Char → Char) (threshold : Nat) : Prop where
  manufacturer : ∀ manufacturer ∈ identity.manufacturer, compact u manufacturer.value = "" →
    ∀ hint ∈ hints hit, compact u hint ≠ ""
  identifier : ∀ term ∈ primaryTerm hit.matchedTerms,
    term.basis ∈ [.exactPartNumber, .alias, .normalizedName] → compact u term.query = "" →
      ∀ named ∈ identityNames u identity, compact u named.1 ≠ ""
  primary : identity.componentKind = .module →
    Keyed u hit (identifierKeysOf u identity.primaryIcCandidates) →
      Keyed u hit (identifierKeysOf u identity.partNumbers) →
        ¬ Rated u identity hit t lower threshold

variable {u identity hit}

theorem mem_recordKeys {key : String} : key ∈ recordKeys u hit.record ↔
    key ≠ "" ∧ ∃ name ∈ symbolNames hit.record, compact u name = key := by
  unfold recordKeys
  rw [List.mem_filter, List.mem_map, and_comm, decide_eq_true_eq]

theorem manufacturerRule_eq {manufacturer : IdentityValue}
    (h : identity.manufacturer = some manufacturer) (hne : hints hit ≠ []) :
    manufacturerRule u identity hit = some
      (if compact u manufacturer.value ∈ (hints hit).map (compact u) then
        ⟨"matcher.manufacturer-match.v1", manufacturer.value, 50,
          "Seeed and KiCad manufacturer identities agree.", manufacturer.evidence,
          commaJoined (hints hit)⟩
      else
        ⟨"matcher.manufacturer-conflict.v1", manufacturer.value, -500,
          "Seeed and KiCad identify different manufacturers.", manufacturer.evidence,
          commaJoined (hints hit)⟩) := by
  unfold manufacturerRule
  rw [h]
  change (if hints hit = [] then none else if _ then some _ else some _) = _
  rw [if_neg hne]
  split
  · rename_i hmem
    exact congrArg some (if_pos hmem).symm
  · rename_i hmem
    exact congrArg some (if_neg hmem).symm

theorem manufacturerRule_hints {a : ContributionArguments}
    (h : manufacturerRule u identity hit = some a) :
    ∃ manufacturer, identity.manufacturer = some manufacturer ∧ hints hit ≠ [] := by
  obtain ⟨manufacturer, hmanufacturer, h⟩ := Option.bind_eq_some_iff.mp h
  refine ⟨manufacturer, hmanufacturer, fun hempty => ?_⟩
  change (if hints hit = [] then none else _) = some a at h
  rw [if_pos hempty] at h
  cases h

theorem uniqueBy_eq_nil {α κ : Type} [DecidableEq κ] {key : α → κ} {xs : List α} :
    uniqueBy key xs = [] ↔ xs = [] := by
  cases xs <;> simp [uniqueBy]

theorem evidence_of_named {named : String × List EvidenceFragment}
    (h : named ∈ identityNames u identity) : named.2 ≠ [] := by
  unfold identityNames at h
  rcases List.mem_append.mp h with h | h
  · rcases List.mem_append.mp h with h | h
    · obtain ⟨item, -, rfl⟩ := List.mem_map.mp h
      exact item.evidenced
    · obtain ⟨item, -, rfl⟩ := List.mem_map.mp h
      exact item.evidenced
  · rw [List.mem_singleton.mp h]
    exact identity.canonicalName.evidenced

theorem identityTermEvidence_ne {query : String} : identityTermEvidence u identity query ≠ [] ↔
    ∃ named ∈ identityNames u identity, compact u named.1 = compact u query := by
  unfold identityTermEvidence
  rw [Ne, uniqueBy_eq_nil, List.flatMap_eq_nil_iff]
  push Not
  constructor
  · rintro ⟨named, hnamed, -⟩
    obtain ⟨hmem, hkey⟩ := List.mem_filter.mp hnamed
    exact ⟨named, hmem, of_decide_eq_true hkey⟩
  · rintro ⟨named, hmem, hkey⟩
    exact ⟨named, List.mem_filter.mpr ⟨hmem, decide_eq_true hkey⟩, evidence_of_named hmem⟩

/-! ## One kind of agreement each -/

theorem mem_breakdown {breakdown : List EnrichmentScoreContribution}
    (h : breakdown.map argumentsOf = applied u t lower identity hit)
    {item : EnrichmentScoreContribution} (hitem : item ∈ breakdown) :
    argumentsOf item ∈ applied u t lower identity hit :=
  h ▸ List.mem_map_of_mem hitem

theorem exists_of_applied {breakdown : List EnrichmentScoreContribution}
    (h : breakdown.map argumentsOf = applied u t lower identity hit)
    {a : ContributionArguments} (ha : a ∈ applied u t lower identity hit) :
    ∃ item ∈ breakdown, argumentsOf item = a := by
  rw [← h] at ha
  exact List.mem_map.mp ha

theorem rule_mem : .ok (manufacturerRule u identity hit) ∈ rules u t lower identity hit ∧
    .ok (termRule u identity hit) ∈ rules u t lower identity hit := by
  simp [rules]

/-- A manufacturer agrees only with a key. -/
theorem sound_manufacturer {breakdown : List EnrichmentScoreContribution}
    (h : breakdown.map argumentsOf = applied u t lower identity hit) :
    ((∀ item ∈ breakdown, item.ruleId = "matcher.manufacturer-match.v1" →
        ∃ manufacturer ∈ identity.manufacturer, ∃ hint ∈ hints hit,
          Agree u manufacturer.value hint) ∧
      ∀ manufacturer ∈ identity.manufacturer, hints hit ≠ [] →
        (∀ hint ∈ hints hit, Differ u manufacturer.value hint) →
          ∃ item ∈ breakdown, item.ruleId = "matcher.manufacturer-conflict.v1") ↔
      ∀ manufacturer ∈ identity.manufacturer, compact u manufacturer.value = "" →
        ∀ hint ∈ hints hit, compact u hint ≠ "" := by
  constructor
  · rintro ⟨hmatch, -⟩ manufacturer hmanufacturer hempty hint hhint hkey
    have hne : hints hit ≠ [] := List.ne_nil_of_mem hhint
    have hmem : compact u manufacturer.value ∈ (hints hit).map (compact u) :=
      List.mem_map.mpr ⟨hint, hhint, hkey.trans hempty.symm⟩
    have hrule := manufacturerRule_eq hmanufacturer hne
    rw [if_pos hmem] at hrule
    obtain ⟨item, hitem, hargs⟩ :=
      exists_of_applied h (mem_applied rule_mem.1 (congrArg Except.ok hrule))
    obtain ⟨other, hother, hint', -, hagree⟩ :=
      hmatch item hitem (congrArg ContributionArguments.ruleId hargs)
    obtain rfl := Option.some.inj (hmanufacturer.symm.trans hother)
    exact hagree.2 hempty
  · intro hclear
    constructor
    · intro item hitem hid
      have hrule := manufacturerRule_of_applied (mem_breakdown h hitem) hid
      obtain ⟨manufacturer, hmanufacturer, hne⟩ := manufacturerRule_hints hrule
      rw [manufacturerRule_eq hmanufacturer hne] at hrule
      have hargs := Option.some.inj hrule
      by_cases hmem : compact u manufacturer.value ∈ (hints hit).map (compact u)
      · obtain ⟨hint, hhint, hkey⟩ := List.mem_map.mp hmem
        refine ⟨manufacturer, hmanufacturer, hint, hhint, hkey.symm, fun hempty => ?_⟩
        exact hclear manufacturer hmanufacturer hempty hint hhint (hkey.trans hempty)
      · rw [if_neg hmem] at hargs
        have hother : "matcher.manufacturer-conflict.v1" = "matcher.manufacturer-match.v1" :=
          (congrArg ContributionArguments.ruleId hargs).trans hid
        exact absurd hother (by decide)
    · intro manufacturer hmanufacturer hne hdiffer
      have hmem : compact u manufacturer.value ∉ (hints hit).map (compact u) := by
        intro hmem
        obtain ⟨hint, hhint, hkey⟩ := List.mem_map.mp hmem
        refine (hdiffer hint hhint).2 ⟨hkey.symm, fun hempty => ?_⟩
        exact hclear manufacturer hmanufacturer hempty hint hhint (hkey.trans hempty)
      have hrule := manufacturerRule_eq hmanufacturer hne
      rw [if_neg hmem] at hrule
      obtain ⟨item, hitem, hargs⟩ :=
        exists_of_applied h (mem_applied rule_mem.1 (congrArg Except.ok hrule))
      exact ⟨item, hitem, congrArg ContributionArguments.ruleId hargs⟩

/-- The rule of a term that the identity knows. -/
theorem termRule_eq {term : KicadMatchedTerm} (hterm : primaryTerm hit.matchedTerms = some term)
    {ruleId reason : String} {weight : Int}
    (hweight : basisWeight term.basis = some (ruleId, weight, reason))
    (hevidence : identityTermEvidence u identity term.query ≠ []) :
    termRule u identity hit = some ⟨ruleId, term.query, weight, reason,
      identityTermEvidence u identity term.query, term.matchedValue⟩ := by
  unfold termRule
  rw [hterm]
  change (basisWeight term.basis).bind _ = _
  rw [hweight]
  change (if _ then some _ else some _) = _
  rw [if_pos hevidence]

/-- What a rule of an identifier says of its term. -/
theorem termRule_spec {a : ContributionArguments} (h : termRule u identity hit = some a)
    (hid : a.ruleId ∈ identifierIds) : ∃ term, primaryTerm hit.matchedTerms = some term ∧
      term.basis ∈ [.exactPartNumber, .alias, .normalizedName] ∧ a.signal = term.query ∧
      identityTermEvidence u identity term.query ≠ [] := by
  obtain ⟨term, hterm, h⟩ := Option.bind_eq_some_iff.mp h
  obtain ⟨⟨ruleId, weight, reason⟩, hweight, h⟩ := Option.bind_eq_some_iff.mp h
  simp only at h
  split at h
  · rename_i hevidence
    have hargs := Option.some.inj h
    refine ⟨term, hterm, ?_, congrArg ContributionArguments.signal hargs.symm, hevidence⟩
    have hid : ruleId ∈ identifierIds := by
      rw [← hargs] at hid
      exact hid
    cases hbasis : term.basis <;>
      simp only [hbasis, basisWeight, Option.some.injEq, Prod.mk.injEq, reduceCtorEq] at hweight
    case description =>
      rw [← hweight.1] at hid
      exact absurd hid (by decide)
    all_goals simp
  · rw [← Option.some.inj h] at hid
    exact absurd hid (by simp [identifierIds])

/-- A term agrees only with a key. -/
theorem sound_identifier {breakdown : List EnrichmentScoreContribution}
    (h : breakdown.map argumentsOf = applied u t lower identity hit) :
    (∀ item ∈ breakdown, item.ruleId ∈ identifierIds →
      ∃ named ∈ identityNames u identity, Agree u named.1 item.signal) ↔
    ∀ term ∈ primaryTerm hit.matchedTerms,
      term.basis ∈ [.exactPartNumber, .alias, .normalizedName] → compact u term.query = "" →
        ∀ named ∈ identityNames u identity, compact u named.1 ≠ "" := by
  constructor
  · intro hsound term hterm hbasis hempty named hnamed hkey
    have hevidence : identityTermEvidence u identity term.query ≠ [] :=
      identityTermEvidence_ne.mpr ⟨named, hnamed, hkey.trans hempty.symm⟩
    obtain ⟨ruleId, weight, reason, hweight, hid⟩ : ∃ ruleId weight reason,
        basisWeight term.basis = some (ruleId, weight, reason) ∧ ruleId ∈ identifierIds := by
      cases hb : term.basis <;> rw [hb] at hbasis
      case description => exact absurd hbasis (by decide)
      case manufacturerHint => exact absurd hbasis (by decide)
      all_goals exact ⟨_, _, _, rfl, by decide⟩
    have hrule := termRule_eq hterm hweight hevidence
    obtain ⟨item, hitem, hargs⟩ :=
      exists_of_applied h (mem_applied rule_mem.2 (congrArg Except.ok hrule))
    have hitemId : item.ruleId = ruleId := congrArg ContributionArguments.ruleId hargs
    have hsignal : item.signal = term.query := congrArg ContributionArguments.signal hargs
    obtain ⟨other, -, hagree⟩ := hsound item hitem (hitemId ▸ hid)
    exact hagree.2 (hagree.1.trans (hsignal ▸ hempty))
  · intro hclear item hitem hid
    obtain ⟨term, hterm, hbasis, hsignal, hevidence⟩ :=
      termRule_spec (termRule_of_applied (mem_breakdown h hitem) hid) hid
    obtain ⟨named, hnamed, hkey⟩ := identityTermEvidence_ne.mp hevidence
    have hsignal : item.signal = term.query := hsignal
    refine ⟨named, hnamed, hsignal ▸ hkey, fun hempty => ?_⟩
    exact hclear term hterm hbasis (hkey.symm.trans hempty) named hnamed hempty

/-- The name of a component agrees only with a key. -/
theorem sound_name {breakdown : List EnrichmentScoreContribution}
    (h : breakdown.map argumentsOf = applied u t lower identity hit) :
    ∀ item ∈ breakdown, item.ruleId = "matcher.canonical-name-exact.v1" →
      ∃ name ∈ symbolNames hit.record, Agree u identity.canonicalName.value name := by
  intro item hitem hid
  have hrule := nameRule_of_applied (mem_breakdown h hitem) hid
  unfold nameRule at hrule
  split at hrule
  · rename_i hmem
    obtain ⟨hne, name, hname, hkey⟩ := mem_recordKeys.mp hmem
    exact ⟨name, hname, hkey.symm, hne⟩
  · cases hrule

/-- A symbol is mentioned by a key. -/
theorem sound_mention {breakdown : List EnrichmentScoreContribution}
    (h : breakdown.map argumentsOf = applied u t lower identity hit) :
    ∀ item ∈ breakdown, item.ruleId = "matcher.source-explicit-mention.v1" →
      item.sourceEvidence ≠ [] ∧ ∀ evidence ∈ item.sourceEvidence,
        ∃ name ∈ symbolNames hit.record, compact u name ≠ "" ∧
          compact u name ∈ identifierKeys u evidence.rawText := by
  intro item hitem hid
  have hrule := mentionRule_of_applied (mem_breakdown h hitem) hid
  unfold mentionRule at hrule
  simp only at hrule
  split at hrule
  · cases hrule
  · rename_i hne
    have hevidence := congrArg ContributionArguments.evidence (Option.some.inj hrule)
    simp only [argumentsOf] at hevidence
    refine ⟨hevidence ▸ hne, fun evidence hmem => ?_⟩
    rw [← hevidence] at hmem
    obtain ⟨key, hkey, hfound⟩ := List.any_eq_true.mp (List.mem_filter.mp hmem).2
    obtain ⟨hne, name, hname, rfl⟩ := mem_recordKeys.mp hkey
    exact ⟨name, hname, hne, of_decide_eq_true hfound⟩

/-! ## The decision -/

theorem relation_of {digest version : String} {type : ComponentSymbolRelationType}
    {symbol : KicadSymbolRecord} {terms : List KicadMatchedTerm} {confidence : Int}
    {breakdown : List EnrichmentScoreContribution} {relation : ComponentSymbolRelation}
    (h : ComponentSymbolRelation.make digest type symbol terms confidence breakdown version =
      .ok relation) :
    relation.relationType = type ∧ relation.symbol = symbol ∧ relation.matchedTerms = terms ∧
      relation.confidenceBasisPoints = confidence ∧ relation.scoreBreakdown = breakdown := by
  unfold ComponentSymbolRelation.make at h
  obtain ⟨⟨_⟩, -, h⟩ := bind_eq_ok.mp h
  obtain ⟨⟨_⟩, -, h⟩ := bind_eq_ok.mp h
  obtain ⟨⟨_⟩, -, h⟩ := bind_eq_ok.mp h
  obtain ⟨⟨_⟩, -, h⟩ := bind_eq_ok.mp h
  obtain ⟨⟨_⟩, -, h⟩ := bind_eq_ok.mp h
  obtain ⟨⟨_⟩, -, h⟩ := bind_eq_ok.mp h
  rw [← Except.ok.inj h]
  exact ⟨rfl, rfl, rfl, rfl, rfl⟩

theorem candidate_of {relation : ComponentSymbolRelation} {decided : EnrichmentDecision}
    {review rejection : List String} {candidate : EnrichmentCandidate}
    (h : EnrichmentCandidate.make relation decided review rejection = .ok candidate) :
    candidate.relation = relation ∧ candidate.decision = decided := by
  unfold EnrichmentCandidate.make at h
  obtain ⟨⟨_⟩, -, h⟩ := bind_eq_ok.mp h
  obtain ⟨⟨_⟩, -, h⟩ := bind_eq_ok.mp h
  obtain ⟨⟨_⟩, -, h⟩ := bind_eq_ok.mp h
  obtain ⟨⟨_⟩, -, h⟩ := bind_eq_ok.mp h
  obtain ⟨⟨_⟩, -, h⟩ := bind_eq_ok.mp h
  obtain ⟨⟨_⟩, -, h⟩ := bind_eq_ok.mp h
  obtain ⟨⟨_⟩, -, h⟩ := bind_eq_ok.mp h
  obtain ⟨⟨_⟩, -, h⟩ := bind_eq_ok.mp h
  obtain ⟨⟨_⟩, -, h⟩ := bind_eq_ok.mp h
  obtain ⟨⟨_⟩, -, h⟩ := bind_eq_ok.mp h
  obtain ⟨⟨_⟩, -, h⟩ := bind_eq_ok.mp h
  obtain ⟨⟨_⟩, -, h⟩ := bind_eq_ok.mp h
  obtain ⟨⟨_⟩, -, h⟩ := bind_eq_ok.mp h
  rw [← Except.ok.inj h]
  exact ⟨rfl, rfl⟩

/-- What a scored hit is. -/
structure Scored (u : Unicode) (t : HostTables) (lower : Char → Char)
    (identity : ComponentIdentity u) (hit : KicadSearchHit) (matcher : SeeedKicadMatcher)
    (candidate : EnrichmentCandidate) : Prop where
  breakdown : candidate.relation.scoreBreakdown.map argumentsOf = applied u t lower identity hit
  relationType : candidate.relation.relationType = relationType u lower identity hit
  symbol : candidate.relation.symbol = hit.record
  matchedTerms : candidate.relation.matchedTerms = hit.matchedTerms
  confidence : candidate.relation.confidenceBasisPoints =
    breakdownConfidence candidate.relation.scoreBreakdown
  decision : candidate.decision = (decision matcher candidate.relation).1

theorem scoreHit_scored {digest : ComponentIdentity u → String} {matcher : SeeedKicadMatcher}
    {facts : NormalizedFacts} {candidate : EnrichmentCandidate}
    (h : scoreHit u t lower identity hit digest matcher facts = .ok candidate) :
    Scored u t lower identity hit matcher candidate := by
  obtain ⟨-, h⟩ := seq_eq_ok.mp h
  obtain ⟨breakdown, hscore, h⟩ := bind_eq_ok.mp h
  obtain ⟨relation, hrelation, h⟩ := bind_eq_ok.mp h
  obtain ⟨hrelation', hdecision⟩ := candidate_of h
  obtain ⟨htype, hsymbol, hterms, hconfidence, hbreakdown⟩ := relation_of hrelation
  subst hrelation'
  subst hbreakdown
  exact ⟨score_arguments hscore, htype, hsymbol, hterms, hconfidence, hdecision⟩

theorem decision_auto {matcher : SeeedKicadMatcher} {relation : ComponentSymbolRelation} :
    (decision matcher relation).1 = .autoAccepted ↔
      relation.relationType = .exactComponent ∧ relation.Exact ∧ relation.negativeEvidence = [] ∧
        relation.symbol.isGeneric = false ∧ 2 ≤ relation.positiveSourceEvidence.length ∧
        (matcher.threshold : Int) ≤ relation.confidenceBasisPoints := by
  unfold decision
  simp only
  split
  · rename_i hsevere
    refine iff_of_false (by simp) fun hauto => hsevere ?_
    rw [hauto.2.2.1]
    rfl
  · split
    · rename_i hauto
      exact iff_of_true rfl hauto
    · rename_i hauto
      split
      · exact iff_of_false (by simp) hauto
      · exact iff_of_false (by simp) hauto

theorem breakdownConfidence_ge {breakdown : List EnrichmentScoreContribution}
    {matcher : SeeedKicadMatcher} : (matcher.threshold : Int) ≤ breakdownConfidence breakdown ↔
      (matcher.threshold : Int) ≤ (breakdown.map (·.weightBasisPoints)).sum := by
  have hstrict := matcher.strict
  unfold breakdownConfidence
  omega

/-- A scored hit is accepted iff its rules rate it so and it is an exact component. -/
theorem accepted_iff {matcher : SeeedKicadMatcher} {candidate : EnrichmentCandidate}
    (h : Scored u t lower identity hit matcher candidate) : candidate.decision = .autoAccepted ↔
      relationType u lower identity hit = .exactComponent ∧
        Rated u identity hit t lower matcher.threshold := by
  have hnegative : candidate.relation.negativeEvidence = [] ↔
      ∀ a ∈ applied u t lower identity hit, 0 < a.weight := by
    unfold ComponentSymbolRelation.negativeEvidence
    rw [List.filter_eq_nil_iff, ← h.breakdown, List.forall_mem_map]
    simp [argumentsOf]
  have hpositive : candidate.relation.positiveSourceEvidence =
      (((applied u t lower identity hit).filter fun a => 0 < a.weight).flatMap
        (·.evidence)).eraseDups := by
    unfold ComponentSymbolRelation.positiveSourceEvidence
    rw [← h.breakdown, List.filter_map, List.flatMap_map]
    rfl
  have hweights : candidate.relation.scoreBreakdown.map (·.weightBasisPoints) =
      (applied u t lower identity hit).map (·.weight) := by
    rw [← h.breakdown, List.map_map]
    rfl
  rw [h.decision, decision_auto, h.relationType, hnegative, hpositive, h.confidence,
    breakdownConfidence_ge, hweights, h.symbol]
  unfold ComponentSymbolRelation.Exact
  rw [h.matchedTerms]
  constructor
  · rintro ⟨htype, hexact, hagreed, hspecific, hevidenced, hscored⟩
    exact ⟨htype, hexact, hspecific, hagreed, hevidenced, hscored⟩
  · rintro ⟨htype, hexact, hspecific, hagreed, hevidenced, hscored⟩
    exact ⟨htype, hexact, hagreed, hspecific, hevidenced, hscored⟩

/-- A part number of a module comes before its chips. -/
theorem relationType_module (hkind : identity.componentKind = .module)
    (hprimary : Keyed u hit (identifierKeysOf u identity.primaryIcCandidates)) :
    relationType u lower identity hit = .exactComponent ↔
      Keyed u hit (identifierKeysOf u identity.partNumbers) := by
  have hconnector : ¬ (identity.componentKind = .connector ∧ isConnector u hit) := by
    rw [hkind]
    simp
  unfold Keyed at hprimary ⊢
  unfold relationType
  rw [if_neg hconnector]
  by_cases hpart : ∃ key ∈ recordKeys u hit.record, key ∈ identifierKeysOf u identity.partNumbers
  · rw [if_pos hpart]
    exact iff_of_true rfl hpart
  · rw [if_neg hpart, if_pos hprimary, if_pos (Or.inl hkind)]
    exact iff_of_false (by simp) hpart

/-- **Agreement is sound iff no empty key meets another and no chip is taken for its module.** -/
theorem sound_iff (u : Unicode) (t : HostTables) (lower : Char → Char)
    (identity : ComponentIdentity u) (hit : KicadSearchHit) (digest : ComponentIdentity u → String)
    (matcher : SeeedKicadMatcher) (facts : NormalizedFacts) (candidate : EnrichmentCandidate)
    (h : scoreHit u t lower identity hit digest matcher facts = .ok candidate) :
    Sound u identity hit candidate ↔ Clear u identity hit t lower matcher.threshold := by
  have hscored := scoreHit_scored h
  have hbreakdown := hscored.breakdown
  constructor
  · intro hsound
    refine ⟨(sound_manufacturer hbreakdown).mp ⟨hsound.manufacturer, hsound.conflict⟩,
      (sound_identifier hbreakdown).mp hsound.identifier, fun hkind hprimary hpart hrated => ?_⟩
    exact hsound.primary hkind hprimary
      ((accepted_iff hscored).mpr ⟨(relationType_module hkind hprimary).mpr hpart, hrated⟩)
  · intro hclear
    obtain ⟨hmatch, hconflict⟩ := (sound_manufacturer hbreakdown).mpr hclear.manufacturer
    refine ⟨hmatch, hconflict, (sound_identifier hbreakdown).mpr hclear.identifier,
      sound_name hbreakdown, sound_mention hbreakdown, fun hkind hprimary haccepted => ?_⟩
    obtain ⟨htype, hrated⟩ := (accepted_iff hscored).mp haccepted
    exact hclear.primary hkind hprimary ((relationType_module hkind hprimary).mp htype) hrated

end Soundness

/-! ## Two makers -/

section Sample

/-- The identity of a page that names a maker. -/
def makerIdentity (maker : String) (h : Bounded 500 maker) : ComponentIdentity asciiUnicode where
  toIdentityRecord :=
    { titledIdentity (titledFacts seeedArtifact rfl) with
      manufacturer := some ⟨maker, "identity.manufacturer.v1", [titleEvidence], h, by decide,
        titleEvidence_ne_nil⟩ }
  accepted :=
    { @titledIdentity_accepted (titledFacts seeedArtifact rfl) rfl with
      sourced := by
        have hbreakdown : breakdownEvidence [titleScore] = [titleEvidence] := rfl
        simp [titledIdentity, IdentityRecord.evidenceGroups, hbreakdown, From, titleEvidence,
          titledFacts, seeedArtifact] }

/-- A memory that hints at a maker, found by the name of the page. -/
def memoryHit (maker : BoundedText 300) : KicadSearchHit where
  record :=
    { library := ⟨"Memory_Flash", by decide⟩
      symbolName := ⟨"W25Q32", by decide⟩
      normalizedNames := [⟨"w25q32", by decide⟩]
      manufacturerHints := [maker]
      sourcePath := ⟨"Memory_Flash.kicad_sym", by decide⟩
      sourceRevision := "0123456789abcdef0123456789abcdef01234567"
      parserVersion := ⟨"1.0.0", by decide⟩
      hintsUnique := List.nodup_singleton _ }
  matchedTerms := [⟨.description, "Grove - Sound Sensor", "sensor", title_bounded, by decide⟩]
  found := by simp
  distinct := by simp

def strictMatcher : SeeedKicadMatcher := ⟨970, by decide⟩

/-- The score of a hit on tables of one language. -/
def scoreMaker (maker hint : String) (h : Bounded 500 maker) (hhint : Bounded 300 hint) :
    Except String EnrichmentCandidate :=
  scoreHit asciiUnicode ⟨id, some⟩ Char.toLower (makerIdentity maker h) (memoryHit ⟨hint, hhint⟩)
    (fun _ => "0") strictMatcher (titledFacts seeedArtifact rfl)

theorem exists_of_isOk {α : Type} {x : Except String α} (h : x.isOk = true) : ∃ a, x = .ok a := by
  cases x with
  | error e => cases h
  | ok a => exact ⟨a, rfl⟩

/-- One maker in two spellings. -/
theorem sound_iff_maker : ∃ candidate,
    scoreMaker "Winbond" "WINBOND" (by decide) (by decide) = .ok candidate ∧
      Sound asciiUnicode (makerIdentity "Winbond" (by decide))
        (memoryHit ⟨"WINBOND", by decide⟩) candidate := by
  have hok : (scoreMaker "Winbond" "WINBOND" (by decide) (by decide)).isOk = true := by
    decide +kernel
  obtain ⟨candidate, h⟩ := exists_of_isOk hok
  refine ⟨candidate, h, (sound_iff _ _ _ _ _ _ _ _ _ h).mpr ⟨?_, ?_, ?_⟩⟩
  · decide +kernel
  · decide +kernel
  · intro hkind
    exact absurd hkind (by decide)

/-- Two makers of which no letter is in a key agree. -/
theorem empty_keys_agree : ∃ candidate,
    scoreMaker "华邦电子" "矽创电子" (by decide) (by decide) = .ok candidate ∧
      ¬ Sound asciiUnicode (makerIdentity "华邦电子" (by decide))
        (memoryHit ⟨"矽创电子", by decide⟩) candidate := by
  have hok : (scoreMaker "华邦电子" "矽创电子" (by decide) (by decide)).isOk = true := by
    decide +kernel
  obtain ⟨candidate, h⟩ := exists_of_isOk hok
  refine ⟨candidate, h, fun hsound => ?_⟩
  have hkeys := (sound_manufacturer (scoreHit_scored h).breakdown).mp
    ⟨hsound.manufacturer, hsound.conflict⟩
  exact hkeys _ rfl (by decide +kernel) "矽创电子" (by decide) (by decide +kernel)

end Sample

end ComponentKb.Pipeline.Matcher
