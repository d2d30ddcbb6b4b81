import ComponentKb.Pipeline.Context
import ComponentKb.Pipeline.Identity

/-!
# Symbol records and relations to them

What the enrichment stage works with: the records of the KiCad index and the terms a record was
found by (`models/kicad.py`), and the scored relation of a component to a record with the decision
on it (`models/enrichment.py`). The records come with their checks as fields; what the stage itself
builds has a checked constructor, and `make_passes` says when that returns.

Left out: the checks on the form of a digest, which every `hexdigest` has, and the digest of the
file a record was read from.
-/

namespace ComponentKb.Pipeline

open ComponentKb.Catalog (isBlank)
open ComponentKb.Lib

/-- `_REVISION`: forty hexadecimal digits. -/
def isRevision (value : String) : Bool :=
  value.length == 40 && value.toList.all fun c => c.isDigit || ('a' ≤ c && c ≤ 'f')

/-! ## Records of the index -/

structure KicadPin where
  number : BoundedText 160
  name : BoundedText 300
  electricalType : BoundedText 80
  unit : Nat
  unitValid : 1 ≤ unit ∧ unit ≤ 1000 := by decide
deriving DecidableEq

structure KicadSymbolRecord where
  library : BoundedText 300
  symbolName : BoundedText 500
  aliases : List (BoundedText 500) := []
  normalizedNames : List (BoundedText 500)
  description : Option (BoundedText 10000) := none
  keywords : List (BoundedText 200) := []
  manufacturerHints : List (BoundedText 300) := []
  datasheet : Option (BoundedText 2000) := none
  pins : List KicadPin := []
  footprintFilters : List (BoundedText 500) := []
  sourcePath : BoundedText 1000
  sourceRevision : String
  parserVersion : BoundedText 40
  isGeneric : Bool := false
  revised : isRevision sourceRevision = true := by decide
  aliasesUnique : aliases.Nodup := by decide
  namesUnique : normalizedNames.Nodup := by decide
  keywordsUnique : keywords.Nodup := by decide
  hintsUnique : manufacturerHints.Nodup := by decide
  filtersUnique : footprintFilters.Nodup := by decide
  named : normalizedNames ≠ [] := by simp
deriving DecidableEq

/-- `record_id`. -/
def KicadSymbolRecord.recordId (record : KicadSymbolRecord) : String :=
  record.library.1 ++ ":" ++ record.symbolName.1

/-- A record in another revision. -/
def KicadSymbolRecord.at (record : KicadSymbolRecord) (revision : String)
    (h : isRevision revision = true) : KicadSymbolRecord :=
  { record with sourceRevision := revision, revised := h }

structure KicadSymbolIndex where
  records : List KicadSymbolRecord
  sourceRevision : String
  revised : isRevision sourceRevision = true := by decide
  uniform : ∀ record ∈ records, record.sourceRevision = sourceRevision := by decide
  distinct : (records.map (·.recordId)).Nodup := by decide
deriving DecidableEq

/-! ## Matched terms -/

inductive KicadMatchBasis
  | exactPartNumber | alias | normalizedName | description | manufacturerHint
deriving DecidableEq

@[ext]
structure KicadMatchedTerm where
  basis : KicadMatchBasis
  query : String
  matchedValue : String
  asked : Bounded 500 query
  matched : Bounded 2000 matchedValue

instance : DecidableEq KicadMatchedTerm := fun a b =>
  decidable_of_iff (a.basis = b.basis ∧ a.query = b.query ∧ a.matchedValue = b.matchedValue)
    KicadMatchedTerm.ext_iff.symm

def KicadMatchedTerm.make (basis : KicadMatchBasis) (query matchedValue : String) :
    Except String KicadMatchedTerm := do
  let ⟨asked⟩ ← demand (Bounded 500 query) "kicad_match_query_invalid"
  let ⟨matched⟩ ← demand (Bounded 2000 matchedValue) "kicad_match_value_invalid"
  return { basis, query, matchedValue, asked, matched }

theorem KicadMatchedTerm.make_passes {basis : KicadMatchBasis} {query matchedValue : String} :
    Passes (KicadMatchedTerm.make basis query matchedValue)
      (Bounded 500 query ∧ Bounded 2000 matchedValue) fun term =>
        term.basis = basis ∧ term.query = query ∧ term.matchedValue = matchedValue := by
  refine Passes.bind_demand fun _ => ?_
  exact Passes.last fun _ => ⟨_, rfl, rfl, rfl, rfl⟩

structure KicadSearchHit where
  record : KicadSymbolRecord
  matchedTerms : List KicadMatchedTerm
  found : matchedTerms ≠ []
  distinct : matchedTerms.Nodup
deriving DecidableEq

def KicadSearchHit.make (record : KicadSymbolRecord) (matchedTerms : List KicadMatchedTerm) :
    Except String KicadSearchHit := do
  let ⟨found⟩ ← demand (matchedTerms ≠ []) "kicad_search_hit_terms_missing"
  let ⟨distinct⟩ ← demand matchedTerms.Nodup "kicad_search_hit_terms_duplicate"
  return { record, matchedTerms, found, distinct }

theorem KicadSearchHit.make_passes {record : KicadSymbolRecord}
    {matchedTerms : List KicadMatchedTerm} (hfound : matchedTerms ≠ [])
    (hdistinct : matchedTerms.Nodup) :
    Passes (KicadSearchHit.make record matchedTerms) True fun hit =>
      hit.record = record ∧ hit.matchedTerms = matchedTerms := by
  refine Passes.bind_met hfound ?_
  refine Passes.bind_met hdistinct ?_
  exact Passes.pure ⟨rfl, rfl⟩

@[ext]
structure KicadCandidateSet where
  identitySha256 : String
  indexSha256 : String
  indexRevision : String
  hits : List KicadSearchHit
  warnings : List String
  revised : isRevision indexRevision = true
  distinct : (hits.map (·.record.recordId)).Nodup
  warned : WarningsValid warnings

instance : DecidableEq KicadCandidateSet := fun a b =>
  decidable_of_iff (a.identitySha256 = b.identitySha256 ∧ a.indexSha256 = b.indexSha256 ∧
      a.indexRevision = b.indexRevision ∧ a.hits = b.hits ∧ a.warnings = b.warnings)
    KicadCandidateSet.ext_iff.symm

def KicadCandidateSet.make (identitySha256 indexSha256 indexRevision : String)
    (hits : List KicadSearchHit) (warnings : List String) : Except String KicadCandidateSet := do
  let ⟨revised⟩ ← demand (isRevision indexRevision = true) "kicad_candidate_index_revision_invalid"
  let ⟨distinct⟩ ← demand (hits.map (·.record.recordId)).Nodup "kicad_candidate_hits_duplicate"
  let ⟨short⟩ ← demand (∀ warning ∈ warnings, warning ≠ "" ∧ warning.length ≤ 160)
    "kicad_candidate_warning_invalid"
  let ⟨unique⟩ ← demand warnings.Nodup "kicad_candidate_warnings_duplicate"
  return { identitySha256, indexSha256, indexRevision, hits, warnings, revised, distinct
           warned := warningsValid short unique }

theorem KicadCandidateSet.make_passes {identitySha256 indexSha256 indexRevision : String}
    {hits : List KicadSearchHit} {warnings : List String}
    (hrevised : isRevision indexRevision = true)
    (hdistinct : (hits.map (·.record.recordId)).Nodup) (hwarned : WarningsValid warnings) :
    Passes (KicadCandidateSet.make identitySha256 indexSha256 indexRevision hits warnings) True
      fun candidates => candidates.identitySha256 = identitySha256 ∧
        candidates.indexRevision = indexRevision ∧ candidates.hits = hits := by
  refine Passes.bind_met hrevised ?_
  refine Passes.bind_met hdistinct ?_
  refine Passes.bind_met hwarned.1 ?_
  refine Passes.bind_met hwarned.2 ?_
  exact Passes.pure ⟨rfl, rfl, rfl⟩

/-! ## Relations -/

inductive ComponentSymbolRelationType
  | exactComponent | mainIntegratedCircuit | onboardComponent | connector | functionalEquivalent
deriving DecidableEq

def ComponentSymbolRelationType.value : ComponentSymbolRelationType → String
  | .exactComponent => "exact_component"
  | .mainIntegratedCircuit => "main_integrated_circuit"
  | .onboardComponent => "onboard_component"
  | .connector => "connector"
  | .functionalEquivalent => "functional_equivalent"

inductive EnrichmentDecision
  | autoAccepted | reviewRequired | rejected
deriving DecidableEq

@[ext]
structure EnrichmentScoreContribution where
  ruleId : String
  signal : String
  weightBasisPoints : Int
  reason : String
  sourceEvidence : List EvidenceFragment
  kicadEvidence : String
  ruled : isRuleId ruleId = true
  signalled : Bounded 1000 signal
  reasoned : Bounded 1000 reason
  evidenced : Bounded 4000 kicadEvidence
  weighed : weightBasisPoints ≠ 0 ∧ -1000 ≤ weightBasisPoints ∧ weightBasisPoints ≤ 1000
  sourced : 0 < weightBasisPoints → sourceEvidence ≠ []

instance : DecidableEq EnrichmentScoreContribution := fun a b =>
  decidable_of_iff (a.ruleId = b.ruleId ∧ a.signal = b.signal ∧
      a.weightBasisPoints = b.weightBasisPoints ∧ a.reason = b.reason ∧
      a.sourceEvidence = b.sourceEvidence ∧ a.kicadEvidence = b.kicadEvidence)
    EnrichmentScoreContribution.ext_iff.symm

/-- The arguments of an `EnrichmentScoreContribution`. -/
structure ContributionArguments where
  ruleId : String
  signal : String
  weight : Int
  reason : String
  evidence : List EvidenceFragment
  kicadEvidence : String
deriving DecidableEq

/-- `_contribution`. -/
def ContributionArguments.build (arguments : ContributionArguments) :
    Except String EnrichmentScoreContribution := do
  let ⟨ruled⟩ ← demand (isRuleId arguments.ruleId = true) "enrichment_score_rule_id_invalid"
  let ⟨signalled⟩ ← demand (Bounded 1000 arguments.signal) "enrichment_score_signal_invalid"
  let ⟨reasoned⟩ ← demand (Bounded 1000 arguments.reason) "enrichment_score_reason_invalid"
  let ⟨evidenced⟩ ← demand (Bounded 4000 arguments.kicadEvidence)
    "enrichment_score_kicad_evidence_invalid"
  let ⟨weighed⟩ ← demand
    (arguments.weight ≠ 0 ∧ -1000 ≤ arguments.weight ∧ arguments.weight ≤ 1000)
    "enrichment_score_weight_invalid"
  let ⟨sourced⟩ ← demand (0 < arguments.weight → arguments.evidence ≠ [])
    "enrichment_score_positive_evidence_missing"
  return ⟨arguments.ruleId, arguments.signal, arguments.weight, arguments.reason,
    arguments.evidence, arguments.kicadEvidence, ruled, signalled, reasoned, evidenced, weighed,
    sourced⟩

/-- What the rules of the matcher hold to in every contribution they ask for. -/
structure ContributionArguments.Regular (arguments : ContributionArguments) : Prop where
  ruled : isRuleId arguments.ruleId = true
  reasoned : Bounded 265 arguments.reason
  weighed : arguments.weight ≠ 0 ∧ -1000 ≤ arguments.weight ∧ arguments.weight ≤ 1000
  sourced : 0 < arguments.weight → arguments.evidence ≠ []

/-- A contribution is that of its arguments. -/
structure EnrichmentScoreContribution.Of (contribution : EnrichmentScoreContribution)
    (arguments : ContributionArguments) : Prop where
  ruleId : contribution.ruleId = arguments.ruleId
  weight : contribution.weightBasisPoints = arguments.weight
  reason : contribution.reason = arguments.reason

theorem ContributionArguments.build_passes {arguments : ContributionArguments}
    (h : arguments.Regular) :
    Passes arguments.build (Bounded 1000 arguments.signal ∧ Bounded 4000 arguments.kicadEvidence)
      fun contribution => contribution.Of arguments := by
  refine Passes.bind_met h.ruled ?_
  refine Passes.bind_demand fun _ => ?_
  refine Passes.bind_met (h.reasoned.mono (by decide)) ?_
  refine Passes.congr (Passes.bind_demand fun _ => ?_) (and_iff_left trivial)
  refine Passes.bind_met h.weighed ?_
  refine Passes.bind_met h.sourced ?_
  exact Passes.pure ⟨rfl, rfl, rfl⟩

/-- `max(0, min(1_000, sum(item.weight_basis_points for item in breakdown)))`. -/
def breakdownConfidence (breakdown : List EnrichmentScoreContribution) : Int :=
  max 0 (min 1000 (breakdown.map (·.weightBasisPoints)).sum)

@[ext]
structure ComponentSymbolRelation where
  identitySha256 : String
  relationType : ComponentSymbolRelationType
  symbol : KicadSymbolRecord
  matchedTerms : List KicadMatchedTerm
  confidenceBasisPoints : Int
  scoreBreakdown : List EnrichmentScoreContribution
  matcherVersion : String
  found : matchedTerms ≠ []
  distinct : matchedTerms.Nodup
  broken : scoreBreakdown ≠ []
  apart : (scoreBreakdown.map fun item => (item.ruleId, item.signal)).Nodup
  confident : confidenceBasisPoints = breakdownConfidence scoreBreakdown
  versioned : isVersion matcherVersion = true

instance : DecidableEq ComponentSymbolRelation := fun a b =>
  decidable_of_iff (a.identitySha256 = b.identitySha256 ∧ a.relationType = b.relationType ∧
      a.symbol = b.symbol ∧ a.matchedTerms = b.matchedTerms ∧
      a.confidenceBasisPoints = b.confidenceBasisPoints ∧ a.scoreBreakdown = b.scoreBreakdown ∧
      a.matcherVersion = b.matcherVersion)
    ComponentSymbolRelation.ext_iff.symm

def ComponentSymbolRelation.make (identitySha256 : String)
    (relationType : ComponentSymbolRelationType) (symbol : KicadSymbolRecord)
    (matchedTerms : List KicadMatchedTerm) (confidenceBasisPoints : Int)
    (scoreBreakdown : List EnrichmentScoreContribution) (matcherVersion : String) :
    Except String ComponentSymbolRelation := do
  let ⟨found⟩ ← demand (matchedTerms ≠ []) "component_symbol_relation_terms_missing"
  let ⟨distinct⟩ ← demand matchedTerms.Nodup "component_symbol_relation_terms_duplicate"
  let ⟨broken⟩ ← demand (scoreBreakdown ≠ []) "component_symbol_relation_breakdown_missing"
  let ⟨apart⟩ ← demand (scoreBreakdown.map fun item => (item.ruleId, item.signal)).Nodup
    "component_symbol_relation_breakdown_duplicate"
  let ⟨confident⟩ ← demand (confidenceBasisPoints = breakdownConfidence scoreBreakdown)
    "component_symbol_relation_confidence_mismatch"
  let ⟨versioned⟩ ← demand (isVersion matcherVersion = true)
    "component_symbol_relation_matcher_version_invalid"
  return ⟨identitySha256, relationType, symbol, matchedTerms, confidenceBasisPoints,
    scoreBreakdown, matcherVersion, found, distinct, broken, apart, confident, versioned⟩

namespace ComponentSymbolRelation

variable (relation : ComponentSymbolRelation)

/-- `negative_evidence`. -/
def negativeEvidence : List EnrichmentScoreContribution :=
  relation.scoreBreakdown.filter fun item => ¬ 0 < item.weightBasisPoints

/-- `_positive_source_evidence`. -/
def positiveSourceEvidence : List EvidenceFragment :=
  ((relation.scoreBreakdown.filter fun item => 0 < item.weightBasisPoints).flatMap
    (·.sourceEvidence)).eraseDups

/-- A term that is an exact part number. -/
def Exact : Prop := ∃ term ∈ relation.matchedTerms, term.basis = .exactPartNumber

instance : Decidable relation.Exact := inferInstanceAs (Decidable (∃ _ ∈ _, _))

end ComponentSymbolRelation

/-! ## Decisions -/

/-- The check of either list of reasons. -/
abbrev ReasonsValid (reasons : List String) : Prop :=
  (∀ reason ∈ reasons, isBlank reason = false ∧ reason.length ≤ 300) ∧ reasons.Nodup

/-- What an automatic acceptance asks of the relation, in the order of the checks. -/
structure ComponentSymbolRelation.AutoAcceptable (relation : ComponentSymbolRelation) : Prop where
  component : relation.relationType = .exactComponent
  specific : relation.symbol.isGeneric = false
  confident : 950 ≤ relation.confidenceBasisPoints
  agreed : relation.negativeEvidence = []
  exact : relation.Exact
  evidenced : 2 ≤ relation.positiveSourceEvidence.length

structure EnrichmentCandidate where
  relation : ComponentSymbolRelation
  decision : EnrichmentDecision
  reviewReasons : List String
  rejectionReasons : List String
  reviewValid : ReasonsValid reviewReasons
  rejectionValid : ReasonsValid rejectionReasons
  accepted : decision = .autoAccepted →
    relation.AutoAcceptable ∧ reviewReasons = [] ∧ rejectionReasons = []
  reviewed : decision = .reviewRequired → reviewReasons ≠ [] ∧ rejectionReasons = []
  refused : decision = .rejected → rejectionReasons ≠ [] ∧ reviewReasons = []

/-- The constructor. The checks of a branch are guarded by the decision that selects it. -/
def EnrichmentCandidate.make (relation : ComponentSymbolRelation) (decision : EnrichmentDecision)
    (reviewReasons rejectionReasons : List String) : Except String EnrichmentCandidate := do
  let ⟨reviewTexts⟩ ← demand (∀ reason ∈ reviewReasons, isBlank reason = false ∧
    reason.length ≤ 300) "enrichment_candidate_reason_invalid"
  let ⟨reviewUnique⟩ ← demand reviewReasons.Nodup "enrichment_candidate_reasons_duplicate"
  let ⟨rejectionTexts⟩ ← demand (∀ reason ∈ rejectionReasons, isBlank reason = false ∧
    reason.length ≤ 300) "enrichment_candidate_reason_invalid"
  let ⟨rejectionUnique⟩ ← demand rejectionReasons.Nodup "enrichment_candidate_reasons_duplicate"
  let ⟨component⟩ ← demand
    (decision = .autoAccepted → relation.relationType = .exactComponent)
    "enrichment_candidate_auto_accept_relation_invalid"
  let ⟨specific⟩ ← demand (decision = .autoAccepted → relation.symbol.isGeneric = false)
    "enrichment_candidate_generic_auto_accept_forbidden"
  let ⟨confident⟩ ← demand (decision = .autoAccepted → 950 ≤ relation.confidenceBasisPoints)
    "enrichment_candidate_auto_accept_confidence_invalid"
  let ⟨agreed⟩ ← demand (decision = .autoAccepted → relation.negativeEvidence = [])
    "enrichment_candidate_auto_accept_negative_evidence"
  let ⟨exact⟩ ← demand (decision = .autoAccepted → relation.Exact)
    "enrichment_candidate_auto_accept_exact_match_missing"
  let ⟨evidenced⟩ ← demand
    (decision = .autoAccepted → 2 ≤ relation.positiveSourceEvidence.length)
    "enrichment_candidate_auto_accept_evidence_insufficient"
  let ⟨silent⟩ ← demand
    (decision = .autoAccepted → reviewReasons = [] ∧ rejectionReasons = [])
    "enrichment_candidate_auto_accept_reasons_forbidden"
  let ⟨reviewed⟩ ← demand
    (decision = .reviewRequired → reviewReasons ≠ [] ∧ rejectionReasons = [])
    "enrichment_candidate_review_reasons_invalid"
  let ⟨refused⟩ ← demand (decision = .rejected → rejectionReasons ≠ [] ∧ reviewReasons = [])
    "enrichment_candidate_rejection_reasons_invalid"
  return ⟨relation, decision, reviewReasons, rejectionReasons, ⟨reviewTexts, reviewUnique⟩,
    ⟨rejectionTexts, rejectionUnique⟩, fun h => ⟨⟨component h, specific h, confident h, agreed h,
    exact h, evidenced h⟩, silent h⟩, reviewed, refused⟩

end ComponentKb.Pipeline
