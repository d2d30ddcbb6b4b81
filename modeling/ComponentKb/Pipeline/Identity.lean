import ComponentKb.Lib.Passing
import ComponentKb.Lib.Ranking
import ComponentKb.Pipeline.Facts
import Mathlib

/-!
# Component identities

What the resolver builds (`models/component_identity.py`): named values and aliases with their
evidence, contributions to a score, candidates for the kind and the category of a component, and
the identity with its cross-field rules. Each constructor is a checked computation that makes the
checks of `__post_init__` in their order and keeps them as fields; the `make_passes` of each says
when it returns.

Left out: `normalized_facts_sha256`, which its own check makes the digest of `normalized_facts`.
-/

namespace ComponentKb.Pipeline

open ComponentKb.Catalog (Unicode isSlugChar)
open ComponentKb.Lib ComponentKb.Lib.Ranking

/-- `_KEY`. -/
def isKey (value : String) : Bool :=
  matchesRun isLower (fun c => isSlugChar c || c == '-') 79 value

inductive ComponentKind
  | module | developmentBoard | discreteComponent | integratedCircuit | connector | genericUnknown
deriving DecidableEq

def ComponentKind.value : ComponentKind → String
  | .module => "module"
  | .developmentBoard => "development_board"
  | .discreteComponent => "discrete_component"
  | .integratedCircuit => "integrated_circuit"
  | .connector => "connector"
  | .genericUnknown => "generic_unknown"

inductive IdentityConfidence
  | high | medium | low
deriving DecidableEq

inductive IdentityResolutionStatus
  | autoResolved | reviewRequired | unresolved
deriving DecidableEq

/-! ## Values with evidence -/

@[ext]
structure IdentityValue where
  value : String
  ruleId : String
  evidence : List EvidenceFragment
  bounded : Bounded 500 value
  ruled : isRuleId ruleId = true
  evidenced : evidence ≠ []

instance : DecidableEq IdentityValue := fun a b =>
  decidable_of_iff (a.value = b.value ∧ a.ruleId = b.ruleId ∧ a.evidence = b.evidence)
    IdentityValue.ext_iff.symm

def IdentityValue.make (value ruleId : String) (evidence : List EvidenceFragment) :
    Except String IdentityValue := do
  let ⟨bounded⟩ ← demand (Bounded 500 value) "identity_value_invalid"
  let ⟨ruled⟩ ← demand (isRuleId ruleId = true) "identity_value_rule_invalid"
  let ⟨evidenced⟩ ← demand (evidence ≠ []) "identity_value_evidence_missing"
  return { value, ruleId, evidence, bounded, ruled, evidenced }

theorem IdentityValue.make_passes {value ruleId : String} {evidence : List EvidenceFragment}
    (hruled : isRuleId ruleId = true) (hevidenced : evidence ≠ []) :
    Passes (IdentityValue.make value ruleId evidence) (Bounded 500 value) fun named =>
      named.value = value ∧ named.evidence = evidence := by
  refine Passes.congr (Passes.bind_demand fun _ => ?_) (and_iff_left trivial)
  refine Passes.bind_met hruled ?_
  refine Passes.bind_met hevidenced ?_
  exact Passes.pure ⟨rfl, rfl⟩

@[ext]
structure IdentityAlias where
  value : String
  reason : String
  evidence : List EvidenceFragment
  bounded : Bounded 500 value
  ruled : isRuleId reason = true
  evidenced : evidence ≠ []

instance : DecidableEq IdentityAlias := fun a b =>
  decidable_of_iff (a.value = b.value ∧ a.reason = b.reason ∧ a.evidence = b.evidence)
    IdentityAlias.ext_iff.symm

def IdentityAlias.make (value reason : String) (evidence : List EvidenceFragment) :
    Except String IdentityAlias := do
  let ⟨bounded⟩ ← demand (Bounded 500 value) "identity_alias_invalid"
  let ⟨ruled⟩ ← demand (isRuleId reason = true) "identity_alias_reason_invalid"
  let ⟨evidenced⟩ ← demand (evidence ≠ []) "identity_alias_evidence_missing"
  return { value, reason, evidence, bounded, ruled, evidenced }

theorem IdentityAlias.make_passes {value reason : String} {evidence : List EvidenceFragment}
    (hruled : isRuleId reason = true) (hevidenced : evidence ≠ []) :
    Passes (IdentityAlias.make value reason evidence) (Bounded 500 value) fun named =>
      named.value = value ∧ named.evidence = evidence := by
  refine Passes.congr (Passes.bind_demand fun _ => ?_) (and_iff_left trivial)
  refine Passes.bind_met hruled ?_
  refine Passes.bind_met hevidenced ?_
  exact Passes.pure ⟨rfl, rfl⟩

@[ext]
structure ScoreContribution where
  ruleId : String
  signal : String
  weight : Int
  reason : String
  evidence : List EvidenceFragment
  ruled : isRuleId ruleId = true
  signalled : Bounded 1000 signal
  reasoned : Bounded 1000 reason
  weighed : weight ≠ 0 ∧ -100 ≤ weight ∧ weight ≤ 100
  evidenced : evidence ≠ []

instance : DecidableEq ScoreContribution := fun a b =>
  decidable_of_iff (a.ruleId = b.ruleId ∧ a.signal = b.signal ∧ a.weight = b.weight ∧
      a.reason = b.reason ∧ a.evidence = b.evidence)
    ScoreContribution.ext_iff.symm

def ScoreContribution.make (ruleId signal : String) (weight : Int) (reason : String)
    (evidence : List EvidenceFragment) : Except String ScoreContribution := do
  let ⟨ruled⟩ ← demand (isRuleId ruleId = true) "score_rule_id_invalid"
  let ⟨signalled⟩ ← demand (Bounded 1000 signal) "score_signal_invalid"
  let ⟨reasoned⟩ ← demand (Bounded 1000 reason) "score_reason_invalid"
  let ⟨weighed⟩ ← demand (weight ≠ 0 ∧ -100 ≤ weight ∧ weight ≤ 100) "score_weight_invalid"
  let ⟨evidenced⟩ ← demand (evidence ≠ []) "score_evidence_missing"
  return ⟨ruleId, signal, weight, reason, evidence, ruled, signalled, reasoned, weighed, evidenced⟩

theorem ScoreContribution.make_passes {ruleId signal reason : String} {weight : Int}
    {evidence : List EvidenceFragment} (hruled : isRuleId ruleId = true)
    (hreasoned : Bounded 1000 reason) (hweighed : 0 < weight ∧ weight ≤ 100)
    (hevidenced : evidence ≠ []) :
    Passes (ScoreContribution.make ruleId signal weight reason evidence) (Bounded 1000 signal)
      fun contribution => contribution.weight = weight ∧ contribution.evidence = evidence := by
  refine Passes.bind_met hruled ?_
  refine Passes.congr (Passes.bind_demand fun _ => ?_) (and_iff_left trivial)
  refine Passes.bind_met hreasoned ?_
  refine Passes.bind_met ⟨hweighed.1.ne', by omega, hweighed.2⟩ ?_
  refine Passes.bind_met hevidenced ?_
  exact Passes.pure ⟨rfl, rfl⟩

/-- `tuple(dict.fromkeys(...))` over the evidence of the contributions. -/
def breakdownEvidence (breakdown : List ScoreContribution) : List EvidenceFragment :=
  (breakdown.flatMap (·.evidence)).eraseDups

structure CategoryCandidate where
  categoryKey : String
  score : Int
  breakdown : List ScoreContribution
  keyed : isKey categoryKey = true
  scored : 0 ≤ score ∧ score ≤ 100
  broken : breakdown ≠ []
deriving DecidableEq

def CategoryCandidate.make (categoryKey : String) (score : Int)
    (breakdown : List ScoreContribution) : Except String CategoryCandidate := do
  let ⟨keyed⟩ ← demand (isKey categoryKey = true) "category_candidate_key_invalid"
  let ⟨scored⟩ ← demand (0 ≤ score ∧ score ≤ 100) "category_candidate_score_invalid"
  let ⟨broken⟩ ← demand (breakdown ≠ []) "category_candidate_breakdown_missing"
  return { categoryKey, score, breakdown, keyed, scored, broken }

theorem CategoryCandidate.make_passes {categoryKey : String} {score : Int}
    {breakdown : List ScoreContribution} (hkeyed : isKey categoryKey = true)
    (hscored : 0 ≤ score ∧ score ≤ 100) (hbroken : breakdown ≠ []) :
    Passes (CategoryCandidate.make categoryKey score breakdown) True fun candidate =>
      candidate.categoryKey = categoryKey ∧ candidate.score = score ∧
        candidate.breakdown = breakdown := by
  refine Passes.bind_met hkeyed ?_
  refine Passes.bind_met hscored ?_
  refine Passes.bind_met hbroken ?_
  exact Passes.pure ⟨rfl, rfl, rfl⟩

structure KindCandidate where
  kind : ComponentKind
  score : Int
  breakdown : List ScoreContribution
  scored : 0 ≤ score ∧ score ≤ 100
  broken : breakdown ≠ []
deriving DecidableEq

def KindCandidate.make (kind : ComponentKind) (score : Int) (breakdown : List ScoreContribution) :
    Except String KindCandidate := do
  let ⟨scored⟩ ← demand (0 ≤ score ∧ score ≤ 100) "kind_candidate_score_invalid"
  let ⟨broken⟩ ← demand (breakdown ≠ []) "kind_candidate_breakdown_missing"
  return { kind, score, breakdown, scored, broken }

theorem KindCandidate.make_passes {kind : ComponentKind} {score : Int}
    {breakdown : List ScoreContribution} (hscored : 0 ≤ score ∧ score ≤ 100)
    (hbroken : breakdown ≠ []) :
    Passes (KindCandidate.make kind score breakdown) True fun candidate =>
      candidate.kind = kind ∧ candidate.score = score ∧ candidate.breakdown = breakdown := by
  refine Passes.bind_met hscored ?_
  refine Passes.bind_met hbroken ?_
  exact Passes.pure ⟨rfl, rfl, rfl⟩

/-- `sorted(kind_candidates, key=lambda item: (-item.score, item.kind.value))`. -/
def rankKinds (candidates : List KindCandidate) : List KindCandidate :=
  rank KindCandidate.score (fun candidate => candidate.kind.value) candidates

/-- `sorted(category_candidates, key=lambda item: (-item.score, item.category_key))`. -/
def rankCategories (candidates : List CategoryCandidate) : List CategoryCandidate :=
  rank CategoryCandidate.score CategoryCandidate.categoryKey candidates

/-! ## The identity -/

/-- The fields of a `ComponentIdentity`, before its checks. -/
structure IdentityRecord where
  artifact : SourceArtifactMetadata
  normalizedFacts : NormalizedFacts
  canonicalName : IdentityValue
  manufacturer : Option IdentityValue
  productIdentifiers : List NormalizedIdentifier
  partNumbers : List NormalizedIdentifier
  primaryIcCandidates : List NormalizedIdentifier
  aliases : List IdentityAlias
  componentKind : ComponentKind
  kindCandidates : List KindCandidate
  selectedCategory : Option String
  categoryCandidates : List CategoryCandidate
  confidence : IdentityConfidence
  resolutionStatus : IdentityResolutionStatus
  warnings : List String
deriving DecidableEq

def expectedConfidence : IdentityResolutionStatus → IdentityConfidence
  | .autoResolved => .high
  | .reviewRequired => .medium
  | .unresolved => .low

/-- An alias that names a primary IC, up to case. -/
def NamesPrimaryIc (u : Unicode) (primaryIcs : List NormalizedIdentifier) (value : String) : Prop :=
  u.casefold value ∈ primaryIcs.map fun item => u.casefold item.trace.normalizedValue

instance (u : Unicode) (primaryIcs : List NormalizedIdentifier) (value : String) :
    Decidable (NamesPrimaryIc u primaryIcs value) := inferInstanceAs (Decidable (_ ∈ _))

namespace IdentityRecord

/-- `evidence_groups`. -/
def evidenceGroups (record : IdentityRecord) : List (List EvidenceFragment) :=
  [record.canonicalName.evidence] ++ record.aliases.map (·.evidence) ++
    record.kindCandidates.map (fun candidate => breakdownEvidence candidate.breakdown) ++
    record.categoryCandidates.map (fun candidate => breakdownEvidence candidate.breakdown) ++
    record.productIdentifiers.map (·.evidence) ++ record.partNumbers.map (·.evidence) ++
    record.primaryIcCandidates.map (·.evidence) ++ record.manufacturer.toList.map (·.evidence)

/-- The checks of `ComponentIdentity.__post_init__`, one field for each. -/
structure Accepted (u : Unicode) (record : IdentityRecord) : Prop where
  artifact : record.normalizedFacts.artifact = record.artifact
  keyed : ∀ key ∈ record.selectedCategory, isKey key = true
  kinds : record.kindCandidates ≠ []
  kind : record.kindCandidates.head?.map (·.kind) = some record.componentKind
  kindsUnique : (record.kindCandidates.map (·.kind)).Nodup
  kindsOrdered : record.kindCandidates = rankKinds record.kindCandidates
  categoriesUnique : (record.categoryCandidates.map (·.categoryKey)).Nodup
  categoriesOrdered : record.categoryCandidates = rankCategories record.categoryCandidates
  category : ∀ key ∈ record.selectedCategory,
    record.categoryCandidates.head?.map (·.categoryKey) = some key
  confidence : record.confidence = expectedConfidence record.resolutionStatus
  selection : record.resolutionStatus = .autoResolved ↔ record.selectedCategory ≠ none
  products : ∀ item ∈ record.productIdentifiers, item.kind ≠ .partNumber
  parts : ∀ item ∈ record.partNumbers, item.kind = .partNumber
  primaryIcs : ∀ item ∈ record.primaryIcCandidates, item.kind = .partNumber
  moduleAliases : record.componentKind = .module →
    ∀ item ∈ record.aliases, ¬ NamesPrimaryIc u record.primaryIcCandidates item.value
  moduleCategory : record.componentKind = .module →
    record.selectedCategory ≠ some "integrated-circuits"
  sourced : ∀ group ∈ record.evidenceGroups, From record.artifact.source group
  warned : ∀ warning ∈ record.warnings, warning ≠ "" ∧ warning.length ≤ 160
  warningsUnique : record.warnings.Nodup

end IdentityRecord

/-- `ComponentIdentity`. -/
structure ComponentIdentity (u : Unicode) extends IdentityRecord where
  accepted : toIdentityRecord.Accepted u

def ComponentIdentity.make (u : Unicode) (record : IdentityRecord) :
    Except String (ComponentIdentity u) := do
  let ⟨artifact⟩ ← demand (record.normalizedFacts.artifact = record.artifact)
    "identity_artifact_mismatch"
  let ⟨keyed⟩ ← demand (∀ key ∈ record.selectedCategory, isKey key = true)
    "identity_selected_category_invalid"
  let ⟨kinds⟩ ← demand (record.kindCandidates ≠ []) "identity_kind_candidates_missing"
  let ⟨kind⟩ ← demand (record.kindCandidates.head?.map (·.kind) = some record.componentKind)
    "identity_component_kind_candidate_mismatch"
  let ⟨kindsUnique⟩ ← demand (record.kindCandidates.map (·.kind)).Nodup
    "identity_kind_candidates_duplicate"
  let ⟨kindsOrdered⟩ ← demand (record.kindCandidates = rankKinds record.kindCandidates)
    "identity_kind_candidates_order_invalid"
  let ⟨categoriesUnique⟩ ← demand (record.categoryCandidates.map (·.categoryKey)).Nodup
    "identity_category_candidates_duplicate"
  let ⟨categoriesOrdered⟩ ← demand
    (record.categoryCandidates = rankCategories record.categoryCandidates)
    "identity_category_candidates_order_invalid"
  let ⟨category⟩ ← demand (∀ key ∈ record.selectedCategory,
    record.categoryCandidates.head?.map (·.categoryKey) = some key)
    "identity_category_candidate_mismatch"
  let ⟨confidence⟩ ← demand (record.confidence = expectedConfidence record.resolutionStatus)
    "identity_resolution_confidence_mismatch"
  let ⟨selection⟩ ← demand
    (record.resolutionStatus = .autoResolved ↔ record.selectedCategory ≠ none)
    "identity_resolution_selection_mismatch"
  let ⟨products⟩ ← demand (∀ item ∈ record.productIdentifiers, item.kind ≠ .partNumber)
    "identity_product_identifier_kind_invalid"
  let ⟨parts⟩ ← demand (∀ item ∈ record.partNumbers, item.kind = .partNumber)
    "identity_part_number_kind_invalid"
  let ⟨primaryIcs⟩ ← demand (∀ item ∈ record.primaryIcCandidates, item.kind = .partNumber)
    "identity_primary_ic_kind_invalid"
  let ⟨moduleAliases⟩ ← demand (record.componentKind = .module →
    ∀ item ∈ record.aliases, ¬ NamesPrimaryIc u record.primaryIcCandidates item.value)
    "identity_module_primary_ic_alias_forbidden"
  let ⟨moduleCategory⟩ ← demand (record.componentKind = .module →
    record.selectedCategory ≠ some "integrated-circuits") "identity_module_ic_category_forbidden"
  let ⟨sourced⟩ ← demand (∀ group ∈ record.evidenceGroups, From record.artifact.source group)
    "identity_evidence_source_mismatch"
  let ⟨warned⟩ ← demand (∀ warning ∈ record.warnings, warning ≠ "" ∧ warning.length ≤ 160)
    "identity_warning_invalid"
  let ⟨warningsUnique⟩ ← demand record.warnings.Nodup "identity_warnings_must_be_unique"
  return ⟨record, artifact, keyed, kinds, kind, kindsUnique, kindsOrdered, categoriesUnique,
    categoriesOrdered, category, confidence, selection, products, parts, primaryIcs, moduleAliases,
    moduleCategory, sourced, warned, warningsUnique⟩

theorem ComponentIdentity.make_accepted {u : Unicode} {record : IdentityRecord}
    {identity : ComponentIdentity u} (h : ComponentIdentity.make u record = .ok identity) :
    record.Accepted u := by
  simp only [ComponentIdentity.make, bind_eq_ok] at h
  obtain ⟨⟨artifact⟩, -, ⟨keyed⟩, -, ⟨kinds⟩, -, ⟨kind⟩, -, ⟨kindsUnique⟩, -, ⟨kindsOrdered⟩, -,
    ⟨categoriesUnique⟩, -, ⟨categoriesOrdered⟩, -, ⟨category⟩, -, ⟨confidence⟩, -,
    ⟨selection⟩, -, ⟨products⟩, -, ⟨parts⟩, -, ⟨primaryIcs⟩, -, ⟨moduleAliases⟩, -,
    ⟨moduleCategory⟩, -, ⟨sourced⟩, -, ⟨warned⟩, -, ⟨warningsUnique⟩, -, -⟩ := h
  exact ⟨artifact, keyed, kinds, kind, kindsUnique, kindsOrdered, categoriesUnique,
    categoriesOrdered, category, confidence, selection, products, parts, primaryIcs,
    moduleAliases, moduleCategory, sourced, warned, warningsUnique⟩

theorem ComponentIdentity.make_met {u : Unicode} {record : IdentityRecord}
    (h : record.Accepted u) :
    Passes (ComponentIdentity.make u record) True fun identity =>
      identity.toIdentityRecord = record := by
  refine Passes.bind_met h.artifact ?_
  refine Passes.bind_met h.keyed ?_
  refine Passes.bind_met h.kinds ?_
  refine Passes.bind_met h.kind ?_
  refine Passes.bind_met h.kindsUnique ?_
  refine Passes.bind_met h.kindsOrdered ?_
  refine Passes.bind_met h.categoriesUnique ?_
  refine Passes.bind_met h.categoriesOrdered ?_
  refine Passes.bind_met h.category ?_
  refine Passes.bind_met h.confidence ?_
  refine Passes.bind_met h.selection ?_
  refine Passes.bind_met h.products ?_
  refine Passes.bind_met h.parts ?_
  refine Passes.bind_met h.primaryIcs ?_
  refine Passes.bind_met h.moduleAliases ?_
  refine Passes.bind_met h.moduleCategory ?_
  refine Passes.bind_met h.sourced ?_
  refine Passes.bind_met h.warned ?_
  refine Passes.bind_met h.warningsUnique ?_
  exact Passes.pure rfl

/-- **The constructor returns exactly the records that pass its checks.** -/
theorem ComponentIdentity.make_passes {u : Unicode} {record : IdentityRecord} :
    Passes (ComponentIdentity.make u record) (record.Accepted u) fun identity =>
      identity.toIdentityRecord = record where
  returns_iff :=
    ⟨fun ⟨_, h⟩ => make_accepted h, fun h => (make_met h).returns_iff.mpr trivial⟩
  result identity h := (make_met (make_accepted h)).result identity h

/-- Whoever an identity selects has the greatest score. -/
structure IdentityRecord.SelectsGreatest (record : IdentityRecord) : Prop where
  kind : ∃ first ∈ record.kindCandidates, first.kind = record.componentKind ∧
    ∀ c ∈ record.kindCandidates, c.score ≤ first.score
  category : ∀ key ∈ record.selectedCategory, ∃ first ∈ record.categoryCandidates,
    first.categoryKey = key ∧ ∀ c ∈ record.categoryCandidates, c.score ≤ first.score

theorem IdentityRecord.Accepted.selectsGreatest {u : Unicode} {record : IdentityRecord}
    (h : record.Accepted u) : record.SelectsGreatest where
  kind := by
    obtain ⟨first, hfirst, hkind⟩ := Option.map_eq_some_iff.mp h.kind
    refine ⟨first, List.mem_of_head? hfirst, hkind, fun c hc => ?_⟩
    rw [h.kindsOrdered] at hfirst
    exact score_le_head hfirst hc
  category key hkey := by
    obtain ⟨first, hfirst, hcategory⟩ := Option.map_eq_some_iff.mp (h.category key hkey)
    refine ⟨first, List.mem_of_head? hfirst, hcategory, fun c hc => ?_⟩
    rw [h.categoriesOrdered] at hfirst
    exact score_le_head hfirst hc

end ComponentKb.Pipeline
