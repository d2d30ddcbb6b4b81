import ComponentKb.Catalog.Effects
import ComponentKb.Imports.Review
import ComponentKb.Lib.Checked
import ComponentKb.Lib.Fractions
import ComponentKb.Lib.Passing
import ComponentKb.Lib.Records
import ComponentKb.Lib.Sorting
import ComponentKb.Pipeline.Enrichment
import Mathlib.Data.List.Dedup
import Mathlib.Data.List.Lex
import Mathlib.Data.List.ProdSigma
import Mathlib.Data.Prod.Lex
import Mathlib.Data.String.Basic

/-!
# Metrics of human reviews

`build_human_labelled_report` (`imports/review_metrics.py`) over the candidates of one snapshot.
Floats are exact rationals here, but for the square root, which is a parameter; a division checks
its divisor, and a root its argument. The two digests of the report are parameters too.

* `gather_accounts`: the loop puts every candidate into one sample or one bucket.
* `rate_ok`: a rate divides by nothing that is zero.
* `report_perm`: candidates in another order give the same report.
* **`report_accounts`**: the report is built for all candidates with distinct identifiers, its
  buckets, matrices and blocks add up, and it does not depend on the order.
-/

namespace ComponentKb.Imports.Metrics

open Lib Lib.Fractions Lib.Sorting
open Imports.Review (EnrichmentLifecycleStatus ReviewStatus)
open Pipeline (ComponentSymbolRelationType EnrichmentDecision)

/-! ## Candidates -/

/-- `_METRIC_ACTIONS`. -/
inductive MetricAction where
  | enrichmentAccepted | enrichmentRejected | enrichmentRelationChanged
  deriving DecidableEq, Repr

/-- `_DECISION_ACTIONS`. -/
def MetricAction.decides : MetricAction → Bool
  | .enrichmentAccepted | .enrichmentRejected => true
  | .enrichmentRelationChanged => false

structure ReviewMetricAction where
  actionId : String
  action : MetricAction
  reviewRevision : Nat
  named : actionId ≠ ""
  revised : 2 ≤ reviewRevision
  deriving DecidableEq

structure ReviewMetricCandidate where
  enrichmentId : String
  reviewStateStatus : Option ReviewStatus
  lifecycleStatus : EnrichmentLifecycleStatus
  matcherDecision : EnrichmentDecision
  initialRelationType : ComponentSymbolRelationType
  finalRelationType : ComponentSymbolRelationType
  matcherVersion : String
  indexRevision : String
  ruleIds : List String
  actions : List ReviewMetricAction
  named : enrichmentId ≠ ""
  versioned : matcherVersion ≠ "" ∧ indexRevision ≠ ""
  ruled : ruleIds.Pairwise (· < ·) ∧ ruleIds ≠ []
  ordered : actions.Pairwise fun a b =>
    toLex (a.reviewRevision, a.actionId) ≤ toLex (b.reviewRevision, b.actionId)

/-- A relation, or `NO_MATCH`. -/
abbrev Label := Option ComponentSymbolRelationType

/-- `_RELATION_LABELS`. -/
def relationLabels : List ComponentSymbolRelationType :=
  [.exactComponent, .mainIntegratedCircuit, .onboardComponent, .connector, .functionalEquivalent]

/-- `_ALL_LABELS`. -/
def allLabels : List Label := none :: relationLabels.map some

inductive ReviewerOutcome where
  | accepted | rejected
  deriving DecidableEq, Repr

def ReviewerOutcome.lifecycle : ReviewerOutcome → EnrichmentLifecycleStatus
  | .accepted => .accepted
  | .rejected => .rejected

structure HumanLabelledSample where
  enrichmentId : String
  reviewActionIds : List String
  matcherDecision : EnrichmentDecision
  predictedLabel : Label
  reviewerOutcome : ReviewerOutcome
  actualLabel : Label
  relationChanged : Bool
  matcherVersion : String
  indexRevision : String
  ruleIds : List String
  deriving DecidableEq

/-- The keys of `excluded`. -/
inductive Exclusion where
  | pendingOrMissingConfirmation | stale | conflict | unresolved | unreviewed | lifecycleMismatch
  deriving DecidableEq, Repr

def exclusions : List Exclusion :=
  [.pendingOrMissingConfirmation, .stale, .conflict, .unresolved, .unreviewed, .lifecycleMismatch]

/-- What the loop makes of one candidate. -/
def classify (candidate : ReviewMetricCandidate) : Except Exclusion HumanLabelledSample := do
  require (candidate.reviewStateStatus = some .confirmed) .pendingOrMissingConfirmation
  require (candidate.lifecycleStatus ≠ .stale) .stale
  require (candidate.lifecycleStatus ≠ .conflict) .conflict
  require (candidate.lifecycleStatus = .accepted ∨ candidate.lifecycleStatus = .rejected) .unresolved
  let finalDecision ← fromSome (candidate.actions.filter fun item => item.action.decides).getLast?
    .unreviewed
  let reviewerOutcome : ReviewerOutcome :=
    if finalDecision.action = .enrichmentAccepted then .accepted else .rejected
  require (candidate.lifecycleStatus = reviewerOutcome.lifecycle) .lifecycleMismatch
  return {
    enrichmentId := candidate.enrichmentId
    reviewActionIds := candidate.actions.map ReviewMetricAction.actionId
    matcherDecision := candidate.matcherDecision
    predictedLabel := if candidate.matcherDecision = .rejected then none
      else some candidate.initialRelationType
    reviewerOutcome := reviewerOutcome
    actualLabel := if reviewerOutcome = .accepted then some candidate.finalRelationType else none
    relationChanged := (candidate.actions.any fun item =>
      item.action = .enrichmentRelationChanged) ||
        candidate.initialRelationType ≠ candidate.finalRelationType
    matcherVersion := candidate.matcherVersion
    indexRevision := candidate.indexRevision
    ruleIds := candidate.ruleIds }

/-- The variables of the loop. -/
structure Gathered where
  samples : List HumanLabelledSample
  excluded : Exclusion → Nat

def Gathered.add (g : Gathered) (candidate : ReviewMetricCandidate) : Gathered :=
  match classify candidate with
  | .ok sample => { g with samples := g.samples ++ [sample] }
  | .error bucket => { g with excluded := Function.update g.excluded bucket (g.excluded bucket + 1) }

/-- The loop. -/
def gather (candidates : List ReviewMetricCandidate) : Gathered :=
  candidates.foldl Gathered.add ⟨[], fun _ => 0⟩

/-! ## Rates -/

inductive Fault where
  | minimumSampleInvalid
  | enrichmentDuplicate
  | zeroDivision
  | mathDomain
  deriving DecidableEq, Repr

/-- `a / b`. -/
def divide (a b : ℚ) : Except Fault ℚ := quotient .zeroDivision a b

/-- `_Z_95`. -/
def z95 : ℚ := 1959963984540054 / 1000000000000000

structure Rate where
  numerator : Nat
  denominator : Nat
  estimateBasisPoints : Option Int
  confidenceInterval : Option (Int × Int)
  deriving DecidableEq

section

variable (sqrt : ℚ → ℚ)

/-- `math.sqrt`. -/
def squareRoot (q : ℚ) : Except Fault ℚ := if q < 0 then .error .mathDomain else .ok (sqrt q)

/-- `_rate`. -/
def rate (numerator denominator : Nat) : Except Fault Rate := do
  if denominator = 0 then return ⟨numerator, denominator, none, none⟩
  let estimate ← divide numerator denominator
  let zSquared := z95 * z95
  let adjusted := 1 + (← divide zSquared denominator)
  let center ← divide (estimate + (← divide zSquared (2 * denominator))) adjusted
  let root ← squareRoot sqrt ((← divide (estimate * (1 - estimate)) denominator) +
    (← divide zSquared (4 * denominator * denominator)))
  let margin ← divide (z95 * root) adjusted
  return ⟨numerator, denominator, some (roundHalfEven (estimate * 1000)),
    some (roundHalfEven (max 0 (center - margin) * 1000),
      roundHalfEven (min 1 (center + margin) * 1000))⟩

/-! ## Blocks -/

structure MetricBlock where
  sampleSize : Nat
  truePositive : Nat
  falsePositive : Nat
  falseNegative : Nat
  trueNegative : Nat
  precision : Rate
  «recall» : Rate
  accuracy : Rate
  deriving DecidableEq

/-- The labels that count as positive: one relation, or all. -/
def isPositive : Option ComponentSymbolRelationType → Label → Bool
  | none, label => label ≠ none
  | some relation, label => label = some relation

/-- The rates of four counts. -/
def ratesOf (truePositive falsePositive falseNegative trueNegative sampleSize : Nat) :
    Except Fault MetricBlock := do
  return {
    sampleSize, truePositive, falsePositive, falseNegative, trueNegative
    precision := ← rate sqrt truePositive (truePositive + falsePositive)
    «recall» := ← rate sqrt truePositive (truePositive + falseNegative)
    accuracy := ← rate sqrt (truePositive + trueNegative) sampleSize }

/-- `_metric_block`. -/
def metricBlock (samples : List HumanLabelledSample)
    (positiveLabel : Option ComponentSymbolRelationType) : Except Fault MetricBlock :=
  let pairs := samples.map fun item =>
    (isPositive positiveLabel item.predictedLabel, isPositive positiveLabel item.actualLabel)
  ratesOf sqrt (pairs.filter fun pair => pair.1 && pair.2).length
    (pairs.filter fun pair => pair.1 && !pair.2).length
    (pairs.filter fun pair => !pair.1 && pair.2).length
    (pairs.filter fun pair => !pair.1 && !pair.2).length samples.length

abbrev ConfusionMatrix := List (Label × List (Label × Nat))

/-- `_confusion_matrix`. -/
def confusionMatrix (samples : List HumanLabelledSample) : ConfusionMatrix :=
  allLabels.map fun predicted => (predicted, allLabels.map fun actual =>
    (actual, tally (fun item => (item.predictedLabel, item.actualLabel)) samples
      (predicted, actual)))

structure DecisionOutcome where
  matcherDecision : EnrichmentDecision
  sampleSize : Nat
  reviewerAccepted : Nat
  reviewerRejected : Nat
  relationChanged : Nat
  deriving DecidableEq

def decisions : List EnrichmentDecision := [.autoAccepted, .reviewRequired, .rejected]

/-- `_decision_outcomes`. -/
def decisionOutcomes (samples : List HumanLabelledSample) : List DecisionOutcome :=
  decisions.map fun decision =>
    let selected := samples.filter fun item => item.matcherDecision = decision
    { matcherDecision := decision
      sampleSize := selected.length
      reviewerAccepted := tally HumanLabelledSample.reviewerOutcome selected .accepted
      reviewerRejected := tally HumanLabelledSample.reviewerOutcome selected .rejected
      relationChanged := tally HumanLabelledSample.relationChanged selected true }

structure VersionSlice where
  matcherVersion : String
  indexRevision : String
  ruleIds : List String
  ruleSetSha256 : String
  block : MetricBlock
  confusionMatrix : ConfusionMatrix
  deriving DecidableEq

/-- The key of a group of `_version_slices`. -/
def HumanLabelledSample.version (item : HumanLabelledSample) : String ×ₗ String ×ₗ List String :=
  toLex (item.matcherVersion, toLex (item.indexRevision, item.ruleIds))

variable (rulesDigest : List String → String)

/-- `_version_slices`. -/
def versionSlices (samples : List HumanLabelledSample) : Except Fault (List VersionSlice) :=
  (sortBy id (samples.map HumanLabelledSample.version).dedup).mapM fun version => do
    let selected := samples.filter fun item => item.version = version
    return {
      matcherVersion := (ofLex version).1
      indexRevision := (ofLex (ofLex version).2).1
      ruleIds := (ofLex (ofLex version).2).2
      ruleSetSha256 := rulesDigest (ofLex (ofLex version).2).2
      block := ← metricBlock sqrt selected none
      confusionMatrix := confusionMatrix selected }

/-! ## The report -/

structure Report where
  snapshotSha256 : String
  totalCandidates : Nat
  reviewedSampleSize : Nat
  minimumReviewedSample : Int
  gateMet : Bool
  excluded : List (Exclusion × Nat)
  decisionOutcomes : List DecisionOutcome
  overall : MetricBlock
  confusionMatrix : ConfusionMatrix
  relations : List (ComponentSymbolRelationType × MetricBlock)
  versionSlices : List VersionSlice
  samples : List HumanLabelledSample
  deriving DecidableEq

/-- The key by which the samples are sorted. -/
def HumanLabelledSample.place (item : HumanLabelledSample) : String ×ₗ String ×ₗ String :=
  toLex (item.matcherVersion, toLex (item.indexRevision, item.enrichmentId))

variable (snapshotDigest : List ReviewMetricCandidate → String)

/-- `build_human_labelled_report`. -/
def buildHumanLabelledReport (candidates : List ReviewMetricCandidate)
    (minimumReviewedSample : Int) : Except Fault Report := do
  require (1 ≤ minimumReviewedSample ∧ minimumReviewedSample ≤ 1000000) .minimumSampleInvalid
  let orderedCandidates := sortBy ReviewMetricCandidate.enrichmentId candidates
  require (orderedCandidates.map ReviewMetricCandidate.enrichmentId).Nodup .enrichmentDuplicate
  let gathered := gather orderedCandidates
  let samples := sortBy HumanLabelledSample.place gathered.samples
  return {
    snapshotSha256 := snapshotDigest orderedCandidates
    totalCandidates := candidates.length
    reviewedSampleSize := samples.length
    minimumReviewedSample
    gateMet := minimumReviewedSample ≤ samples.length
    excluded := exclusions.map fun bucket => (bucket, gathered.excluded bucket)
    decisionOutcomes := decisionOutcomes samples
    overall := ← metricBlock sqrt samples none
    confusionMatrix := confusionMatrix samples
    relations := ← relationLabels.mapM fun relation => do
      return (relation, ← metricBlock sqrt samples (some relation))
    versionSlices := ← versionSlices sqrt rulesDigest samples
    samples }

end

/-! ## The loop -/

/-- The bucket of a candidate that is no sample. -/
def bucketOf (candidate : ReviewMetricCandidate) : Option Exclusion :=
  match classify candidate with
  | .ok _ => none
  | .error bucket => some bucket

theorem bucketOf_eq_none {c : ReviewMetricCandidate} :
    bucketOf c = none ↔ ∃ sample, classify c = .ok sample := by
  unfold bucketOf
  split
  · rename_i sample h
    simp [h]
  · rename_i bucket h
    simp [h]

/-- What the loop has made of the candidates so far. -/
structure Gathered.Accounts (g : Gathered) (candidates : List ReviewMetricCandidate) : Prop where
  samples : g.samples = candidates.filterMap fun c => (classify c).toOption
  excluded : ∀ bucket, g.excluded bucket = tally bucketOf candidates (some bucket)

theorem Gathered.Accounts.add {g : Gathered} {candidates : List ReviewMetricCandidate}
    (h : g.Accounts candidates) (c : ReviewMetricCandidate) :
    (g.add c).Accounts (candidates ++ [c]) := by
  unfold Gathered.add
  cases hc : classify c with
  | ok sample =>
    refine ⟨?_, fun bucket => ?_⟩
    · rw [List.filterMap_append, h.samples]
      simp [hc, Except.toOption]
    · have hbucket : bucketOf c = none := bucketOf_eq_none.mpr ⟨sample, hc⟩
      simp only
      rw [h.excluded, tally, tally, List.filter_append]
      simp [hbucket]
  | error bucket =>
    have hbucket : bucketOf c = some bucket := by
      rw [bucketOf, hc]
    refine ⟨?_, fun other => ?_⟩
    · rw [List.filterMap_append, h.samples]
      simp [hc, Except.toOption]
    · simp only
      rw [tally, List.filter_append, List.length_append, ← tally, ← h.excluded]
      by_cases hother : other = bucket
      · subst hother
        simp [hbucket]
      · simp [Function.update_of_ne hother, hbucket, Ne.symm hother]

/-- **Every candidate is one sample or in one bucket.** -/
theorem gather_accounts (candidates : List ReviewMetricCandidate) :
    (gather candidates).Accounts candidates := by
  have hrun : ∀ (rest done : List ReviewMetricCandidate) (g : Gathered), g.Accounts done →
      (rest.foldl Gathered.add g).Accounts (done ++ rest) := by
    intro rest
    induction rest with
    | nil =>
      intro done g h
      rw [List.append_nil]
      exact h
    | cons c rest ih =>
      intro done g h
      rw [List.foldl_cons, List.append_cons]
      exact ih _ _ (h.add c)
  exact hrun candidates [] _ ⟨rfl, fun _ => rfl⟩

theorem classify_id {c : ReviewMetricCandidate} {sample : HumanLabelledSample}
    (h : classify c = .ok sample) : sample.enrichmentId = c.enrichmentId := by
  obtain ⟨-, h⟩ := seq_eq_ok.mp h
  obtain ⟨-, h⟩ := seq_eq_ok.mp h
  obtain ⟨-, h⟩ := seq_eq_ok.mp h
  obtain ⟨-, h⟩ := seq_eq_ok.mp h
  obtain ⟨decision, -, h⟩ := bind_eq_ok.mp h
  obtain ⟨-, h⟩ := seq_eq_ok.mp h
  rw [← Except.ok.inj h]

/-! ## No division by zero -/

theorem divide_ok {a b : ℚ} (h : b ≠ 0) : divide a b = .ok (a / b) := quotient_ok h

variable {sqrt : ℚ → ℚ}

/-- A share has a rate. -/
theorem rate_ok {n d : Nat} (h : n ≤ d) : ∃ r, rate sqrt n d = .ok r := by
  by_cases hd : d = 0
  · exact ⟨⟨n, d, none, none⟩, by rw [rate, if_pos hd]; rfl⟩
  · have hpos : (0 : ℚ) < d := by exact_mod_cast Nat.pos_of_ne_zero hd
    have hz : (0 : ℚ) < z95 * z95 := by decide +kernel
    have hadjusted : 1 + z95 * z95 / (d : ℚ) ≠ 0 := by positivity
    have hshare : (n : ℚ) / d ≤ 1 := by
      rw [div_le_one hpos]
      exact_mod_cast h
    have hroot : ¬ ((n : ℚ) / d * (1 - n / d) / d + z95 * z95 / (4 * d * d) < 0) := by
      have hone : 0 ≤ 1 - (n : ℚ) / d := by linarith
      rw [not_lt]
      positivity
    unfold rate
    rw [if_neg hd]
    simp only [divide_ok hpos.ne', divide_ok hadjusted, divide_ok (by positivity : (2 * (d : ℚ)) ≠ 0),
      divide_ok (by positivity : (4 * (d : ℚ) * d) ≠ 0), squareRoot, if_neg hroot, Records.ok_bind]
    exact ⟨_, rfl⟩

/-! ## Sums -/

/-- The four counts of a block are those of its samples. -/
structure MetricBlock.Sums (block : MetricBlock) (samples : List HumanLabelledSample) : Prop where
  size : block.sampleSize = samples.length
  sum : block.truePositive + block.falsePositive + block.falseNegative + block.trueNegative =
    samples.length

/-- The entries of a matrix. -/
def ConfusionMatrix.sum (matrix : ConfusionMatrix) : Nat :=
  (matrix.map fun row => (row.2.map Prod.snd).sum).sum

theorem quarters_sum (pairs : List (Bool × Bool)) :
    (pairs.filter fun pair => pair.1 && pair.2).length +
      (pairs.filter fun pair => pair.1 && !pair.2).length +
      (pairs.filter fun pair => !pair.1 && pair.2).length +
      (pairs.filter fun pair => !pair.1 && !pair.2).length = pairs.length := by
  induction pairs with
  | nil => rfl
  | cons pair pairs ih =>
    obtain ⟨left, right⟩ := pair
    cases left <;> cases right <;> simp <;> omega

theorem ratesOf_ok {tp fp fn tn n : Nat} (h : tp + fp + fn + tn = n) :
    ∃ block, ratesOf sqrt tp fp fn tn n = .ok block ∧ block.sampleSize = n ∧
      block.truePositive + block.falsePositive + block.falseNegative + block.trueNegative = n := by
  have hrate : ∀ {n d : Nat}, n ≤ d → ∃ r, rate sqrt n d = .ok r := rate_ok
  obtain ⟨precision, hprecision⟩ := hrate (Nat.le_add_right tp fp)
  obtain ⟨found, hrecall⟩ := hrate (Nat.le_add_right tp fn)
  obtain ⟨accuracy, haccuracy⟩ := hrate (by omega : tp + tn ≤ n)
  unfold ratesOf
  simp only [hprecision, hrecall, haccuracy, Records.ok_bind]
  exact ⟨_, rfl, rfl, h⟩

/-- Every block is built, and its counts are those of its samples. -/
theorem metricBlock_ok (samples : List HumanLabelledSample)
    (positive : Option ComponentSymbolRelationType) :
    ∃ block, metricBlock sqrt samples positive = .ok block ∧ block.Sums samples := by
  have hsum := quarters_sum (samples.map fun item =>
    (isPositive positive item.predictedLabel, isPositive positive item.actualLabel))
  rw [List.length_map] at hsum
  obtain ⟨block, hblock, hsize, hcounts⟩ := ratesOf_ok hsum
  exact ⟨block, hblock, hsize, hcounts⟩

theorem mem_relationLabels (relation : ComponentSymbolRelationType) :
    relation ∈ relationLabels := by
  cases relation <;> decide

theorem mem_allLabels (label : Label) : label ∈ allLabels := by
  cases label with
  | none => decide
  | some relation => exact List.mem_cons_of_mem _ (List.mem_map_of_mem (mem_relationLabels relation))

theorem sum_rows (f : Label × Label → Nat) (rows columns : List Label) :
    ConfusionMatrix.sum (rows.map fun predicted =>
      (predicted, columns.map fun actual => (actual, f (predicted, actual)))) =
    ((rows ×ˢ columns).map f).sum := by
  induction rows with
  | nil => rfl
  | cons row rows ih =>
    unfold ConfusionMatrix.sum at ih ⊢
    rw [List.map_cons, List.map_cons, List.sum_cons, ih, List.product_cons, List.map_append,
      List.sum_append, List.map_map, List.map_map]
    rfl

/-- A matrix sums to the number of its samples. -/
theorem confusionMatrix_sum (samples : List HumanLabelledSample) :
    (confusionMatrix samples).sum = samples.length := by
  rw [confusionMatrix, sum_rows, sum_tally]
  · exact List.Nodup.product (by decide) (by decide)
  · intro item _
    exact List.mem_product.mpr ⟨mem_allLabels _, mem_allLabels _⟩

theorem decisionOutcomes_sum (samples : List HumanLabelledSample) :
    (∀ outcome ∈ decisionOutcomes samples,
      outcome.reviewerAccepted + outcome.reviewerRejected = outcome.sampleSize) ∧
    ((decisionOutcomes samples).map DecisionOutcome.sampleSize).sum = samples.length := by
  constructor
  · intro outcome houtcome
    obtain ⟨decision, -, rfl⟩ := List.mem_map.mp houtcome
    have hsum : ([ReviewerOutcome.accepted, .rejected].map
        (tally HumanLabelledSample.reviewerOutcome
          (samples.filter fun item => item.matcherDecision = decision))).sum =
        (samples.filter fun item => item.matcherDecision = decision).length :=
      sum_tally (by decide) fun item _ => by cases item.reviewerOutcome <;> decide
    simpa using hsum
  · rw [decisionOutcomes, List.map_map]
    exact sum_tally (by decide) fun item _ => by cases item.matcherDecision <;> decide

/-- The slices: one for each version among the samples, built on those of that version. -/
structure SlicesSum (slices : List VersionSlice) (samples : List HumanLabelledSample) : Prop where
  block : ∀ slice ∈ slices, ∃ selected, selected.Sublist samples ∧ slice.block.Sums selected ∧
    slice.confusionMatrix.sum = selected.length
  sum : (slices.map fun slice => slice.block.sampleSize).sum = samples.length

/-- A slice of the samples of one version. -/
def VersionSlice.Of (samples : List HumanLabelledSample)
    (version : String ×ₗ String ×ₗ List String) (slice : VersionSlice) : Prop :=
  slice.block.Sums (samples.filter fun item => item.version = version) ∧
    slice.confusionMatrix.sum = (samples.filter fun item => item.version = version).length

theorem sum_slices {samples : List HumanLabelledSample}
    {versions : List (String ×ₗ String ×ₗ List String)} {slices : List VersionSlice}
    (h : List.Forall₂ (VersionSlice.Of samples) versions slices) :
    (slices.map fun slice => slice.block.sampleSize).sum =
      (versions.map (tally HumanLabelledSample.version samples)).sum := by
  induction h with
  | nil => rfl
  | cons hslice _ ih =>
    rw [List.map_cons, List.sum_cons, List.map_cons, List.sum_cons, ih, hslice.1.size]
    rfl

theorem versionSlices_ok (rulesDigest : List String → String) (samples : List HumanLabelledSample) :
    ∃ slices, versionSlices sqrt rulesDigest samples = .ok slices ∧ SlicesSum slices samples := by
  have hperm := sortBy_perm id (samples.map HumanLabelledSample.version).dedup
  obtain ⟨slices, hslices, hall⟩ : ∃ slices, versionSlices sqrt rulesDigest samples = .ok slices ∧
      List.Forall₂ (VersionSlice.Of samples)
        (sortBy id (samples.map HumanLabelledSample.version).dedup) slices := by
    refine mapM_related fun version _ => ?_
    obtain ⟨block, hblock, hsums⟩ := @metricBlock_ok sqrt
      (samples.filter fun item => item.version = version) none
    simp only [hblock, Records.ok_bind]
    exact ⟨_, rfl, hsums, confusionMatrix_sum _⟩
  refine ⟨slices, hslices, fun slice hslice => ?_, ?_⟩
  · obtain ⟨version, -, hof⟩ := Passes.exists_of_mem hall hslice
    exact ⟨_, List.filter_sublist, hof.1, hof.2⟩
  · rw [sum_slices hall]
    refine sum_tally (hperm.nodup_iff.mpr (List.nodup_dedup _)) fun item hitem => ?_
    rw [hperm.mem_iff, List.mem_dedup]
    exact List.mem_map_of_mem hitem

/-! ## The report -/

/-- A report accounts for its candidates. -/
structure Report.Accounts (report : Report) (candidates : List ReviewMetricCandidate) : Prop where
  total : report.totalCandidates = candidates.length
  size : report.reviewedSampleSize = report.samples.length
  sampled : ∀ c ∈ candidates, (∃ sample ∈ report.samples, sample.enrichmentId = c.enrichmentId) ↔
    bucketOf c = none
  bucketed : report.excluded = exclusions.map fun bucket =>
    (bucket, tally bucketOf candidates (some bucket))
  sum : report.reviewedSampleSize + (report.excluded.map Prod.snd).sum = report.totalCandidates
  overall : report.overall.Sums report.samples
  matrix : report.confusionMatrix.sum = report.reviewedSampleSize
  relations : ∀ row ∈ report.relations, row.2.Sums report.samples
  slices : SlicesSum report.versionSlices report.samples
  decisions : (∀ outcome ∈ report.decisionOutcomes,
      outcome.reviewerAccepted + outcome.reviewerRejected = outcome.sampleSize) ∧
    (report.decisionOutcomes.map DecisionOutcome.sampleSize).sum = report.reviewedSampleSize

theorem samples_iff {candidates : List ReviewMetricCandidate}
    (hids : (candidates.map ReviewMetricCandidate.enrichmentId).Nodup)
    {c : ReviewMetricCandidate} (hc : c ∈ candidates) :
    (∃ sample ∈ (gather candidates).samples, sample.enrichmentId = c.enrichmentId) ↔
      bucketOf c = none := by
  rw [bucketOf_eq_none, (gather_accounts candidates).samples]
  constructor
  · rintro ⟨sample, hsample, hid⟩
    obtain ⟨c', hc', hclass⟩ := List.mem_filterMap.mp hsample
    have hclass := Catalog.toOption_eq_some.mp hclass
    have hsame : c' = c := List.inj_on_of_nodup_map hids hc' hc ((classify_id hclass).symm.trans hid)
    exact ⟨sample, hsame ▸ hclass⟩
  · rintro ⟨sample, hclass⟩
    exact ⟨sample, List.mem_filterMap.mpr ⟨c, hc, by rw [hclass]; rfl⟩, classify_id hclass⟩

theorem samples_tally (candidates : List ReviewMetricCandidate) :
    (gather candidates).samples.length = tally bucketOf candidates none := by
  rw [(gather_accounts candidates).samples, tally]
  induction candidates with
  | nil => rfl
  | cons c candidates ih =>
    rw [List.filterMap_cons, List.filter_cons]
    cases hc : classify c with
    | ok sample =>
      have hbucket : bucketOf c = none := bucketOf_eq_none.mpr ⟨sample, hc⟩
      have hsample : (Except.ok sample : Except Exclusion _).toOption = some sample := rfl
      simp [hbucket, hsample, ih]
    | error bucket =>
      have hbucket : bucketOf c = some bucket := by
        rw [bucketOf, hc]
      have hnone : (Except.error bucket : Except _ HumanLabelledSample).toOption = none := rfl
      simp [hbucket, hnone, ih]

/-- The samples and the buckets are all candidates. -/
theorem gather_sum (candidates : List ReviewMetricCandidate) :
    (gather candidates).samples.length +
      (exclusions.map (gather candidates).excluded).sum = candidates.length := by
  have hclasses : (none :: exclusions.map some : List (Option Exclusion)).Nodup := by decide
  have hsum : ((none :: exclusions.map some).map (tally bucketOf candidates)).sum =
      candidates.length := by
    refine sum_tally hclasses fun c _ => ?_
    cases bucketOf c with
    | none => exact List.mem_cons_self
    | some bucket => cases bucket <;> decide
  have hexcluded : (gather candidates).excluded =
      fun bucket => tally bucketOf candidates (some bucket) :=
    funext (gather_accounts candidates).excluded
  rw [List.map_cons, List.sum_cons, List.map_map] at hsum
  rw [samples_tally, hexcluded]
  exact hsum

theorem report_perm (rulesDigest : List String → String)
    (snapshotDigest : List ReviewMetricCandidate → String)
    {candidates candidates' : List ReviewMetricCandidate} (h : candidates.Perm candidates')
    (minimum : Int) :
    buildHumanLabelledReport sqrt rulesDigest snapshotDigest candidates minimum =
      buildHumanLabelledReport sqrt rulesDigest snapshotDigest candidates' minimum := by
  have hnodup : ∀ xs : List ReviewMetricCandidate,
      ((sortBy ReviewMetricCandidate.enrichmentId xs).map ReviewMetricCandidate.enrichmentId).Nodup ↔
        (xs.map ReviewMetricCandidate.enrichmentId).Nodup := fun xs =>
    ((sortBy_perm _ xs).map _).nodup_iff
  unfold buildHumanLabelledReport
  by_cases hids : (candidates.map ReviewMetricCandidate.enrichmentId).Nodup
  · rw [sortBy_congr h hids, h.length_eq]
  · have hids' : ¬ (candidates'.map ReviewMetricCandidate.enrichmentId).Nodup := by
      rwa [← (h.map ReviewMetricCandidate.enrichmentId).nodup_iff]
    simp only [hnodup, hids, hids', require]
    rfl

/-- The report of candidates that differ. -/
theorem report_ok (rulesDigest : List String → String)
    (snapshotDigest : List ReviewMetricCandidate → String)
    {candidates : List ReviewMetricCandidate} {minimum : Int}
    (hminimum : 1 ≤ minimum ∧ minimum ≤ 1000000)
    (hids : (candidates.map ReviewMetricCandidate.enrichmentId).Nodup) :
    ∃ report, buildHumanLabelledReport sqrt rulesDigest snapshotDigest candidates minimum =
      .ok report ∧ report.Accounts candidates := by
  have hordered := sortBy_perm ReviewMetricCandidate.enrichmentId candidates
  have hids' := (hordered.map ReviewMetricCandidate.enrichmentId).nodup_iff.mpr hids
  let gathered := gather (sortBy ReviewMetricCandidate.enrichmentId candidates)
  let samples := sortBy HumanLabelledSample.place gathered.samples
  have hsamples : samples.Perm gathered.samples := sortBy_perm _ _
  have hexcluded : gathered.excluded = fun bucket => tally bucketOf candidates (some bucket) := by
    funext bucket
    rw [(gather_accounts _).excluded, tally_perm hordered]
  obtain ⟨overall, hoverall, hoverallSums⟩ := @metricBlock_ok sqrt samples none
  obtain ⟨relations, hrelations, hrelationsAll⟩ : ∃ relations,
      (relationLabels.mapM fun relation => do
        return (relation, ← metricBlock sqrt samples (some relation))) = Except.ok relations ∧
      List.Forall₂ (fun _ (row : ComponentSymbolRelationType × MetricBlock) => row.2.Sums samples)
        relationLabels relations := by
    refine mapM_related fun relation _ => ?_
    obtain ⟨block, hblock, hsums⟩ := @metricBlock_ok sqrt samples (some relation)
    simp only [hblock, Records.ok_bind]
    exact ⟨_, rfl, hsums⟩
  obtain ⟨slices, hslices, hslicesSum⟩ := @versionSlices_ok sqrt rulesDigest samples
  have hbuild : buildHumanLabelledReport sqrt rulesDigest snapshotDigest candidates minimum = .ok {
      snapshotSha256 := snapshotDigest (sortBy ReviewMetricCandidate.enrichmentId candidates)
      totalCandidates := candidates.length
      reviewedSampleSize := samples.length
      minimumReviewedSample := minimum
      gateMet := minimum ≤ samples.length
      excluded := exclusions.map fun bucket => (bucket, gathered.excluded bucket)
      decisionOutcomes := decisionOutcomes samples
      overall := overall
      confusionMatrix := confusionMatrix samples
      relations := relations
      versionSlices := slices
      samples := samples } := by
    unfold buildHumanLabelledReport
    simp only [require, if_pos hminimum, if_pos hids', Records.ok_bind]
    rw [show sortBy HumanLabelledSample.place
      (gather (sortBy ReviewMetricCandidate.enrichmentId candidates)).samples = samples from rfl,
      hoverall, hrelations, hslices]
    rfl
  refine ⟨_, hbuild, ?_⟩
  constructor
  case total => rfl
  case size => rfl
  case sampled =>
    intro c hc
    rw [← samples_iff hids' (hordered.mem_iff.mpr hc)]
    exact exists_congr fun sample => and_congr_left' hsamples.mem_iff
  case bucketed =>
    change exclusions.map (fun bucket => (bucket, gathered.excluded bucket)) = _
    rw [hexcluded]
  case sum =>
    change samples.length + ((exclusions.map fun bucket =>
      (bucket, gathered.excluded bucket)).map Prod.snd).sum = candidates.length
    rw [hsamples.length_eq, List.map_map, ← hordered.length_eq, ← gather_sum]
    rfl
  case overall => exact hoverallSums
  case matrix => exact confusionMatrix_sum samples
  case relations =>
    intro row hrow
    obtain ⟨relation, -, hsums⟩ := Passes.exists_of_mem hrelationsAll hrow
    exact hsums
  case slices => exact hslicesSum
  case decisions => exact decisionOutcomes_sum samples

/-- **The report accounts for every candidate, and not for their order.** -/
theorem report_accounts (sqrt : ℚ → ℚ) (rulesDigest : List String → String)
    (snapshotDigest : List ReviewMetricCandidate → String)
    (candidates : List ReviewMetricCandidate) (minimum : Int) :
    (∀ report, buildHumanLabelledReport sqrt rulesDigest snapshotDigest candidates minimum =
      .ok report → report.Accounts candidates) ∧
    (∀ fault, buildHumanLabelledReport sqrt rulesDigest snapshotDigest candidates minimum =
        .error fault ↔
      fault = .minimumSampleInvalid ∧ ¬ (1 ≤ minimum ∧ minimum ≤ 1000000) ∨
      fault = .enrichmentDuplicate ∧ (1 ≤ minimum ∧ minimum ≤ 1000000) ∧
        ¬ (candidates.map ReviewMetricCandidate.enrichmentId).Nodup) ∧
    ∀ candidates', candidates.Perm candidates' →
      buildHumanLabelledReport sqrt rulesDigest snapshotDigest candidates' minimum =
        buildHumanLabelledReport sqrt rulesDigest snapshotDigest candidates minimum := by
  have hnodup := ((sortBy_perm ReviewMetricCandidate.enrichmentId candidates).map
    ReviewMetricCandidate.enrichmentId).nodup_iff
  by_cases hminimum : 1 ≤ minimum ∧ minimum ≤ 1000000
  · by_cases hids : (candidates.map ReviewMetricCandidate.enrichmentId).Nodup
    · obtain ⟨report, hreport, haccounts⟩ :=
        @report_ok sqrt rulesDigest snapshotDigest candidates minimum hminimum hids
      refine ⟨fun report' h => ?_, fun fault => ?_, fun _ hperm =>
        (report_perm rulesDigest snapshotDigest hperm minimum).symm⟩
      · rw [hreport] at h
        rw [← Except.ok.inj h]
        exact haccounts
      · rw [hreport]
        simp [hminimum, hids]
    · have hfault : buildHumanLabelledReport sqrt rulesDigest snapshotDigest candidates minimum =
          .error .enrichmentDuplicate := by
        unfold buildHumanLabelledReport
        simp only [require, if_pos hminimum, hnodup, if_neg hids]
        rfl
      refine ⟨fun report' h => ?_, fun fault => ?_, fun _ hperm =>
        (report_perm rulesDigest snapshotDigest hperm minimum).symm⟩
      · rw [hfault] at h
        cases h
      · rw [hfault]
        simp [hminimum, hids, eq_comm]
  · have hfault : buildHumanLabelledReport sqrt rulesDigest snapshotDigest candidates minimum =
        .error .minimumSampleInvalid := by
      unfold buildHumanLabelledReport
      simp only [require, if_neg hminimum]
      rfl
    refine ⟨fun report' h => ?_, fun fault => ?_, fun _ hperm =>
      (report_perm rulesDigest snapshotDigest hperm minimum).symm⟩
    · rw [hfault] at h
      cases h
    · rw [hfault]
      simp [hminimum, eq_comm]

end ComponentKb.Imports.Metrics
