import ComponentKb.Lib.Index
import ComponentKb.Lib.Runs
import ComponentKb.Pipeline.Enrichment

/-!
# Persistence of a pipeline run

What a run of the import pipeline hands to persistence and what persistence stores: the inputs of
the evaluation and the composition (`models/quality.py`, `models/composition.py`), the ids derived
from them (`models/persistence.py`) and `PostgresImportPersistenceGateway.persist`, which inserts a
row at each level unless one that clashes is stored. A `Release` is a version of the code of the
stages between acquisition and persistence; the runs may be of any releases.

* `Digests` is SHA-256, `uuid5` and the JSON texts they are taken of, free of collisions.
* `Content` stands for the fields of a quality report and of a review draft that persistence only
  writes (dimensions, issues, the texts and lists of the card).
* A run that fails leaves no row: the caller rolls the savepoint back.

Left out: columns that copy a field of the payload and that nothing reads again, the lifecycle of
stored enrichments, and `sources` and `components`, whose rows a run is given.
-/

namespace ComponentKb.Pipeline

open ComponentKb.Catalog (Unicode)
open ComponentKb.Lib ComponentKb.Lib.Index

variable {Content : Type} {u : Unicode}

/-! ## Reports and drafts -/

inductive QualityRoute
  | reject | manualReview | readyToCompose
deriving DecidableEq

structure QualityReport (Content : Type) where
  inputSha256 : String
  profile : NormalizationProfile
  route : QualityRoute
  overallScoreBasisPoints : Nat
  evaluatorVersion : String
  content : Content

/-- A `ReviewDraft` before it is given the time of its composition. -/
structure Composition (Content : Type) where
  inputSha256 : String
  artifact : SourceArtifactMetadata
  composerVersion : String
  qualityReportSha256 : String
  qualityRoute : QualityRoute
  content : Content
  versioned : isVersion composerVersion = true

structure ReviewDraft (Content : Type) extends Composition Content where
  composedAt : Time

/-- `ReviewDraft.SCHEMA_VERSION`. -/
def schemaVersion : String := "review-draft/v1"

/-! ## Digests -/

structure Digests (u : Unicode) (Content : Type) where
  /-- `sha256(value.encode()).hexdigest()`. -/
  sha256 : String → String
  /-- `uuid5(PERSISTENCE_NAMESPACE, value)`. -/
  uuid5 : String → UUID
  /-- `str(id)`. -/
  text : UUID → String
  factsJson : NormalizedFacts → String
  identityJson : ComponentIdentity u → String
  candidateJson : EnrichmentCandidate → String
  reportJson : QualityReport Content → String
  draftJson : ReviewDraft Content → String
  sha256_injective : Function.Injective sha256
  uuid5_injective : Function.Injective uuid5
  text_injective : Function.Injective text
  text_plain : ∀ id, ':' ∉ (text id).toList
  identityJson_injective : Function.Injective identityJson
  reportJson_injective : Function.Injective reportJson
  draftJson_injective : Function.Injective draftJson

namespace Digests

variable (d : Digests u Content)

def facts (facts : NormalizedFacts) : String := d.sha256 (d.factsJson facts)

def identity (identity : ComponentIdentity u) : String := d.sha256 (d.identityJson identity)

def candidate (candidate : EnrichmentCandidate) : String := d.sha256 (d.candidateJson candidate)

def report (report : QualityReport Content) : String := d.sha256 (d.reportJson report)

def draft (draft : ReviewDraft Content) : String := d.sha256 (d.draftJson draft)

/-- `uuid5` of a name whose parts are joined by colons. -/
def name (parts : List String) : UUID := d.uuid5 (":".intercalate parts)

end Digests

/-- A text of `json.dumps`. -/
def quoted (value : String) : String := "\"" ++ value ++ "\""

/-! ## Inputs of the stages -/

structure QualityEvaluationInput (d : Digests u Content) where
  facts : NormalizedFacts
  identity : ComponentIdentity u
  enrichments : List EnrichmentCandidate
  resolved : identity.normalizedFacts = facts
  related : ∀ item ∈ enrichments, item.relation.identitySha256 = d.identity identity
  distinct : (enrichments.map fun item =>
    (item.relation.symbol.recordId, item.relation.relationType)).Nodup

variable {d : Digests u Content}

def QualityEvaluationInput.make (d : Digests u Content) (facts : NormalizedFacts)
    (identity : ComponentIdentity u) (enrichments : List EnrichmentCandidate) :
    Except String (QualityEvaluationInput d) := do
  let ⟨resolved⟩ ← demand (identity.normalizedFacts = facts) "quality_input_facts_mismatch"
  let ⟨related⟩ ← demand
    (∀ item ∈ enrichments, item.relation.identitySha256 = d.identity identity)
    "quality_input_enrichment_identity_mismatch"
  let ⟨distinct⟩ ← demand (enrichments.map fun item =>
    (item.relation.symbol.recordId, item.relation.relationType)).Nodup
    "quality_input_enrichment_duplicate"
  return { facts, identity, enrichments, resolved, related, distinct }

/-- `input_sha256`, of a JSON object with its keys in order. -/
def QualityEvaluationInput.inputSha256 (input : QualityEvaluationInput d) : String :=
  d.sha256 ("\x7b\"enrichments\":[" ++
    ",".intercalate (input.enrichments.map fun item => quoted (d.candidate item)) ++
    "],\"facts_sha256\":" ++ quoted (d.facts input.facts) ++
    ",\"identity_sha256\":" ++ quoted (d.identity input.identity) ++ "\x7d")

structure CompositionInput (d : Digests u Content) extends QualityEvaluationInput d where
  qualityReport : QualityReport Content
  evaluated : qualityReport.inputSha256 = toQualityEvaluationInput.inputSha256
  profiled : qualityReport.profile = facts.profile

def CompositionInput.make (input : QualityEvaluationInput d) (report : QualityReport Content) :
    Except String (CompositionInput d) := do
  let ⟨evaluated⟩ ← demand (report.inputSha256 = input.inputSha256)
    "composition_quality_input_mismatch"
  let ⟨profiled⟩ ← demand (report.profile = input.facts.profile)
    "composition_quality_profile_mismatch"
  return ⟨input, report, evaluated, profiled⟩

def CompositionInput.inputSha256 (input : CompositionInput d) : String :=
  d.sha256 ("\x7b\"quality_input_sha256\":" ++ quoted input.qualityReport.inputSha256 ++
    ",\"quality_report_sha256\":" ++ quoted (d.report input.qualityReport) ++ "\x7d")

structure PipelinePersistenceInput (d : Digests u Content) where
  sourceId : UUID
  composition : CompositionInput d
  draft : ReviewDraft Content
  componentId : Option UUID
  composed : draft.inputSha256 = composition.inputSha256
  acquired : draft.artifact = composition.facts.artifact
  evaluated : draft.qualityReportSha256 = d.report composition.qualityReport

def PipelinePersistenceInput.make (sourceId : UUID) (composition : CompositionInput d)
    (draft : ReviewDraft Content) (componentId : Option UUID) :
    Except String (PipelinePersistenceInput d) := do
  let ⟨composed⟩ ← demand (draft.inputSha256 = composition.inputSha256)
    "persistence_composition_input_mismatch"
  let ⟨acquired⟩ ← demand (draft.artifact = composition.facts.artifact)
    "persistence_artifact_mismatch"
  let ⟨evaluated⟩ ← demand (draft.qualityReportSha256 = d.report composition.qualityReport)
    "persistence_quality_report_mismatch"
  return { sourceId, composition, draft, componentId, composed, acquired, evaluated }

/-! ## Ids -/

namespace PipelinePersistenceInput

variable (value : PipelinePersistenceInput d)

/-- The text a page of a source is known by. -/
def sourceLocator (source : SourceReference) : String :=
  (source.sourcePath.orElse fun _ => source.sourceUrl).getD "missing"

def artifactId : UUID :=
  d.name ["artifact", d.text value.sourceId,
    value.draft.artifact.source.sourceRevision.getD "unversioned",
    sourceLocator value.draft.artifact.source, value.draft.artifact.contentSha256]

def identityId : UUID :=
  d.name ["identity", d.text value.artifactId, d.identity value.composition.identity]

def evaluationId : UUID :=
  d.name ["evaluation", d.text value.artifactId, d.report value.composition.qualityReport]

def reviewDraftId : UUID :=
  d.name ["draft", d.text value.artifactId, value.draft.inputSha256, schemaVersion,
    value.draft.composerVersion]

def enrichmentId (externalIdentity sourceRevision relationType : String) : UUID :=
  d.name ["enrichment", d.text value.reviewDraftId, "kicad", relationType, externalIdentity,
    sourceRevision]

end PipelinePersistenceInput

/-! ## Rows -/

structure ArtifactRow where
  id : UUID
  sourceId : UUID
  idempotencyKey : String
  componentId : Option UUID
  runId : UUID
  contentSha256 : String
  factsSha256 : String
  factsPayload : NormalizedFacts
  createdAt : Time

structure IdentityRow (u : Unicode) where
  id : UUID
  artifactId : UUID
  payloadSha256 : String
  payload : ComponentIdentity u
  createdAt : Time

structure EvaluationRow (Content : Type) where
  id : UUID
  artifactId : UUID
  identityCandidateId : UUID
  inputSha256 : String
  reportSha256 : String
  payload : QualityReport Content
  createdAt : Time

structure DraftRow (Content : Type) where
  id : UUID
  artifactId : UUID
  identityCandidateId : UUID
  parserEvaluationId : UUID
  componentId : Option UUID
  inputSha256 : String
  payloadSha256 : String
  payload : ReviewDraft Content
  createdAt : Time

inductive EnrichmentLifecycleStatus
  | suggested | accepted | rejected | stale | conflict
deriving DecidableEq

structure EnrichmentRow where
  id : UUID
  artifactId : UUID
  reviewDraftId : UUID
  componentId : Option UUID
  relationType : String
  externalIdentity : String
  sourceRevision : String
  payload : EnrichmentCandidate
  payloadSha256 : String
  status : EnrichmentLifecycleStatus
  evidence : List EvidenceFragment
  createdAt : Time

structure Tables (u : Unicode) (Content : Type) where
  artifacts : List ArtifactRow := []
  identities : List (IdentityRow u) := []
  evaluations : List (EvaluationRow Content) := []
  drafts : List (DraftRow Content) := []
  enrichments : List EnrichmentRow := []

/-! The unique indexes of each table, its primary key first. -/

def ArtifactRow.clash (a b : ArtifactRow) : Prop :=
  a.id = b.id ∨ (a.sourceId = b.sourceId ∧ a.idempotencyKey = b.idempotencyKey)

def IdentityRow.clash (a b : IdentityRow u) : Prop :=
  a.id = b.id ∨ (a.artifactId = b.artifactId ∧ a.payloadSha256 = b.payloadSha256)

def EvaluationRow.clash (a b : EvaluationRow Content) : Prop :=
  a.id = b.id ∨ (a.artifactId = b.artifactId ∧ a.reportSha256 = b.reportSha256)

def DraftRow.clash (a b : DraftRow Content) : Prop :=
  a.id = b.id ∨ (a.artifactId = b.artifactId ∧ a.payloadSha256 = b.payloadSha256)

def EnrichmentRow.clash (a b : EnrichmentRow) : Prop :=
  a.id = b.id ∨ (a.reviewDraftId = b.reviewDraftId ∧ a.relationType = b.relationType ∧
    a.externalIdentity = b.externalIdentity ∧ a.sourceRevision = b.sourceRevision)

instance : DecidableRel ArtifactRow.clash := fun _ _ => inferInstanceAs (Decidable (_ ∨ _))

instance : DecidableRel (IdentityRow.clash (u := u)) :=
  fun _ _ => inferInstanceAs (Decidable (_ ∨ _))

instance : DecidableRel (@EvaluationRow.clash Content) :=
  fun _ _ => inferInstanceAs (Decidable (_ ∨ _))

instance : DecidableRel (@DraftRow.clash Content) :=
  fun _ _ => inferInstanceAs (Decidable (_ ∨ _))

instance : DecidableRel EnrichmentRow.clash := fun _ _ => inferInstanceAs (Decidable (_ ∨ _))

/-! ## The rows of a call -/

def EnrichmentDecision.status : EnrichmentDecision → EnrichmentLifecycleStatus
  | .autoAccepted => .accepted
  | .reviewRequired => .suggested
  | .rejected => .rejected

namespace PipelinePersistenceInput

variable (value : PipelinePersistenceInput d)

def artifactRow (runId : UUID) : ArtifactRow where
  id := value.artifactId
  sourceId := value.sourceId
  idempotencyKey := d.text value.artifactId
  componentId := value.componentId
  runId
  contentSha256 := value.draft.artifact.contentSha256
  factsSha256 := d.facts value.composition.facts
  factsPayload := value.composition.facts
  createdAt := value.draft.composedAt

def identityRow : IdentityRow u where
  id := value.identityId
  artifactId := value.artifactId
  payloadSha256 := d.identity value.composition.identity
  payload := value.composition.identity
  createdAt := value.draft.composedAt

def evaluationRow : EvaluationRow Content where
  id := value.evaluationId
  artifactId := value.artifactId
  identityCandidateId := value.identityId
  inputSha256 := value.composition.qualityReport.inputSha256
  reportSha256 := d.report value.composition.qualityReport
  payload := value.composition.qualityReport
  createdAt := value.draft.composedAt

def draftRow : DraftRow Content where
  id := value.reviewDraftId
  artifactId := value.artifactId
  identityCandidateId := value.identityId
  parserEvaluationId := value.evaluationId
  componentId := value.componentId
  inputSha256 := value.draft.inputSha256
  payloadSha256 := d.draft value.draft
  payload := value.draft
  createdAt := value.draft.composedAt

def enrichmentIdOf (candidate : EnrichmentCandidate) : UUID :=
  value.enrichmentId candidate.relation.symbol.recordId candidate.relation.symbol.sourceRevision
    candidate.relation.relationType.value

def enrichmentRow (candidate : EnrichmentCandidate) : EnrichmentRow where
  id := value.enrichmentIdOf candidate
  artifactId := value.artifactId
  reviewDraftId := value.reviewDraftId
  componentId := value.componentId
  relationType := candidate.relation.relationType.value
  externalIdentity := candidate.relation.symbol.recordId
  sourceRevision := candidate.relation.symbol.sourceRevision
  payload := candidate
  payloadSha256 := d.candidate candidate
  status := candidate.decision.status
  evidence := (candidate.relation.scoreBreakdown.flatMap (·.sourceEvidence)).eraseDups
  createdAt := value.draft.composedAt

/-- The inserts of a call, with the foreign keys of each table; `none` when one is violated. -/
def write (runId : UUID) (tables : Tables u Content) : Option (Tables u Content) := do
  let artifacts ← insertNew ArtifactRow.clash (fun _ => True) tables.artifacts
    (value.artifactRow runId)
  let identities ← insertNew IdentityRow.clash (fun row => ∃ x ∈ artifacts, x.id = row.artifactId)
    tables.identities value.identityRow
  let evaluations ← insertNew EvaluationRow.clash
    (fun row => (∃ x ∈ artifacts, x.id = row.artifactId) ∧
      ∃ x ∈ identities, x.id = row.identityCandidateId)
    tables.evaluations value.evaluationRow
  let drafts ← insertNew DraftRow.clash
    (fun row => (∃ x ∈ artifacts, x.id = row.artifactId) ∧
      (∃ x ∈ identities, x.id = row.identityCandidateId) ∧
      ∃ x ∈ evaluations, x.id = row.parserEvaluationId)
    tables.drafts value.draftRow
  let enrichments ← insertAll EnrichmentRow.clash
    (fun row => (∃ x ∈ artifacts, x.id = row.artifactId) ∧ ∃ x ∈ drafts, x.id = row.reviewDraftId)
    tables.enrichments (value.composition.enrichments.map value.enrichmentRow)
  return { artifacts, identities, evaluations, drafts, enrichments }

end PipelinePersistenceInput

structure PersistedPipelineDraft where
  artifactId : UUID
  identityId : UUID
  evaluationId : UUID
  reviewDraftId : UUID
  enrichmentIds : List UUID
deriving DecidableEq

/-- The ids a call returns. -/
def PipelinePersistenceInput.persisted (value : PipelinePersistenceInput d) :
    PersistedPipelineDraft where
  artifactId := value.artifactId
  identityId := value.identityId
  evaluationId := value.evaluationId
  reviewDraftId := value.reviewDraftId
  enrichmentIds := value.composition.enrichments.map value.enrichmentIdOf

/-- `persist`, between two readings of its clock. `takes` says which values fit their columns. -/
def persist (takes : CompositionInput d → Composition Content → Bool)
    (context : ImportPipelineContext) (startedAt completedAt : Time)
    (value : PipelinePersistenceInput d) (tables : Tables u Content) :
    Except String (Tables u Content × ImportPipelineContext × PersistedPipelineDraft) := do
  let _ ← demand (context.nextStage = some .persistence) "persistence_stage_out_of_order"
  let _ ← demand (context.sourceKey = value.draft.artifact.source.sourceKey)
    "pipeline_source_mismatch"
  let _ ← demand (takes value.composition value.draft.toComposition = true) "DataError"
  let tables ← fromSome (value.write context.runId tables) "IntegrityError"
  let execution ← StageExecution.make .persistence startedAt completedAt []
  let context ← context.advance execution
  return (tables, context, value.persisted)

/-! ## Runs of the pipeline -/

structure SourceArtifact where
  metadata : SourceArtifactMetadata
  content : List UInt8
deriving DecidableEq

structure PipelineRunRequest where
  runId : UUID
  sourceId : UUID
  artifact : SourceArtifact
  kicadIndex : KicadSymbolIndex
  componentId : Option UUID := none

/-- The stages between acquisition and persistence. -/
structure Stages (d : Digests u Content) where
  normalize : SourceArtifact → Except String NormalizedFacts
  resolve : NormalizedFacts → Except String (ComponentIdentity u)
  enrich : ComponentIdentity u → KicadSymbolIndex → Except String (List EnrichmentCandidate)
  evaluate : QualityEvaluationInput d → Except String (QualityReport Content)
  compose : CompositionInput d → Except String (Composition Content)

/-- What the stages of a run hand to persistence, composed at a time. -/
def Stages.input (stages : Stages d) (request : PipelineRunRequest) (composedAt : Time) :
    Except String (PipelinePersistenceInput d) := do
  let facts ← stages.normalize request.artifact
  let identity ← stages.resolve facts
  let enrichments ← stages.enrich identity request.kicadIndex
  let quality ← QualityEvaluationInput.make d facts identity enrichments
  let report ← stages.evaluate quality
  let composition ← CompositionInput.make quality report
  let composed ← stages.compose composition
  PipelinePersistenceInput.make request.sourceId composition ⟨composed, composedAt⟩
    request.componentId

/-- The same page, read at another time. -/
def SourceArtifact.Same (a b : SourceArtifact) : Prop :=
  a.content = b.content ∧ a.metadata = { b.metadata with acquiredAt := a.metadata.acquiredAt }

/-- A version of the stages. The facts are those of the page that was read, and whether the stages
come through does not depend on when that was. -/
structure Release (d : Digests u Content) extends Stages d where
  acquired : ∀ artifact facts, normalize artifact = .ok facts → facts.artifact = artifact.metadata
  timeless : ∀ request request' composedAt composedAt' value,
    request.artifact.Same request'.artifact → request.kicadIndex = request'.kicadIndex →
    toStages.input request composedAt = .ok value →
    ∃ value', toStages.input request' composedAt' = .ok value'

/-- What PostgreSQL takes: no text is too long for its column, and no JSON payload has a NUL. The
times of the acquisition and of the composition have no part in it. -/
structure Server (d : Digests u Content) where
  takes : CompositionInput d → Composition Content → Bool
  steady : ∀ (release : Release d) request request' composedAt composedAt' value value',
    request.artifact.Same request'.artifact → request.kicadIndex = request'.kicadIndex →
    release.input request composedAt = .ok value → release.input request' composedAt' = .ok value' →
    takes value.composition value.draft.toComposition =
      takes value'.composition value'.draft.toComposition

/-- A run of the pipeline that has come to persistence. -/
structure PipelineRun (d : Digests u Content) where
  release : Release d
  request : PipelineRunRequest
  context : ImportPipelineContext
  composedAt : Time
  startedAt : Time
  completedAt : Time

namespace PipelineRun

variable (r : PipelineRun d)

def input : Except String (PipelinePersistenceInput d) :=
  r.release.input r.request r.composedAt

def execute (server : Server d) (tables : Tables u Content) :
    Except String (Tables u Content × ImportPipelineContext × PersistedPipelineDraft) := do
  persist server.takes r.context r.startedAt r.completedAt (← r.input) tables

end PipelineRun

/-- The tables and the runs that were committed, each with what it returned. -/
structure History (d : Digests u Content) where
  tables : Tables u Content := {}
  completed : List (PipelineRun d × PersistedPipelineDraft) := []

/-- A run commits its rows, or leaves everything as it was. -/
def History.step (server : Server d) (s : History d) (r : PipelineRun d) : Option (History d) :=
  match r.execute server s.tables with
  | .ok (tables, _, persisted) => some ⟨tables, s.completed ++ [(r, persisted)]⟩
  | .error _ => some s

end ComponentKb.Pipeline
