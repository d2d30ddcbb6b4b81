import ComponentKb.Basic
import ComponentKb.Lib.Journal
import ComponentKb.Lib.Table

/-!
# The review workspace of an imported draft

`ImportReviewRepository` (`imports/review.py`) over one draft: its state row, its enrichments and
the actions recorded so far. Every command locks the state row, checks the expected revision and
records one action; `mark_stale` (`imports/pipeline/persistence/postgresql.py`) is a background
writer that takes no such lock. The rows that a command writes are locked, so a command is one
step; `confirm` reads the enrichments without a lock, and its event carries the markings that
commit between its reading and its commit.
-/

namespace ComponentKb.Imports.Review

open ComponentKb.Lib

/-! ## Rows -/

inductive EnrichmentLifecycleStatus where
  | suggested
  | accepted
  | rejected
  | stale
  | conflict
  deriving DecidableEq, Repr

inductive ComponentSymbolRelationType where
  | exactComponent
  | mainIntegratedCircuit
  | onboardComponent
  | connector
  | functionalEquivalent
  deriving DecidableEq, Repr

inductive EnrichmentReviewDecision where
  | accept
  | reject
  deriving DecidableEq, Repr

def EnrichmentReviewDecision.resulting : EnrichmentReviewDecision → EnrichmentLifecycleStatus
  | accept => .accepted
  | reject => .rejected

/-- The columns of `ComponentEnrichmentRecord` that a review reads or writes. -/
structure ComponentEnrichment where
  id : UUID
  provider : String
  relationType : ComponentSymbolRelationType
  externalIdentity : String
  sourceRevision : String
  status : EnrichmentLifecycleStatus
  reviewedBy : Option UUID
  reviewedAt : Option Time
  updatedAt : Time
  deriving DecidableEq, Repr

structure ParserIssue where
  code : String
  note : String
  reportedBy : UUID
  reportedAt : Time
  deriving DecidableEq, Repr

inductive ReviewStatus where
  | pending
  | confirmed
  deriving DecidableEq, Repr

/-- `ImportReviewStateRecord`; the two dictionaries list their items. -/
structure ImportReviewState where
  revision : Nat
  status : ReviewStatus
  selectedIdentityCandidateId : UUID
  specificationMappings : List (String × String)
  parserIssues : List (String × ParserIssue)
  confirmedBy : Option UUID
  confirmedAt : Option Time
  createdAt : Time
  updatedAt : Time
  deriving DecidableEq, Repr

inductive ReviewActionKind where
  | enrichmentAccepted
  | enrichmentRejected
  | enrichmentRelationChanged
  | identitySelected
  | specificationMapped
  | parserIssueMarked
  | draftConfirmed
  deriving DecidableEq, Repr

/-- `target_type` with `target_key`. -/
inductive Target where
  | enrichment (id : UUID)
  | identityCandidate (id : UUID)
  | unmappedSpecification (key : String)
  | parserIssue (code : String)
  | reviewDraft
  deriving DecidableEq, Repr

/-- The JSON objects of `previous_value` and `resulting_value`. -/
inductive ReviewValue where
  | status (status : EnrichmentLifecycleStatus)
  | relation (relationType : ComponentSymbolRelationType) (status : EnrichmentLifecycleStatus)
  | identityCandidate (id : UUID)
  | taxonomyPath (path : Option String)
  /-- `{}` when there is none. -/
  | issue (issue : Option ParserIssue)
  | draftStatus (status : ReviewStatus)
  deriving DecidableEq, Repr

/-- `ImportReviewActionRecord`. -/
structure ImportReviewAction where
  actorId : UUID
  kind : ReviewActionKind
  target : Target
  previousValue : ReviewValue
  resultingValue : ReviewValue
  reason : String
  reviewRevision : Nat
  occurredAt : Time
  deriving DecidableEq, Repr

/-- An item of the artifact's `unmapped_specifications`. -/
structure UnmappedSpecification where
  originalLabel : String
  originalValue : String
  rawValue : String
  deriving DecidableEq, Repr

/-- What a review reads and never writes: the draft, its artifact and the registry.
`specificationKey` is `unmapped_specification_key`. -/
structure ReviewEnv where
  identityCandidateId : UUID
  identities : List UUID
  unmappedSpecifications : List UnmappedSpecification
  specificationKey : UnmappedSpecification → String
  taxonomyPaths : List String

def ReviewEnv.known (env : ReviewEnv) : List String :=
  env.unmappedSpecifications.map env.specificationKey

/-- The rows of one draft. -/
structure Desk where
  state : Option ImportReviewState
  enrichments : List ComponentEnrichment
  actions : List ImportReviewAction
  deriving DecidableEq, Repr

/-! ## Commands -/

/-- `mapping[key] = value`. -/
def assign {α : Type} (items : List (String × α)) (key : String) (value : α) : List (String × α) :=
  if (lookup Prod.fst items key).isSome then replace Prod.fst items (key, value)
  else items ++ [(key, value)]

/-- The arguments that every command takes. -/
structure ReviewRequest where
  reviewerId : UUID
  reason : String
  expectedRevision : Nat
  now : Time
  deriving DecidableEq, Repr

/-- The row `_lock_state` inserts on conflict does nothing. -/
def newState (env : ReviewEnv) (now : Time) : ImportReviewState where
  revision := 1
  status := .pending
  selectedIdentityCandidateId := env.identityCandidateId
  specificationMappings := []
  parserIssues := []
  confirmedBy := none
  confirmedAt := none
  createdAt := now
  updatedAt := now

/-- `_lock_state`. -/
def lockState (env : ReviewEnv) (req : ReviewRequest) (desk : Desk) : Option ImportReviewState :=
  let state := desk.state.getD (newState env req.now)
  if state.revision ≠ req.expectedRevision then none
  else if state.status = .confirmed then none
  else some state

/-- `_record`: the state as the command leaves it gets the next revision. -/
def record (req : ReviewRequest) (kind : ReviewActionKind) (target : Target)
    (previousValue resultingValue : ReviewValue) (state : ImportReviewState)
    (enrichments : List ComponentEnrichment) (desk : Desk) : Desk where
  state := some { state with revision := state.revision + 1, updatedAt := req.now }
  enrichments := enrichments
  actions := desk.actions ++ [{
    actorId := req.reviewerId
    kind, target, previousValue, resultingValue
    reason := req.reason
    reviewRevision := state.revision + 1
    occurredAt := req.now }]

def EnrichmentReviewDecision.kind : EnrichmentReviewDecision → ReviewActionKind
  | accept => .enrichmentAccepted
  | reject => .enrichmentRejected

/-- `review_enrichment`. The previous status is read before the bulk update. -/
def reviewEnrichment (env : ReviewEnv) (req : ReviewRequest) (enrichmentId : UUID)
    (decision : EnrichmentReviewDecision) (desk : Desk) : Option Desk :=
  (lockState env req desk).bind fun state =>
    (lookup (·.id) desk.enrichments enrichmentId).bind fun enrichment =>
      if enrichment.status = .stale then none
      else
        let reviewed := { enrichment with
          status := decision.resulting
          reviewedBy := some req.reviewerId
          reviewedAt := some req.now
          updatedAt := req.now }
        some (record req decision.kind (.enrichment enrichmentId) (.status enrichment.status)
          (.status decision.resulting) state (replace (·.id) desk.enrichments reviewed) desk)

/-- Another enrichment of the draft that already says what `change_relation` would make of this
one. -/
def collides (enrichment other : ComponentEnrichment)
    (relationType : ComponentSymbolRelationType) : Bool :=
  other.id ≠ enrichment.id ∧ other.provider = enrichment.provider ∧
    other.externalIdentity = enrichment.externalIdentity ∧
    other.sourceRevision = enrichment.sourceRevision ∧ other.relationType = relationType

/-- `change_relation`. The relation is read before the bulk update and the status after it, from
the object that the update has refreshed. -/
def changeRelation (env : ReviewEnv) (req : ReviewRequest) (enrichmentId : UUID)
    (relationType : ComponentSymbolRelationType) (desk : Desk) : Option Desk :=
  (lockState env req desk).bind fun state =>
    (lookup (·.id) desk.enrichments enrichmentId).bind fun enrichment =>
      if enrichment.status = .stale then none
      else if enrichment.relationType = relationType then none
      else if desk.enrichments.any fun other => collides enrichment other relationType then none
      else
        let previous := enrichment.relationType
        let updated := { enrichment with
          relationType
          status := .suggested
          reviewedBy := none
          reviewedAt := none
          updatedAt := req.now }
        some (record req .enrichmentRelationChanged (.enrichment enrichmentId)
          (.relation previous updated.status) (.relation relationType .suggested) state
          (replace (·.id) desk.enrichments updated) desk)

/-- `select_identity`. -/
def selectIdentity (env : ReviewEnv) (req : ReviewRequest) (identityCandidateId : UUID)
    (desk : Desk) : Option Desk :=
  (lockState env req desk).bind fun state =>
    if identityCandidateId ∉ env.identities then none
    else if state.selectedIdentityCandidateId = identityCandidateId then none
    else
      some (record req .identitySelected (.identityCandidate identityCandidateId)
        (.identityCandidate state.selectedIdentityCandidateId)
        (.identityCandidate identityCandidateId)
        { state with selectedIdentityCandidateId := identityCandidateId } desk.enrichments desk)

/-- `map_specification`. -/
def mapSpecification (env : ReviewEnv) (req : ReviewRequest)
    (specificationKey taxonomyPath : String) (desk : Desk) : Option Desk :=
  (lockState env req desk).bind fun state =>
    if taxonomyPath ∉ env.taxonomyPaths then none
    else if specificationKey ∉ env.known then none
    else
      let previous := (lookup Prod.fst state.specificationMappings specificationKey).map Prod.snd
      some (record req .specificationMapped (.unmappedSpecification specificationKey)
        (.taxonomyPath previous) (.taxonomyPath (some taxonomyPath))
        { state with
          specificationMappings :=
            assign state.specificationMappings specificationKey taxonomyPath }
        desk.enrichments desk)

/-- `mark_parser_issue`; the request's reason is the note. -/
def markParserIssue (env : ReviewEnv) (req : ReviewRequest) (code : String) (desk : Desk) :
    Option Desk :=
  (lockState env req desk).bind fun state =>
    let previous := (lookup Prod.fst state.parserIssues code).map Prod.snd
    let issue : ParserIssue :=
      { code, note := req.reason, reportedBy := req.reviewerId, reportedAt := req.now }
    some (record req .parserIssueMarked (.parserIssue code) (.issue previous) (.issue (some issue))
      { state with parserIssues := assign state.parserIssues code issue } desk.enrichments desk)

/-- The statuses that `confirm` finds unresolved. -/
def ComponentEnrichment.unresolved (enrichment : ComponentEnrichment) : Bool :=
  enrichment.status ∈ [.suggested, .stale, .conflict]

/-- A call of `mark_stale`. -/
structure StaleMarking where
  provider : String
  currentSourceRevision : String
  changedAt : Time
  deriving DecidableEq, Repr

/-- The `WHERE` of `mark_stale`. -/
def StaleMarking.matches (marking : StaleMarking) (enrichment : ComponentEnrichment) : Bool :=
  enrichment.provider = marking.provider ∧
    enrichment.sourceRevision ≠ marking.currentSourceRevision ∧
    enrichment.status ∈ [.suggested, .accepted, .conflict]

/-- What `mark_stale` makes of an enrichment. -/
def StaleMarking.mark (marking : StaleMarking) (enrichment : ComponentEnrichment) :
    ComponentEnrichment :=
  if marking.matches enrichment then
    { enrichment with status := .stale, updatedAt := marking.changedAt }
  else enrichment

/-- `mark_stale` over the draft's enrichments. -/
def markStale (marking : StaleMarking) (enrichments : List ComponentEnrichment) :
    List ComponentEnrichment :=
  enrichments.map marking.mark

/-- The enrichments after several markings. -/
def overtake (markings : List StaleMarking) (enrichments : List ComponentEnrichment) :
    List ComponentEnrichment :=
  markings.foldl (fun rows marking => markStale marking rows) enrichments

/-- `confirm`. `overtaken` are the markings that commit after the enrichments were read. -/
def confirm (env : ReviewEnv) (req : ReviewRequest) (overtaken : List StaleMarking) (desk : Desk) :
    Option Desk :=
  (lockState env req desk).bind fun state =>
    if desk.enrichments.any (·.unresolved) then none
    else if ∃ key ∈ env.known, (lookup Prod.fst state.specificationMappings key).isNone then none
    else
      some (record req .draftConfirmed .reviewDraft (.draftStatus .pending)
        (.draftStatus .confirmed)
        { state with
          status := .confirmed
          confirmedBy := some req.reviewerId
          confirmedAt := some req.now }
        (overtake overtaken desk.enrichments) desk)

/-! ## The system -/

inductive ReviewCommand where
  | reviewEnrichment (enrichmentId : UUID) (decision : EnrichmentReviewDecision)
  | changeRelation (enrichmentId : UUID) (relationType : ComponentSymbolRelationType)
  | selectIdentity (identityCandidateId : UUID)
  | mapSpecification (specificationKey taxonomyPath : String)
  | markParserIssue (code : String)
  | confirm (overtaken : List StaleMarking)
  deriving DecidableEq, Repr

inductive ReviewEvent where
  | command (req : ReviewRequest) (command : ReviewCommand)
  | markStale (marking : StaleMarking)
  deriving DecidableEq, Repr

/-- A command: `none` when it raises and is rolled back. -/
def perform (env : ReviewEnv) (req : ReviewRequest) (desk : Desk) : ReviewCommand → Option Desk
  | .reviewEnrichment enrichmentId decision => reviewEnrichment env req enrichmentId decision desk
  | .changeRelation enrichmentId relationType =>
    changeRelation env req enrichmentId relationType desk
  | .selectIdentity identityCandidateId => selectIdentity env req identityCandidateId desk
  | .mapSpecification specificationKey taxonomyPath =>
    mapSpecification env req specificationKey taxonomyPath desk
  | .markParserIssue code => markParserIssue env req code desk
  | .confirm overtaken => confirm env req overtaken desk

def step (env : ReviewEnv) (desk : Desk) : ReviewEvent → Option Desk
  | .command req command => perform env req desk command
  | .markStale marking =>
    some { desk with enrichments := markStale marking desk.enrichments }

end ComponentKb.Imports.Review
