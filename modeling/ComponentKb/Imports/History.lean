import ComponentKb.Imports.Review

/-!
# What the history of a review says

A reviewer sees the draft's status, the selected identity, the mappings, the parser issues and, for
each enrichment, its relation and status: `ReviewValues`. Every action of the history holds the
values it found and the values it left.

* `history_faithful`: the history of a run is faithful (`FaithfulHistory`) exactly when no step of
  it `slips`: `change_relation` on an enrichment that is not `suggested` records the status it has
  just written as the previous one, and a staleness marking changes an enrichment without an
  action, before a confirmation or during it.
* `step_numbered`, `step_closed`: the revisions are consecutive and a confirmed draft is closed, in
  every run.
-/

namespace ComponentKb.Imports.Review

open ComponentKb.Lib
open ComponentKb.Lib.Journal

/-! ## The values a history is about -/

/-- What a reviewer decides about an enrichment. -/
structure EnrichmentValue where
  id : UUID
  relationType : ComponentSymbolRelationType
  status : EnrichmentLifecycleStatus
  deriving DecidableEq, Repr

def ComponentEnrichment.value (enrichment : ComponentEnrichment) : EnrichmentValue :=
  ⟨enrichment.id, enrichment.relationType, enrichment.status⟩

structure ReviewValues where
  status : ReviewStatus
  selectedIdentityCandidateId : UUID
  specificationMappings : List (String × String)
  parserIssues : List (String × ParserIssue)
  enrichments : List EnrichmentValue
  deriving DecidableEq, Repr

def ImportReviewState.values (state : ImportReviewState) (enrichments : List ComponentEnrichment) :
    ReviewValues where
  status := state.status
  selectedIdentityCandidateId := state.selectedIdentityCandidateId
  specificationMappings := state.specificationMappings
  parserIssues := state.parserIssues
  enrichments := enrichments.map (·.value)

/-- The values of a draft; before its first command those of the state row it will get. -/
def Desk.values (env : ReviewEnv) (desk : Desk) : ReviewValues :=
  (desk.state.getD (newState env 0)).values desk.enrichments

/-- One enrichment's values changed. -/
def ReviewValues.modify (values : ReviewValues) (id : UUID)
    (f : EnrichmentValue → EnrichmentValue) : ReviewValues :=
  { values with
    enrichments := values.enrichments.map fun value => if value.id = id then f value else value }

/-- What an action says happened. -/
def redo (values : ReviewValues) (action : ImportReviewAction) : ReviewValues :=
  match action.target, action.resultingValue with
  | .enrichment id, .status status => values.modify id fun value => { value with status }
  | .enrichment id, .relation relationType status =>
    values.modify id fun value => { value with relationType, status }
  | .identityCandidate _, .identityCandidate id => { values with selectedIdentityCandidateId := id }
  | .unmappedSpecification key, .taxonomyPath (some path) =>
    { values with specificationMappings := assign values.specificationMappings key path }
  | .parserIssue code, .issue (some issue) =>
    { values with parserIssues := assign values.parserIssues code issue }
  | .reviewDraft, .draftStatus status => { values with status }
  | _, _ => values

/-- The values of the fields that an action writes. -/
def ReviewValues.read (values : ReviewValues) (action : ImportReviewAction) : Option ReviewValue :=
  match action.target, action.resultingValue with
  | .enrichment id, .status _ =>
    (lookup (·.id) values.enrichments id).map fun value => .status value.status
  | .enrichment id, .relation _ _ =>
    (lookup (·.id) values.enrichments id).map fun value => .relation value.relationType value.status
  | .identityCandidate _, .identityCandidate _ =>
    some (.identityCandidate values.selectedIdentityCandidateId)
  | .unmappedSpecification key, .taxonomyPath _ =>
    some (.taxonomyPath ((lookup Prod.fst values.specificationMappings key).map Prod.snd))
  | .parserIssue code, .issue _ =>
    some (.issue ((lookup Prod.fst values.parserIssues code).map Prod.snd))
  | .reviewDraft, .draftStatus _ => some (.draftStatus values.status)
  | _, _ => none

def Desk.confirmed (desk : Desk) : Bool := desk.state.any (·.status = .confirmed)

/-- Every enrichment is accepted or rejected and every unmapped specification has a mapping. -/
structure Desk.Resolved (env : ReviewEnv) (desk : Desk) : Prop where
  enrichments : ∀ enrichment ∈ desk.enrichments,
    enrichment.status = .accepted ∨ enrichment.status = .rejected
  mappings : ∀ key ∈ env.known,
    (lookup Prod.fst (desk.values env).specificationMappings key).isSome

/-- The history of a run is faithful. -/
structure FaithfulHistory (env : ReviewEnv) (desk : Desk) (events : List ReviewEvent) : Prop where
  numbered : Always (step env) (fun t => Numbered (·.reviewRevision) 2 t.actions ∧
    ∀ state, t.state = some state → state.revision = t.actions.length + 1) desk events
  previous : Along (step env) (fun s _ s' => ∀ action ∈ written Desk.actions s s',
    (s.values env).read action = some action.previousValue) desk events
  replayed : Always (step env)
    (Redundant redo (Desk.values env) Desk.actions (desk.values env)) desk events
  closed : Always (step env)
    (fun t => t.confirmed → ∀ req command, perform env req t command = none) desk events
  resolved : Along (step env)
    (fun s _ s' => ¬s.confirmed → s'.confirmed → s'.Resolved env) desk events

/-! ## Where it fails -/

/-- One of the markings changes one of the enrichments. -/
def hits (markings : List StaleMarking) (enrichments : List ComponentEnrichment) : Bool :=
  enrichments.any fun enrichment => markings.any fun marking => marking.matches enrichment

/-- `change_relation` on an enrichment whose status is not the one it writes. -/
def misreads (desk : Desk) : ReviewEvent → Bool
  | .command _ (.changeRelation enrichmentId _) =>
    (lookup (·.id) desk.enrichments enrichmentId).any (·.status ≠ .suggested)
  | _ => false

/-- A marking that changes one of the draft's enrichments, between commands or during `confirm`. -/
def unrecorded (desk : Desk) : ReviewEvent → Bool
  | .command _ (.confirm overtaken) => hits overtaken desk.enrichments
  | .markStale marking => hits [marking] desk.enrichments
  | _ => false

def slips (desk : Desk) (event : ReviewEvent) : Bool := misreads desk event || unrecorded desk event

/-! ## Markings -/

/-- An enrichment after several markings. -/
def StaleMarking.markAll (markings : List StaleMarking) (enrichment : ComponentEnrichment) :
    ComponentEnrichment :=
  markings.foldl (fun row marking => marking.mark row) enrichment

theorem StaleMarking.mark_of_not_matches {marking : StaleMarking} {enrichment : ComponentEnrichment}
    (h : marking.matches enrichment = false) : marking.mark enrichment = enrichment := by
  rw [StaleMarking.mark, h]
  rfl

theorem StaleMarking.mark_id (marking : StaleMarking) (enrichment : ComponentEnrichment) :
    (marking.mark enrichment).id = enrichment.id := by
  unfold StaleMarking.mark
  split <;> rfl

theorem StaleMarking.mark_of_stale {marking : StaleMarking} {enrichment : ComponentEnrichment}
    (h : enrichment.status = .stale) : marking.mark enrichment = enrichment := by
  refine mark_of_not_matches ?_
  simp [StaleMarking.matches, h]

theorem overtake_eq (markings : List StaleMarking) (enrichments : List ComponentEnrichment) :
    overtake markings enrichments = enrichments.map (StaleMarking.markAll markings) := by
  induction markings generalizing enrichments with
  | nil => exact (List.map_id enrichments).symm
  | cons marking markings ih =>
    change overtake markings (markStale marking enrichments) = _
    rw [ih, markStale, List.map_map]
    rfl

theorem StaleMarking.markAll_of_stale (markings : List StaleMarking)
    {enrichment : ComponentEnrichment} (h : enrichment.status = .stale) :
    markAll markings enrichment = enrichment := by
  induction markings with
  | nil => rfl
  | cons marking markings ih =>
    change markAll markings (marking.mark enrichment) = enrichment
    rw [mark_of_stale h, ih]

theorem StaleMarking.markAll_of_not_matches {markings : List StaleMarking}
    {enrichment : ComponentEnrichment} (h : ∀ m ∈ markings, m.matches enrichment = false) :
    markAll markings enrichment = enrichment := by
  induction markings with
  | nil => rfl
  | cons marking markings ih =>
    obtain ⟨hhead, hrest⟩ := List.forall_mem_cons.mp h
    change markAll markings (marking.mark enrichment) = enrichment
    rw [mark_of_not_matches hhead, ih hrest]

/-- A marking that matches leaves a `stale` enrichment that was not `stale`. -/
theorem StaleMarking.mark_of_matches {marking : StaleMarking} {enrichment : ComponentEnrichment}
    (h : marking.matches enrichment = true) :
    (marking.mark enrichment).status = .stale ∧ enrichment.status ≠ .stale := by
  refine ⟨by rw [StaleMarking.mark, if_pos h], fun hstale => ?_⟩
  rw [StaleMarking.matches, hstale] at h
  simp at h

/-- Markings change what a reviewer sees of an enrichment exactly when one of them matches. -/
theorem StaleMarking.markAll_value {markings : List StaleMarking}
    {enrichment : ComponentEnrichment} :
    (markAll markings enrichment).value = enrichment.value ↔
      ∀ m ∈ markings, m.matches enrichment = false := by
  refine ⟨fun h => ?_, fun h => by rw [markAll_of_not_matches h]⟩
  induction markings with
  | nil => simp
  | cons marking markings ih =>
    change (markAll markings (marking.mark enrichment)).value = enrichment.value at h
    cases hm : marking.matches enrichment with
    | true =>
      obtain ⟨hstale, hnot⟩ := mark_of_matches hm
      rw [markAll_of_stale markings hstale] at h
      exact absurd ((congrArg EnrichmentValue.status h).symm.trans hstale) hnot
    | false =>
      rw [mark_of_not_matches hm] at h
      exact List.forall_mem_cons.mpr ⟨hm, ih h⟩

theorem hits_eq_false {markings : List StaleMarking} {enrichments : List ComponentEnrichment} :
    hits markings enrichments = false ↔
      ∀ enrichment ∈ enrichments, ∀ m ∈ markings, m.matches enrichment = false := by
  simp [hits]

/-- **A marking shows exactly when it hits.** -/
theorem overtake_value_iff {markings : List StaleMarking}
    {enrichments : List ComponentEnrichment} :
    (overtake markings enrichments).map (·.value) = enrichments.map (·.value) ↔
      hits markings enrichments = false := by
  rw [overtake_eq, List.map_map, List.map_inj_left, hits_eq_false]
  exact forall₂_congr fun enrichment _ => StaleMarking.markAll_value

theorem overtake_of_not_hits {markings : List StaleMarking}
    {enrichments : List ComponentEnrichment} (h : hits markings enrichments = false) :
    overtake markings enrichments = enrichments := by
  rw [overtake_eq]
  refine (List.map_congr_left fun enrichment hmem => ?_).trans (List.map_id enrichments)
  exact StaleMarking.markAll_of_not_matches (hits_eq_false.mp h enrichment hmem)

theorem overtake_ids (markings : List StaleMarking) (enrichments : List ComponentEnrichment) :
    (overtake markings enrichments).map (·.id) = enrichments.map (·.id) := by
  induction markings generalizing enrichments with
  | nil => rfl
  | cons marking markings ih =>
    change (overtake markings (markStale marking enrichments)).map (·.id) = _
    rw [ih, markStale, List.map_map]
    exact congrArg (List.map · enrichments) (funext fun row => marking.mark_id row)

/-! ## What a command does -/

theorem lockState_eq_some {env : ReviewEnv} {req : ReviewRequest} {desk : Desk}
    {state : ImportReviewState} (h : lockState env req desk = some state) :
    desk.state.getD (newState env req.now) = state ∧ state.revision = req.expectedRevision ∧
      state.status = .pending := by
  unfold lockState at h
  simp only at h
  split at h
  · exact absurd h (by simp)
  · split at h
    · exact absurd h (by simp)
    · rename_i hrevision hstatus
      have heq := Option.some.inj h
      subst heq
      refine ⟨rfl, not_not.mp hrevision, ?_⟩
      cases hs : (desk.state.getD (newState env req.now)).status with
      | pending => rfl
      | confirmed => exact absurd hs hstatus

theorem lockState_values {env : ReviewEnv} {req : ReviewRequest} {desk : Desk}
    {state : ImportReviewState} (h : lockState env req desk = some state) :
    desk.values env = state.values desk.enrichments := by
  obtain ⟨hstate, -, -⟩ := lockState_eq_some h
  rw [← hstate]
  unfold Desk.values
  cases desk.state with
  | none => rfl
  | some stored => rfl

/-- The action that a command records, with the state and the enrichments it leaves. -/
structure Outcome where
  kind : ReviewActionKind
  target : Target
  previousValue : ReviewValue
  resultingValue : ReviewValue
  state : ImportReviewState
  enrichments : List ComponentEnrichment

/-- A command that succeeds on a locked state, with its guards. -/
inductive Performs (env : ReviewEnv) (req : ReviewRequest) (desk : Desk)
    (state : ImportReviewState) : ReviewCommand → Outcome → Prop
  | reviewEnrichment {id : UUID} {decision : EnrichmentReviewDecision}
      {enrichment : ComponentEnrichment} {reviewed : ComponentEnrichment}
      (hfound : lookup (·.id) desk.enrichments id = some enrichment)
      (hfresh : enrichment.status ≠ .stale)
      (hreviewed : reviewed = { enrichment with
        status := decision.resulting, reviewedBy := some req.reviewerId,
        reviewedAt := some req.now, updatedAt := req.now }) :
      Performs env req desk state (.reviewEnrichment id decision)
        ⟨decision.kind, .enrichment id, .status enrichment.status, .status decision.resulting,
          state, replace (·.id) desk.enrichments reviewed⟩
  | changeRelation {id : UUID} {relationType : ComponentSymbolRelationType}
      {enrichment : ComponentEnrichment} {updated : ComponentEnrichment}
      (hfound : lookup (·.id) desk.enrichments id = some enrichment)
      (hfresh : enrichment.status ≠ .stale)
      (hchanged : enrichment.relationType ≠ relationType)
      (hfree : desk.enrichments.any (collides enrichment · relationType) = false)
      (hupdated : updated = { enrichment with
        relationType, status := .suggested, reviewedBy := none, reviewedAt := none,
        updatedAt := req.now }) :
      Performs env req desk state (.changeRelation id relationType)
        ⟨.enrichmentRelationChanged, .enrichment id, .relation enrichment.relationType .suggested,
          .relation relationType .suggested, state, replace (·.id) desk.enrichments updated⟩
  | selectIdentity {id : UUID} (hknown : id ∈ env.identities)
      (hother : state.selectedIdentityCandidateId ≠ id) :
      Performs env req desk state (.selectIdentity id)
        ⟨.identitySelected, .identityCandidate id,
          .identityCandidate state.selectedIdentityCandidateId, .identityCandidate id,
          { state with selectedIdentityCandidateId := id }, desk.enrichments⟩
  | mapSpecification {key path : String} (hpath : path ∈ env.taxonomyPaths)
      (hkey : key ∈ env.known) :
      Performs env req desk state (.mapSpecification key path)
        ⟨.specificationMapped, .unmappedSpecification key,
          .taxonomyPath ((lookup Prod.fst state.specificationMappings key).map Prod.snd),
          .taxonomyPath (some path),
          { state with specificationMappings := assign state.specificationMappings key path },
          desk.enrichments⟩
  | markParserIssue {code : String} {issue : ParserIssue}
      (hissue : issue = ⟨code, req.reason, req.reviewerId, req.now⟩) :
      Performs env req desk state (.markParserIssue code)
        ⟨.parserIssueMarked, .parserIssue code,
          .issue ((lookup Prod.fst state.parserIssues code).map Prod.snd), .issue (some issue),
          { state with parserIssues := assign state.parserIssues code issue }, desk.enrichments⟩
  | confirm {overtaken : List StaleMarking}
      (hresolved : desk.enrichments.any (·.unresolved) = false)
      (hmapped : ∀ key ∈ env.known, (lookup Prod.fst state.specificationMappings key).isSome) :
      Performs env req desk state (.confirm overtaken)
        ⟨.draftConfirmed, .reviewDraft, .draftStatus .pending, .draftStatus .confirmed,
          { state with
            status := .confirmed, confirmedBy := some req.reviewerId, confirmedAt := some req.now },
          overtake overtaken desk.enrichments⟩

/-- The desk after a command that succeeds. -/
def Outcome.recorded (outcome : Outcome) (req : ReviewRequest) (desk : Desk) : Desk :=
  record req outcome.kind outcome.target outcome.previousValue outcome.resultingValue outcome.state
    outcome.enrichments desk

/-- **What a command can do.** -/
theorem perform_eq_some {env : ReviewEnv} {req : ReviewRequest} {desk desk' : Desk}
    {command : ReviewCommand} (h : perform env req desk command = some desk') :
    ∃ state outcome, lockState env req desk = some state ∧
      Performs env req desk state command outcome ∧ desk' = outcome.recorded req desk := by
  cases command with
  | reviewEnrichment id decision =>
    obtain ⟨state, hlock, h⟩ := Option.bind_eq_some_iff.mp h
    obtain ⟨enrichment, hfound, h⟩ := Option.bind_eq_some_iff.mp h
    split at h
    · exact absurd h (by simp)
    · rename_i hfresh
      exact ⟨state, _, hlock, .reviewEnrichment hfound hfresh rfl, (Option.some.inj h).symm⟩
  | changeRelation id relationType =>
    obtain ⟨state, hlock, h⟩ := Option.bind_eq_some_iff.mp h
    obtain ⟨enrichment, hfound, h⟩ := Option.bind_eq_some_iff.mp h
    split at h
    · exact absurd h (by simp)
    · split at h
      · exact absurd h (by simp)
      · split at h
        · exact absurd h (by simp)
        · rename_i hfresh hchanged hfree
          exact ⟨state, _, hlock,
            .changeRelation hfound hfresh hchanged (Bool.eq_false_iff.mpr hfree) rfl,
            (Option.some.inj h).symm⟩
  | selectIdentity id =>
    obtain ⟨state, hlock, h⟩ := Option.bind_eq_some_iff.mp h
    split at h
    · exact absurd h (by simp)
    · split at h
      · exact absurd h (by simp)
      · rename_i hknown hother
        exact ⟨state, _, hlock, .selectIdentity (not_not.mp hknown) hother,
          (Option.some.inj h).symm⟩
  | mapSpecification key path =>
    obtain ⟨state, hlock, h⟩ := Option.bind_eq_some_iff.mp h
    split at h
    · exact absurd h (by simp)
    · split at h
      · exact absurd h (by simp)
      · rename_i hpath hkey
        exact ⟨state, _, hlock, .mapSpecification (not_not.mp hpath) (not_not.mp hkey),
          (Option.some.inj h).symm⟩
  | markParserIssue code =>
    obtain ⟨state, hlock, h⟩ := Option.bind_eq_some_iff.mp h
    exact ⟨state, _, hlock, .markParserIssue rfl, (Option.some.inj h).symm⟩
  | confirm overtaken =>
    obtain ⟨state, hlock, h⟩ := Option.bind_eq_some_iff.mp h
    split at h
    · exact absurd h (by simp)
    · split at h
      · exact absurd h (by simp)
      · rename_i hresolved hmapped
        refine ⟨state, _, hlock, .confirm (Bool.eq_false_iff.mpr hresolved) fun key hkey => ?_,
          (Option.some.inj h).symm⟩
        by_contra hnone
        exact hmapped ⟨key, hkey, by rw [Option.not_isSome_iff_eq_none.mp hnone]; rfl⟩

/-! ## What a command records -/

def Outcome.action (outcome : Outcome) (req : ReviewRequest) : ImportReviewAction where
  actorId := req.reviewerId
  kind := outcome.kind
  target := outcome.target
  previousValue := outcome.previousValue
  resultingValue := outcome.resultingValue
  reason := req.reason
  reviewRevision := outcome.state.revision + 1
  occurredAt := req.now

theorem Outcome.recorded_actions (outcome : Outcome) (req : ReviewRequest) (desk : Desk) :
    (outcome.recorded req desk).actions = desk.actions ++ [outcome.action req] := rfl

theorem Outcome.recorded_values (outcome : Outcome) (env : ReviewEnv) (req : ReviewRequest)
    (desk : Desk) :
    (outcome.recorded req desk).values env = outcome.state.values outcome.enrichments := rfl

section Performs

variable {env : ReviewEnv} {req : ReviewRequest} {desk : Desk} {state : ImportReviewState}
  {command : ReviewCommand} {outcome : Outcome}

theorem Performs.ids (h : Performs env req desk state command outcome) :
    outcome.enrichments.map (·.id) = desk.enrichments.map (·.id) := by
  cases h with
  | reviewEnrichment | changeRelation => exact map_key_replace _
  | confirm => exact overtake_ids _ _
  | selectIdentity | mapSpecification | markParserIssue => rfl

theorem Performs.revision (h : Performs env req desk state command outcome) :
    outcome.state.revision = state.revision := by
  cases h <;> rfl

/-- The previous value is the one found, but for the status of a changed relation. -/
theorem Performs.previous_iff (hstate : state.status = .pending)
    (h : Performs env req desk state command outcome) :
    (state.values desk.enrichments).read (outcome.action req) = some outcome.previousValue ↔
      misreads desk (.command req command) = false := by
  have hvalue : ∀ id, lookup (·.id) (desk.enrichments.map (·.value)) id =
      (lookup (·.id) desk.enrichments id).map (·.value) := fun id => lookup_map fun _ => rfl
  cases h with
  | reviewEnrichment hfound hfresh hreviewed =>
    refine iff_of_true ?_ rfl
    change (lookup (·.id) (desk.enrichments.map (·.value)) _).map _ = _
    rw [hvalue, hfound]
    rfl
  | @changeRelation id relationType enrichment updated hfound hfresh hchanged hfree hupdated =>
    change (lookup (·.id) (desk.enrichments.map (·.value)) id).map _ = _ ↔
      (lookup (·.id) desk.enrichments id).any _ = false
    rw [hvalue, hfound]
    simp [ComponentEnrichment.value]
  | selectIdentity | mapSpecification | markParserIssue => exact iff_of_true rfl rfl
  | confirm hresolved hmapped =>
    refine iff_of_true ?_ rfl
    change some (ReviewValue.draftStatus state.status) = _
    rw [hstate]

theorem replace_value {enrichments : List ComponentEnrichment} {old new : ComponentEnrichment}
    {g : EnrichmentValue → EnrichmentValue} (hids : (enrichments.map (·.id)).Nodup)
    (hfound : lookup (·.id) enrichments new.id = some old) (hg : new.value = g old.value) :
    (replace (·.id) enrichments new).map (·.value) =
      (enrichments.map (·.value)).map fun value =>
        if value.id = new.id then g value else value := by
  rw [map_replace hids hfound hg, List.map_map]
  rfl

/-- The values left are the recorded ones, but for what a marking changed meanwhile. -/
theorem Performs.redo_iff (hids : (desk.enrichments.map (·.id)).Nodup)
    (h : Performs env req desk state command outcome) :
    outcome.state.values outcome.enrichments =
        redo (state.values desk.enrichments) (outcome.action req) ↔
      unrecorded desk (.command req command) = false := by
  cases h with
  | @reviewEnrichment id decision enrichment reviewed hfound hfresh hreviewed =>
    refine iff_of_true ?_ rfl
    have hid : enrichment.id = id := key_of_lookup hfound
    obtain rfl : reviewed.id = id := by rw [hreviewed, ← hid]
    have hvalues := replace_value hids hfound
      (g := fun value => { value with status := decision.resulting }) (by rw [hreviewed]; rfl)
    simp only [ImportReviewState.values, redo, Outcome.action, ReviewValues.modify, hvalues]
  | @changeRelation id relationType enrichment updated hfound hfresh hchanged hfree hupdated =>
    refine iff_of_true ?_ rfl
    have hid : enrichment.id = id := key_of_lookup hfound
    obtain rfl : updated.id = id := by rw [hupdated, ← hid]
    have hvalues := replace_value hids hfound
      (g := fun value => { value with relationType, status := .suggested })
      (by rw [hupdated]; rfl)
    simp only [ImportReviewState.values, redo, Outcome.action, ReviewValues.modify, hvalues]
  | selectIdentity | mapSpecification | markParserIssue => exact iff_of_true rfl rfl
  | @confirm overtaken hresolved hmapped =>
    change _ ↔ hits overtaken desk.enrichments = false
    rw [← overtake_value_iff]
    constructor
    · exact fun hvalues => congrArg ReviewValues.enrichments hvalues
    · intro hvalues
      simp only [ImportReviewState.values, redo, Outcome.action, hvalues]

end Performs

/-! ## What a run keeps -/

/-- The rows of a draft under review: distinct enrichments, and a revision in step with the
history. -/
structure Desk.Kept (desk : Desk) : Prop where
  ids : (desk.enrichments.map (·.id)).Nodup
  numbered : Numbered (·.reviewRevision) 2 desk.actions
  revision : ∀ state, desk.state = some state → state.revision = desk.actions.length + 1
  unopened : desk.state = none → desk.actions = []

theorem Desk.Kept.locked {env : ReviewEnv} {req : ReviewRequest} {desk : Desk}
    {state : ImportReviewState} (h : desk.Kept) (hlock : lockState env req desk = some state) :
    state.revision = desk.actions.length + 1 := by
  obtain ⟨hstate, -, -⟩ := lockState_eq_some hlock
  cases hs : desk.state with
  | none =>
    rw [hs] at hstate
    rw [← hstate, h.unopened hs]
    rfl
  | some stored =>
    rw [hs] at hstate
    rw [← hstate]
    exact h.revision stored hs

/-- A step is a command that recorded its action, or a marking. -/
theorem step_cases {env : ReviewEnv} {desk desk' : Desk} {event : ReviewEvent}
    (h : step env desk event = some desk') :
    (∃ req command state outcome, event = .command req command ∧
      lockState env req desk = some state ∧ Performs env req desk state command outcome ∧
      desk' = outcome.recorded req desk) ∨
    ∃ marking, event = .markStale marking ∧
      desk' = { desk with enrichments := overtake [marking] desk.enrichments } := by
  cases event with
  | command req command =>
    obtain ⟨state, outcome, hlock, hperforms, rfl⟩ := perform_eq_some h
    exact Or.inl ⟨req, command, state, outcome, rfl, hlock, hperforms, rfl⟩
  | markStale marking => exact Or.inr ⟨marking, rfl, (Option.some.inj h).symm⟩

theorem step_kept {env : ReviewEnv} {desk desk' : Desk} {event : ReviewEvent} (hk : desk.Kept)
    (h : step env desk event = some desk') : desk'.Kept := by
  obtain ⟨req, command, state, outcome, -, hlock, hperforms, rfl⟩ | ⟨marking, -, rfl⟩ :=
    step_cases h
  · have hrevision : outcome.state.revision = desk.actions.length + 1 :=
      hperforms.revision.trans (hk.locked hlock)
    refine ⟨?_, ?_, ?_, ?_⟩
    · exact hperforms.ids.symm ▸ hk.ids
    · refine hk.numbered.append ?_
      change outcome.state.revision + 1 = _
      omega
    · rintro stored hstored
      rw [← Option.some.inj hstored, Outcome.recorded_actions, List.length_append]
      change outcome.state.revision + 1 = _
      rw [hrevision]
      rfl
    · exact fun hnone => absurd hnone (by simp [Outcome.recorded, record])
  · exact ⟨(overtake_ids _ _).symm ▸ hk.ids, hk.numbered, hk.revision, hk.unopened⟩

theorem step_grows {env : ReviewEnv} (desk : Desk) (event : ReviewEvent) (desk' : Desk)
    (h : step env desk event = some desk') : desk.actions <+: desk'.actions := by
  obtain ⟨req, command, state, outcome, -, -, -, rfl⟩ | ⟨marking, -, rfl⟩ := step_cases h
  · exact List.prefix_append _ _
  · exact List.prefix_refl _

/-- A confirmed draft accepts no further command. -/
theorem step_closed {env : ReviewEnv} {desk : Desk} (h : desk.confirmed) (req : ReviewRequest)
    (command : ReviewCommand) : perform env req desk command = none := by
  by_contra hne
  obtain ⟨desk', hsome⟩ := Option.ne_none_iff_exists'.mp hne
  obtain ⟨state, outcome, hlock, -, -⟩ := perform_eq_some hsome
  obtain ⟨hstate, -, hpending⟩ := lockState_eq_some hlock
  unfold Desk.confirmed at h
  cases hs : desk.state with
  | none =>
    rw [hs] at h
    exact absurd h (by simp)
  | some stored =>
    rw [hs] at hstate h
    rw [← hstate] at hpending
    rw [Option.getD_some] at hpending
    simp [hpending] at h

/-- What a step records as found is what it found, exactly when it does not misread. -/
theorem step_previous_iff {env : ReviewEnv} {desk desk' : Desk} {event : ReviewEvent}
    (h : step env desk event = some desk') :
    (∀ action ∈ written Desk.actions desk desk',
      (desk.values env).read action = some action.previousValue) ↔
      misreads desk event = false := by
  obtain ⟨req, command, state, outcome, rfl, hlock, hperforms, rfl⟩ | ⟨marking, rfl, rfl⟩ :=
    step_cases h
  · rw [written_eq (outcome.recorded_actions req desk), lockState_values hlock]
    rw [List.forall_mem_singleton]
    exact hperforms.previous_iff (lockState_eq_some hlock).2.2
  · have hnone : written Desk.actions desk
        { desk with enrichments := overtake [marking] desk.enrichments } = [] := written_same rfl
    rw [hnone]
    exact iff_of_true (fun _ hnone => absurd hnone (by simp)) rfl

/-- A step is accounted for by what it records, exactly when nothing is left unrecorded. -/
theorem step_accounted_iff {env : ReviewEnv} {desk desk' : Desk} {event : ReviewEvent}
    (hk : desk.Kept) (h : step env desk event = some desk') :
    Accounted redo (Desk.values env) Desk.actions desk desk' ↔ unrecorded desk event = false := by
  obtain ⟨req, command, state, outcome, rfl, hlock, hperforms, rfl⟩ | ⟨marking, rfl, rfl⟩ :=
    step_cases h
  · rw [Accounted, written_eq (outcome.recorded_actions req desk), lockState_values hlock,
      outcome.recorded_values, replay_singleton]
    exact hperforms.redo_iff hk.ids
  · have hnone : written Desk.actions desk
        { desk with enrichments := overtake [marking] desk.enrichments } = [] := written_same rfl
    rw [Accounted, hnone, replay_nil]
    change _ ↔ hits [marking] desk.enrichments = false
    rw [← overtake_value_iff]
    constructor
    · exact fun hvalues => congrArg ReviewValues.enrichments hvalues
    · intro hvalues
      simp only [Desk.values, ImportReviewState.values, hvalues]

theorem ComponentEnrichment.resolved_of_not_unresolved {enrichment : ComponentEnrichment}
    (h : enrichment.unresolved = false) :
    enrichment.status = .accepted ∨ enrichment.status = .rejected := by
  unfold ComponentEnrichment.unresolved at h
  cases hs : enrichment.status <;> simp_all

/-- A draft becomes confirmed by `confirm` alone, and is resolved unless a marking overtook it. -/
theorem step_resolved {env : ReviewEnv} {desk desk' : Desk} {event : ReviewEvent}
    (h : step env desk event = some desk') (hclean : unrecorded desk event = false)
    (hbefore : ¬desk.confirmed) (hafter : desk'.confirmed) : desk'.Resolved env := by
  obtain ⟨req, command, state, outcome, rfl, hlock, hperforms, rfl⟩ | ⟨marking, rfl, rfl⟩ :=
    step_cases h
  · cases hperforms with
    | @confirm overtaken hresolved hmapped =>
      have hkept : overtake overtaken desk.enrichments = desk.enrichments :=
        overtake_of_not_hits hclean
      refine ⟨fun enrichment hmem => ?_, hmapped⟩
      change enrichment ∈ overtake overtaken desk.enrichments at hmem
      rw [hkept] at hmem
      rw [List.any_eq_false] at hresolved
      exact ComponentEnrichment.resolved_of_not_unresolved
        (Bool.eq_false_iff.mpr (hresolved enrichment hmem))
    | reviewEnrichment | changeRelation | selectIdentity | mapSpecification | markParserIssue =>
      have hpending := (lockState_eq_some hlock).2.2
      simp [Desk.confirmed, Outcome.recorded, record, hpending] at hafter
  · exact absurd hafter hbefore

/-! ## The history of a run -/

/-- A draft that the pipeline has stored and nobody has reviewed. -/
structure Desk.Fresh (desk : Desk) : Prop where
  ids : (desk.enrichments.map (·.id)).Nodup
  state : desk.state = none
  actions : desk.actions = []

theorem Desk.Fresh.kept {desk : Desk} (h : desk.Fresh) : desk.Kept where
  ids := h.ids
  numbered := h.actions ▸ Numbered.nil _ _
  revision := fun state hstate => absurd (h.state.symm.trans hstate) (by simp)
  unopened := fun _ => h.actions

/-- **The history of a review is faithful exactly when no step slips.** -/
theorem history_faithful (env : ReviewEnv) (desk : Desk) (hfresh : desk.Fresh)
    (events : List ReviewEvent) :
    FaithfulHistory env desk events ↔
      Along (step env) (fun s event _ => slips s event = false) desk events := by
  have hstep : ∀ s e s', s.Kept → step env s e = some s' → s'.Kept := fun _ _ _ => step_kept
  have hok : Along (step env) (fun _ _ _ => True) desk events := along_true desk events
  have hstart : Redundant redo (Desk.values env) Desk.actions (desk.values env) desk := by
    rw [Redundant, hfresh.actions, replay_nil]
  have hsplit : Along (step env) (fun s event _ => slips s event = false) desk events ↔
      Along (step env) (fun s _ s' => ∀ action ∈ written Desk.actions s s',
        (s.values env).read action = some action.previousValue) desk events ∧
      Along (step env) (fun s _ s' => Accounted redo (Desk.values env) Desk.actions s s') desk
        events := by
    rw [← along_and]
    refine along_congr_of_inv hstep (fun s e s' hk he => ?_) hfresh.kept
    rw [step_previous_iff he, step_accounted_iff hk he]
    exact Bool.or_eq_false_iff
  rw [hsplit, ← always_replay_iff step_grows hstart]
  constructor
  · exact fun h => ⟨h.previous, h.replayed⟩
  · rintro ⟨hprevious, hreplayed⟩
    have hclean := (always_replay_iff step_grows hstart).mp hreplayed
    refine ⟨?_, hprevious, hreplayed, ?_, ?_⟩
    · exact always_of_inv (fun s e s' hk _ he => hstep s e s' hk he)
        (fun t ht => ⟨ht.numbered, ht.revision⟩) hfresh.kept hok
    · exact fun _ _ _ _ _ hconfirmed req command => step_closed hconfirmed req command
    · refine along_of_inv (fun s e s' hk _ he => hstep s e s' hk he) (fun s e s' hk hacc he => ?_)
        hfresh.kept hclean
      exact step_resolved he ((step_accounted_iff hk he).mp hacc)

/-- A draft with one specification to map. -/
def plainReviewEnv : ReviewEnv where
  identityCandidateId := 20
  identities := [20, 21]
  unmappedSpecifications := [⟨"VCC", "5 V", "5"⟩]
  specificationKey := fun item => "spec-" ++ item.originalLabel
  taxonomyPaths := ["electrical.supply_voltage"]

def plainEnrichment (status : EnrichmentLifecycleStatus) : ComponentEnrichment where
  id := 1
  provider := "kicad"
  relationType := .exactComponent
  externalIdentity := "Sensor:BME280"
  sourceRevision := "r1"
  status := status
  reviewedBy := none
  reviewedAt := none
  updatedAt := 0

def plainDesk (status : EnrichmentLifecycleStatus) : Desk where
  state := none
  enrichments := [plainEnrichment status]
  actions := []

/-- The `n`-th command of a review. -/
def plainRequest (n : Nat) : ReviewRequest := ⟨7, "checked", n, seconds n⟩

/-- A suggested relation is corrected and accepted, the specification mapped and the draft
confirmed, while a marking of the same revision commits. -/
theorem history_faithful_confirmed :
    FaithfulHistory plainReviewEnv (plainDesk .suggested)
      [.command (plainRequest 1) (.changeRelation 1 .mainIntegratedCircuit),
        .command (plainRequest 2) (.reviewEnrichment 1 .accept),
        .command (plainRequest 3) (.mapSpecification "spec-VCC" "electrical.supply_voltage"),
        .command (plainRequest 4) (.confirm [⟨"kicad", "r1", seconds 4⟩])] :=
  (history_faithful _ _ ⟨by decide, rfl, rfl⟩ _).mpr (by decide +kernel)

/-- An accepted enrichment whose relation is changed: the history says it was suggested before. -/
theorem history_unfaithful :
    ¬FaithfulHistory plainReviewEnv (plainDesk .accepted)
      [.command (plainRequest 1) (.changeRelation 1 .mainIntegratedCircuit)] :=
  fun h => absurd h.previous (by decide +kernel)

end ComponentKb.Imports.Review
