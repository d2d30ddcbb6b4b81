import ComponentKb.Pipeline.Persistence
import ComponentKb.Pipeline.Resolution
import Mathlib.Data.Countable.Basic
import Mathlib.Logic.Equiv.List
import Mathlib.Tactic.DeriveCountable

/-!
# The lineage of stored drafts

Every level of a persisted run has an id of its own, taken of the content of that level, and a row
that clashes with a stored one is dropped. The id of the artifact covers the source, the page and
its bytes, but not the facts: those also tell when the page was acquired and what the parser made
of it. So the rows of a later run may come to stand under an artifact with other facts.

* `Kept`: the ids and digests of the stored rows are those of their payloads, in every state.
* `persisted_consistent_iff`: the rows are consistent in every state and a run on the same content
  adds nothing, exactly when no run brings facts that differ from those stored under its artifact.
-/

namespace ComponentKb.Pipeline

open ComponentKb.Catalog (Unicode)
open ComponentKb.Lib ComponentKb.Lib.Index

variable {Content : Type} {u : Unicode} {d : Digests u Content}

/-! ## Names -/

/-- Texts are told apart at the first letter that neither of their beginnings has. -/
theorem append_cons_inj {c : Char} {xs ys s t : List Char} (hx : c ∉ xs) (hy : c ∉ ys)
    (h : xs ++ c :: s = ys ++ c :: t) : xs = ys ∧ s = t := by
  induction xs generalizing ys with
  | nil =>
    cases ys with
    | nil => exact ⟨rfl, List.tail_eq_of_cons_eq h⟩
    | cons y ys => exact absurd (List.head_eq_of_cons_eq h) fun hc => hy (hc ▸ List.mem_cons_self)
  | cons x xs ih =>
    cases ys with
    | nil => exact absurd (List.head_eq_of_cons_eq h) fun hc => hx (hc ▸ List.mem_cons_self)
    | cons y ys =>
      obtain ⟨hhead, htail⟩ := List.cons.inj h
      obtain ⟨hxs, hs⟩ := ih (fun hc => hx (List.mem_cons_of_mem _ hc))
        (fun hc => hy (List.mem_cons_of_mem _ hc)) htail
      exact ⟨hhead ▸ hxs ▸ rfl, hs⟩

/-- A name of two parts after its tag, the first of them an id. -/
theorem Digests.name_inj {tag x y : String} {a b : UUID}
    (h : d.name [tag, d.text a, x] = d.name [tag, d.text b, y]) : a = b ∧ x = y := by
  have hjoin : ∀ (id : UUID) (rest : String), ":".intercalate [tag, d.text id, rest] =
      tag ++ ":" ++ d.text id ++ ":" ++ rest := fun _ _ => rfl
  have hstring := d.uuid5_injective h
  rw [hjoin, hjoin] at hstring
  have hlist := congrArg String.toList hstring
  simp only [String.toList_append, List.append_assoc] at hlist
  have hrest := List.append_cancel_left (List.append_cancel_left hlist)
  have hsplit : ∀ (id : UUID) (rest : String), (d.text id).toList ++ (":".toList ++ rest.toList) =
      (d.text id).toList ++ ':' :: rest.toList := fun _ _ => rfl
  rw [hsplit, hsplit] at hrest
  obtain ⟨hid, hx⟩ := append_cons_inj (d.text_plain a) (d.text_plain b) hrest
  exact ⟨d.text_injective (String.toList_injective hid), String.toList_injective hx⟩

theorem Digests.identity_injective : Function.Injective d.identity :=
  d.sha256_injective.comp d.identityJson_injective

theorem Digests.report_injective : Function.Injective d.report :=
  d.sha256_injective.comp d.reportJson_injective

theorem Digests.draft_injective : Function.Injective d.draft :=
  d.sha256_injective.comp d.draftJson_injective

/-! ## What the rows say of themselves -/

structure Tables.Kept (d : Digests u Content) (t : Tables u Content) : Prop where
  keys : ∀ row ∈ t.artifacts, row.idempotencyKey = d.text row.id
  facts : ∀ row ∈ t.artifacts, row.factsSha256 = d.facts row.factsPayload
  unique : ∀ a ∈ t.artifacts, ∀ b ∈ t.artifacts, a.id = b.id → a = b
  identities : ∀ row ∈ t.identities, row.payloadSha256 = d.identity row.payload ∧
    row.id = d.name ["identity", d.text row.artifactId, row.payloadSha256]
  evaluations : ∀ row ∈ t.evaluations, row.reportSha256 = d.report row.payload ∧
    row.id = d.name ["evaluation", d.text row.artifactId, row.reportSha256]
  drafts : ∀ row ∈ t.drafts, row.payloadSha256 = d.draft row.payload ∧
    row.id = d.name ["draft", d.text row.artifactId, row.payload.inputSha256, schemaVersion,
      row.payload.composerVersion]

theorem Tables.kept_empty : Tables.Kept d {} where
  keys := by simp
  facts := by simp
  unique := by simp
  identities := by simp
  evaluations := by simp
  drafts := by simp

section

variable {value : PipelinePersistenceInput d} {t t' : Tables u Content} {runId : UUID}

/-- A stored artifact that a call clashes with has the id of the call. -/
theorem Tables.Kept.artifact_clash (h : t.Kept d) {row : ArtifactRow} (hrow : row ∈ t.artifacts)
    (hclash : (value.artifactRow runId).clash row) : row.id = value.artifactId := by
  rcases hclash with hid | ⟨-, hkey⟩
  · exact hid.symm
  · have htext : d.text value.artifactId = d.text row.id := hkey.trans (h.keys row hrow)
    exact (d.text_injective htext).symm

theorem Tables.Kept.identity_clash (h : t.Kept d) {row : IdentityRow u}
    (hrow : row ∈ t.identities) (hclash : value.identityRow.clash row) :
    row.id = value.identityId ∧ row.artifactId = value.artifactId ∧
      row.payload = value.composition.identity := by
  obtain ⟨hsha, hid⟩ := h.identities row hrow
  have hparts : value.artifactId = row.artifactId ∧
      d.identity value.composition.identity = row.payloadSha256 := by
    rcases hclash with hname | hparts
    · exact Digests.name_inj (hname.trans hid)
    · exact hparts
  obtain ⟨hartifact, hpayload⟩ := hparts
  refine ⟨?_, hartifact.symm, (d.identity_injective (hpayload.trans hsha)).symm⟩
  rw [hid, ← hartifact, ← hpayload]
  rfl

theorem Tables.Kept.evaluation_clash (h : t.Kept d) {row : EvaluationRow Content}
    (hrow : row ∈ t.evaluations) (hclash : value.evaluationRow.clash row) :
    row.id = value.evaluationId ∧ row.artifactId = value.artifactId ∧
      row.payload = value.composition.qualityReport := by
  obtain ⟨hsha, hid⟩ := h.evaluations row hrow
  have hparts : value.artifactId = row.artifactId ∧
      d.report value.composition.qualityReport = row.reportSha256 := by
    rcases hclash with hname | hparts
    · exact Digests.name_inj (hname.trans hid)
    · exact hparts
  obtain ⟨hartifact, hpayload⟩ := hparts
  refine ⟨?_, hartifact.symm, (d.report_injective (hpayload.trans hsha)).symm⟩
  rw [hid, ← hartifact, ← hpayload]
  rfl

theorem Tables.Kept.draft_clash (h : t.Kept d) {row : DraftRow Content} (hrow : row ∈ t.drafts)
    (hclash : value.draftRow.clash row) : row.id = value.reviewDraftId := by
  obtain ⟨hsha, hid⟩ := h.drafts row hrow
  rcases hclash with hname | ⟨hartifact, hpayload⟩
  · exact hname.symm
  · have hartifact : value.artifactId = row.artifactId := hartifact
    have hdraft : value.draft = row.payload := d.draft_injective (hpayload.trans hsha)
    rw [hid, ← hartifact, ← hdraft]
    rfl

/-! ## The inserts of a call -/

variable (value t t' runId) in
/-- What a call does to the tables. -/
structure Wrote : Prop where
  artifacts : Inserted ArtifactRow.clash t.artifacts t'.artifacts (value.artifactRow runId)
  identities : Inserted IdentityRow.clash t.identities t'.identities value.identityRow
  evaluations : Inserted EvaluationRow.clash t.evaluations t'.evaluations value.evaluationRow
  drafts : Inserted DraftRow.clash t.drafts t'.drafts value.draftRow
  keptEnrichments : ∀ row ∈ t.enrichments, row ∈ t'.enrichments
  enrichments : ∀ candidate ∈ value.composition.enrichments, ∃ row ∈ t'.enrichments,
    (value.enrichmentRow candidate).clash row

theorem wrote_of_write (h : value.write runId t = some t') : Wrote value t t' runId := by
  obtain ⟨artifacts, hartifacts, h⟩ := Option.bind_eq_some_iff.mp h
  obtain ⟨identities, hidentities, h⟩ := Option.bind_eq_some_iff.mp h
  obtain ⟨evaluations, hevaluations, h⟩ := Option.bind_eq_some_iff.mp h
  obtain ⟨drafts, hdrafts, h⟩ := Option.bind_eq_some_iff.mp h
  obtain ⟨enrichments, henrichments, h⟩ := Option.bind_eq_some_iff.mp h
  obtain rfl := Option.some.inj h
  obtain ⟨hkept, hnew⟩ := insertAll_spec henrichments
  refine ⟨insertNew_spec hartifacts, insertNew_spec hidentities, insertNew_spec hevaluations,
    insertNew_spec hdrafts, hkept, fun candidate hcandidate => ?_⟩
  obtain ⟨row, hrow, heq | hclash⟩ := hnew _ (List.mem_map_of_mem hcandidate)
  · exact ⟨row, hrow, .inl (by rw [heq])⟩
  · exact ⟨row, hrow, hclash⟩

/-- The rows that a call stands on are there once it has run. -/
structure Tables.Holds (t : Tables u Content) (value : PipelinePersistenceInput d) : Prop where
  artifact : ∃ row ∈ t.artifacts, row.id = value.artifactId
  identity : ∃ row ∈ t.identities, row.id = value.identityId ∧
    row.artifactId = value.artifactId ∧ row.payload = value.composition.identity
  evaluation : ∃ row ∈ t.evaluations, row.id = value.evaluationId ∧
    row.artifactId = value.artifactId ∧ row.payload = value.composition.qualityReport
  draft : ∃ row ∈ t.drafts, row.id = value.reviewDraftId
  enrichments : ∀ candidate ∈ value.composition.enrichments, ∃ row ∈ t.enrichments,
    (value.enrichmentRow candidate).clash row

theorem Inserted.artifact (h : t.Kept d) {rows : List ArtifactRow}
    (hrows : Inserted ArtifactRow.clash t.artifacts rows (value.artifactRow runId)) :
    ∃ row ∈ rows, row.id = value.artifactId :=
  hrows.exists_of rfl fun _ hrow hclash => h.artifact_clash hrow hclash

theorem Inserted.identity (h : t.Kept d) {rows : List (IdentityRow u)}
    (hrows : Inserted IdentityRow.clash t.identities rows value.identityRow) :
    ∃ row ∈ rows, row.id = value.identityId ∧ row.artifactId = value.artifactId ∧
      row.payload = value.composition.identity :=
  hrows.exists_of ⟨rfl, rfl, rfl⟩ fun _ hrow hclash => h.identity_clash hrow hclash

theorem Inserted.evaluation (h : t.Kept d) {rows : List (EvaluationRow Content)}
    (hrows : Inserted EvaluationRow.clash t.evaluations rows value.evaluationRow) :
    ∃ row ∈ rows, row.id = value.evaluationId ∧ row.artifactId = value.artifactId ∧
      row.payload = value.composition.qualityReport :=
  hrows.exists_of ⟨rfl, rfl, rfl⟩ fun _ hrow hclash => h.evaluation_clash hrow hclash

theorem Inserted.draft (h : t.Kept d) {rows : List (DraftRow Content)}
    (hrows : Inserted DraftRow.clash t.drafts rows value.draftRow) :
    ∃ row ∈ rows, row.id = value.reviewDraftId :=
  hrows.exists_of rfl fun _ hrow hclash => h.draft_clash hrow hclash

theorem Wrote.holds (hw : Wrote value t t' runId) (h : t.Kept d) : t'.Holds value where
  artifact := Inserted.artifact h hw.artifacts
  identity := Inserted.identity h hw.identities
  evaluation := Inserted.evaluation h hw.evaluations
  draft := Inserted.draft h hw.drafts
  enrichments := hw.enrichments

/-- No foreign key stops a call. -/
theorem exists_write (h : t.Kept d) : ∃ t', value.write runId t = some t' := by
  obtain ⟨artifacts, hartifacts, hin⟩ : ∃ rows, insertNew ArtifactRow.clash (fun _ => True)
      t.artifacts (value.artifactRow runId) = some rows ∧ Inserted ArtifactRow.clash t.artifacts
      rows (value.artifactRow runId) := exists_insertNew trivial
  have hartifact := Inserted.artifact h hin
  obtain ⟨identities, hidentities, hin⟩ : ∃ rows, insertNew IdentityRow.clash
      (fun row => ∃ x ∈ artifacts, x.id = row.artifactId) t.identities value.identityRow =
      some rows ∧ Inserted IdentityRow.clash t.identities rows value.identityRow :=
    exists_insertNew hartifact
  obtain ⟨identity, hidentity, hid, -⟩ := Inserted.identity h hin
  obtain ⟨evaluations, hevaluations, hin⟩ : ∃ rows, insertNew EvaluationRow.clash
      (fun row => (∃ x ∈ artifacts, x.id = row.artifactId) ∧
        ∃ x ∈ identities, x.id = row.identityCandidateId) t.evaluations value.evaluationRow =
      some rows ∧ Inserted EvaluationRow.clash t.evaluations rows value.evaluationRow :=
    exists_insertNew ⟨hartifact, identity, hidentity, hid⟩
  obtain ⟨evaluation, hevaluation, heid, -⟩ := Inserted.evaluation h hin
  obtain ⟨drafts, hdrafts, hin⟩ : ∃ rows, insertNew DraftRow.clash
      (fun row => (∃ x ∈ artifacts, x.id = row.artifactId) ∧
        (∃ x ∈ identities, x.id = row.identityCandidateId) ∧
        ∃ x ∈ evaluations, x.id = row.parserEvaluationId) t.drafts value.draftRow = some rows ∧
      Inserted DraftRow.clash t.drafts rows value.draftRow :=
    exists_insertNew ⟨hartifact, ⟨identity, hidentity, hid⟩, evaluation, hevaluation, heid⟩
  have hdraft := Inserted.draft h hin
  obtain ⟨enrichments, henrichments⟩ : ∃ rows, insertAll EnrichmentRow.clash
      (fun row => (∃ x ∈ artifacts, x.id = row.artifactId) ∧
        ∃ x ∈ drafts, x.id = row.reviewDraftId) t.enrichments
      (value.composition.enrichments.map value.enrichmentRow) = some rows :=
    exists_insertAll (List.forall_mem_map.mpr fun _ _ => ⟨hartifact, hdraft⟩)
  refine ⟨⟨artifacts, identities, evaluations, drafts, enrichments⟩, ?_⟩
  exact Option.bind_eq_some_iff.mpr ⟨_, hartifacts, Option.bind_eq_some_iff.mpr ⟨_, hidentities,
    Option.bind_eq_some_iff.mpr ⟨_, hevaluations, Option.bind_eq_some_iff.mpr ⟨_, hdrafts,
    Option.bind_eq_some_iff.mpr ⟨_, henrichments, rfl⟩⟩⟩⟩⟩

/-- The rows stay what they say of themselves. -/
theorem Wrote.kept (hw : Wrote value t t' runId) (h : t.Kept d) : t'.Kept d where
  keys := hw.artifacts.forall_of h.keys rfl
  facts := hw.artifacts.forall_of h.facts rfl
  unique := by
    intro a ha b hb hab
    have hnew : ∀ x ∈ t.artifacts, ∀ y, (y = value.artifactRow runId ∧
        ∀ z ∈ t.artifacts, ¬ (value.artifactRow runId).clash z) → x.id ≠ y.id := by
      rintro x hx y ⟨rfl, hfree⟩ hid
      exact hfree x hx (.inl hid.symm)
    rcases hw.artifacts.origin a ha with ha | ha
    · rcases hw.artifacts.origin b hb with hb | hb
      · exact h.unique a ha b hb hab
      · exact absurd hab (hnew a ha b hb)
    · rcases hw.artifacts.origin b hb with hb | hb
      · exact absurd hab.symm (hnew b hb a ha)
      · exact ha.1.trans hb.1.symm
  identities := hw.identities.forall_of h.identities ⟨rfl, rfl⟩
  evaluations := hw.evaluations.forall_of h.evaluations ⟨rfl, rfl⟩
  drafts := hw.drafts.forall_of h.drafts ⟨rfl, rfl⟩

/-- The rows a call stands on stay. -/
theorem Wrote.holds_of_holds {value₀ : PipelinePersistenceInput d}
    (hw : Wrote value t t' runId) (h : t.Holds value₀) : t'.Holds value₀ where
  artifact := h.artifact.imp fun _ hrow => ⟨hw.artifacts.kept _ hrow.1, hrow.2⟩
  identity := h.identity.imp fun _ hrow => ⟨hw.identities.kept _ hrow.1, hrow.2⟩
  evaluation := h.evaluation.imp fun _ hrow => ⟨hw.evaluations.kept _ hrow.1, hrow.2⟩
  draft := h.draft.imp fun _ hrow => ⟨hw.drafts.kept _ hrow.1, hrow.2⟩
  enrichments candidate hcandidate :=
    (h.enrichments candidate hcandidate).imp fun _ hrow => ⟨hw.keptEnrichments _ hrow.1, hrow.2⟩

/-- A call whose rows are there changes nothing. -/
theorem write_of_holds (h : t.Holds value) : value.write runId t = some t := by
  obtain ⟨artifact, hartifact, hid⟩ := h.artifact
  obtain ⟨identity, hidentity, hiid, -⟩ := h.identity
  obtain ⟨evaluation, hevaluation, heid, -⟩ := h.evaluation
  obtain ⟨draft, hdraft, hdid⟩ := h.draft
  refine Option.bind_eq_some_iff.mpr ⟨_, insertNew_of_clash ⟨artifact, hartifact, .inl hid.symm⟩, ?_⟩
  refine Option.bind_eq_some_iff.mpr ⟨_, insertNew_of_clash ⟨identity, hidentity, .inl hiid.symm⟩, ?_⟩
  refine Option.bind_eq_some_iff.mpr
    ⟨_, insertNew_of_clash ⟨evaluation, hevaluation, .inl heid.symm⟩, ?_⟩
  refine Option.bind_eq_some_iff.mpr ⟨_, insertNew_of_clash ⟨draft, hdraft, .inl hdid.symm⟩, ?_⟩
  exact Option.bind_eq_some_iff.mpr
    ⟨_, insertAll_of_clash (List.forall_mem_map.mpr h.enrichments), rfl⟩

end

/-! ## Runs -/

/-- What the stages hand to persistence is put together from what each of them returned. -/
structure Stages.Put (stages : Stages d) (request : PipelineRunRequest) (composedAt : Time)
    (value : PipelinePersistenceInput d) : Prop where
  source : value.sourceId = request.sourceId
  facts : stages.normalize request.artifact = .ok value.composition.facts
  identity : stages.resolve value.composition.facts = .ok value.composition.identity
  enrichments : stages.enrich value.composition.identity request.kicadIndex =
    .ok value.composition.enrichments
  report : stages.evaluate value.composition.toQualityEvaluationInput =
    .ok value.composition.qualityReport
  draft : stages.compose value.composition = .ok value.draft.toComposition
  time : value.draft.composedAt = composedAt

theorem Stages.put_of_input {stages : Stages d} {request : PipelineRunRequest} {composedAt : Time}
    {value : PipelinePersistenceInput d} (h : stages.input request composedAt = .ok value) :
    stages.Put request composedAt value := by
  obtain ⟨facts, hfacts, h⟩ := bind_eq_ok.mp h
  obtain ⟨identity, hidentity, h⟩ := bind_eq_ok.mp h
  obtain ⟨enrichments, henrichments, h⟩ := bind_eq_ok.mp h
  obtain ⟨quality, hquality, h⟩ := bind_eq_ok.mp h
  obtain ⟨report, hreport, h⟩ := bind_eq_ok.mp h
  obtain ⟨composition, hcomposition, h⟩ := bind_eq_ok.mp h
  obtain ⟨composed, hcomposed, h⟩ := bind_eq_ok.mp h
  obtain ⟨⟨_⟩, -, hquality⟩ := bind_eq_ok.mp hquality
  obtain ⟨⟨_⟩, -, hquality⟩ := bind_eq_ok.mp hquality
  obtain ⟨⟨_⟩, -, hquality⟩ := bind_eq_ok.mp hquality
  obtain rfl := Except.ok.inj hquality
  obtain ⟨⟨_⟩, -, hcomposition⟩ := bind_eq_ok.mp hcomposition
  obtain ⟨⟨_⟩, -, hcomposition⟩ := bind_eq_ok.mp hcomposition
  obtain rfl := Except.ok.inj hcomposition
  obtain ⟨⟨_⟩, -, h⟩ := bind_eq_ok.mp h
  obtain ⟨⟨_⟩, -, h⟩ := bind_eq_ok.mp h
  obtain ⟨⟨_⟩, -, h⟩ := bind_eq_ok.mp h
  obtain rfl := Except.ok.inj h
  exact ⟨rfl, hfacts, hidentity, henrichments, hreport, hcomposed, rfl⟩

/-- Two runs of a release with one index and the same facts compose the same. -/
theorem Stages.Put.composition_eq {stages : Stages d} {request request' : PipelineRunRequest}
    {composedAt composedAt' : Time} {value value' : PipelinePersistenceInput d}
    (h : stages.Put request composedAt value) (h' : stages.Put request' composedAt' value')
    (hindex : request.kicadIndex = request'.kicadIndex)
    (hfacts : value.composition.facts = value'.composition.facts) :
    value.composition = value'.composition ∧
      value.draft.toComposition = value'.draft.toComposition := by
  have hcomposition : value.composition = value'.composition := by
    have hidentity : value.composition.identity = value'.composition.identity :=
      Except.ok.inj (h.identity.symm.trans (hfacts ▸ h'.identity))
    have henrichments : value.composition.enrichments = value'.composition.enrichments :=
      Except.ok.inj (h.enrichments.symm.trans (hidentity ▸ hindex ▸ h'.enrichments))
    have hquality : value.composition.toQualityEvaluationInput =
        value'.composition.toQualityEvaluationInput := by
      cases hq : value.composition.toQualityEvaluationInput
      cases hq' : value'.composition.toQualityEvaluationInput
      simp_all
    have hreport : value.composition.qualityReport = value'.composition.qualityReport :=
      Except.ok.inj (h.report.symm.trans (hquality ▸ h'.report))
    cases hc : value.composition
    cases hc' : value'.composition
    simp_all
  exact ⟨hcomposition, Except.ok.inj (h.draft.symm.trans (hcomposition ▸ h'.draft))⟩

/-- Ids of a call do not depend on the time of its composition. -/
theorem Tables.Holds.recomposed {value value' : PipelinePersistenceInput d}
    {t : Tables u Content} (h : t.Holds value) (hsource : value.sourceId = value'.sourceId)
    (hcomposition : value.composition = value'.composition)
    (hdraft : value.draft.toComposition = value'.draft.toComposition) :
    t.Holds value' ∧ value'.reviewDraftId = value.reviewDraftId := by
  obtain ⟨source, composition, draft, component, _, _, _⟩ := value
  obtain ⟨source', composition', draft', component', _, _, _⟩ := value'
  obtain ⟨draft, composedAt⟩ := draft
  obtain ⟨draft', composedAt'⟩ := draft'
  dsimp only at hsource hcomposition hdraft
  subst hsource hcomposition hdraft
  exact ⟨⟨h.artifact, h.identity, h.evaluation, h.draft, h.enrichments⟩, rfl⟩

/-- A run that came to persistence with its context in order and whose clock does not go back. -/
structure PipelineRun.Prompt (r : PipelineRun d) : Prop where
  stage : r.context.nextStage = some .persistence
  source : r.context.sourceKey = r.request.artifact.metadata.source.sourceKey
  forward : r.startedAt ≤ r.completedAt
  apart : ∀ last ∈ r.context.executions.getLast?, last.completedAt ≤ r.startedAt

/-- What a run hands to persistence, if its stages came through and persistence takes it. -/
structure PipelineRun.Hands (server : Server d) (r : PipelineRun d)
    (value : PipelinePersistenceInput d) : Prop where
  input : r.input = .ok value
  prompt : r.Prompt
  taken : server.takes value.composition value.draft.toComposition = true

section

variable {server : Server d} {r : PipelineRun d} {value : PipelinePersistenceInput d}
  {t : Tables u Content}

theorem PipelineRun.put_of_input (h : r.input = .ok value) :
    r.release.Put r.request r.composedAt value := Stages.put_of_input h

theorem PipelineRun.artifact_eq (h : r.input = .ok value) :
    value.draft.artifact = r.request.artifact.metadata :=
  value.acquired.trans (r.release.acquired _ _ (PipelineRun.put_of_input h).facts)

/-- A run persists what it hands over, when it does. -/
theorem PipelineRun.execute_passes (hvalue : r.input = .ok value) (h : t.Kept d) :
    Passes (r.execute server t)
      (r.Prompt ∧ server.takes value.composition value.draft.toComposition = true)
      fun out => value.write r.context.runId t = some out.1 ∧ out.2.2 = value.persisted := by
  have hexecute : r.execute server t =
      persist server.takes r.context r.startedAt r.completedAt value t := by
    rw [PipelineRun.execute, hvalue]
    rfl
  rw [hexecute]
  have hwrite : value.write r.context.runId t ≠ none := by
    obtain ⟨t', ht'⟩ : ∃ t', value.write r.context.runId t = some t' := exists_write h
    simp [ht']
  have hfollows : r.context.nextStage = some .persistence → ∀ execution : StageExecution,
      execution.stage = .persistence ∧ execution.startedAt = r.startedAt →
      ((r.context.nextStage = some execution.stage ∧ r.context.follows execution) ↔
        ∀ last ∈ r.context.executions.getLast?, last.completedAt ≤ r.startedAt) := by
    rintro hstage execution ⟨hstage', hstarted⟩
    have hne : r.context.executions ≠ [] := by
      intro hnil
      rw [ImportPipelineContext.nextStage, hnil] at hstage
      cases hstage
    rw [hstage', ← hstarted]
    exact ⟨fun hf => hf.2.2, fun hf =>
      ⟨hstage, ImportPipelineContext.follows_of_started hne hf⟩⟩
  refine Passes.congr (Passes.bind_demand fun hstage => Passes.bind_demand fun _ =>
    Passes.bind_demand fun _ => Passes.bind Passes.fromSome fun t'' ht'' =>
    Passes.bind (StageExecution.make_passes ⟨by simp, List.nodup_nil⟩) fun execution hexecution =>
    Passes.bind ((ImportPipelineContext.advance_passes).congr (hfollows hstage execution
      hexecution)) fun _ _ => Passes.pure ⟨ht'', rfl⟩) ?_
  rw [PipelineRun.artifact_eq hvalue]
  constructor
  · rintro ⟨hstage, hsource, htakes, -, hforward, hapart, -⟩
    exact ⟨⟨hstage, hsource, hforward, hapart⟩, htakes⟩
  · rintro ⟨⟨hstage, hsource, hforward, hapart⟩, htakes⟩
    exact ⟨hstage, hsource, htakes, hwrite, hforward, hapart, trivial⟩

end

/-! ## Consistency -/

/-- Some run of the pipeline computed it. -/
def PipelinePersistenceInput.Computed (value : PipelinePersistenceInput d) : Prop :=
  ∃ (release : Release d) (request : PipelineRunRequest) (composedAt : Time),
    release.input request composedAt = .ok value

variable (d) in
/-- **Every level stands on the facts of its artifact.** What is stored under an artifact was
computed from the facts stored there, and a draft refers to the identity and the evaluation that it
was composed of. -/
structure Tables.Consistent (t : Tables u Content) : Prop where
  artifacts : ∀ row ∈ t.artifacts, row.factsSha256 = d.facts row.factsPayload
  identities : ∀ row ∈ t.identities, ∃ value : PipelinePersistenceInput d, value.Computed ∧
    row.payload = value.composition.identity ∧
    ∃ artifact ∈ t.artifacts, artifact.id = row.artifactId ∧
      artifact.factsPayload = value.composition.facts
  evaluations : ∀ row ∈ t.evaluations, ∃ value : PipelinePersistenceInput d, value.Computed ∧
    row.payload = value.composition.qualityReport ∧
    (∃ artifact ∈ t.artifacts, artifact.id = row.artifactId ∧
      artifact.factsPayload = value.composition.facts) ∧
    ∃ identity ∈ t.identities, identity.id = row.identityCandidateId ∧
      identity.artifactId = row.artifactId ∧ identity.payload = value.composition.identity
  drafts : ∀ row ∈ t.drafts, ∃ value : PipelinePersistenceInput d, value.Computed ∧
    row.payload = value.draft ∧
    (∃ artifact ∈ t.artifacts, artifact.id = row.artifactId ∧
      artifact.factsPayload = value.composition.facts) ∧
    (∃ identity ∈ t.identities, identity.id = row.identityCandidateId ∧
      identity.artifactId = row.artifactId ∧ identity.payload = value.composition.identity) ∧
    ∃ evaluation ∈ t.evaluations, evaluation.id = row.parserEvaluationId ∧
      evaluation.artifactId = row.artifactId ∧
      evaluation.payload = value.composition.qualityReport

/-- The run has the content and the versions of an earlier one. -/
structure PipelineRun.Repeats (r earlier : PipelineRun d) : Prop where
  release : r.release = earlier.release
  source : r.request.sourceId = earlier.request.sourceId
  artifact : earlier.request.artifact.Same r.request.artifact
  index : r.request.kicadIndex = earlier.request.kicadIndex

/-- A repeated run returns the draft of the earlier one and adds no row. -/
def Replays (s : History d) (r : PipelineRun d) (s' : History d) : Prop :=
  ∀ entry ∈ s.completed, r.Repeats entry.1 → r.Prompt → ∃ persisted : PersistedPipelineDraft,
    s'.completed = s.completed ++ [(r, persisted)] ∧
    persisted.reviewDraftId = entry.2.reviewDraftId ∧ s'.tables = s.tables

/-- **The condition.** What a run hands to persistence has the facts that are stored under its
artifact, if any are. -/
def Settled (server : Server d) (s : History d) (r : PipelineRun d) (_ : History d) : Prop :=
  ∀ value, r.Hands server value → ∀ row ∈ s.tables.artifacts, row.id = value.artifactId →
    row.factsPayload = value.composition.facts

section

variable {server : Server d} {s s' : History d} {r : PipelineRun d}
  {value : PipelinePersistenceInput d}

theorem History.step_total (server : Server d) (s : History d) (r : PipelineRun d) :
    ∃ s', s.step server r = some s' := by
  unfold History.step
  split
  · exact ⟨_, rfl⟩
  · exact ⟨_, rfl⟩

/-- What a step can do: nothing, when the run hands nothing over, or write its rows. -/
theorem step_cases (hk : s.tables.Kept d) (h : s.step server r = some s') :
    (s' = s ∧ ∀ value, ¬ r.Hands server value) ∨
      ∃ value, r.Hands server value ∧
        value.write r.context.runId s.tables = some s'.tables ∧
        s'.completed = s.completed ++ [(r, value.persisted)] := by
  unfold History.step at h
  cases hinput : r.input with
  | error e =>
    have hfails : r.execute server s.tables = .error e := by
      rw [PipelineRun.execute, hinput]
      rfl
    rw [hfails] at h
    exact .inl ⟨(Option.some.inj h).symm, fun value hvalue => by
      have := hinput.symm.trans hvalue.input
      cases this⟩
  | ok value =>
    have hpasses : Passes (r.execute server s.tables) _ _ := PipelineRun.execute_passes hinput hk
    cases hexecute : r.execute server s.tables with
    | error e =>
      rw [hexecute] at h
      refine .inl ⟨(Option.some.inj h).symm, fun value' hvalue' => ?_⟩
      obtain rfl : value = value' := Except.ok.inj (hinput.symm.trans hvalue'.input)
      obtain ⟨out, hout⟩ := hpasses.returns_iff.mpr ⟨hvalue'.prompt, hvalue'.taken⟩
      rw [hexecute] at hout
      cases hout
    | ok out =>
      rw [hexecute] at h
      obtain ⟨hprompt, htaken⟩ := hpasses.returns_iff.mp ⟨out, hexecute⟩
      obtain ⟨hwrite, hpersisted⟩ := hpasses.result out hexecute
      obtain rfl := Option.some.inj h
      exact .inr ⟨value, ⟨hinput, hprompt, htaken⟩, hwrite, by rw [← hpersisted]⟩

theorem PipelineRun.Hands.unique {value' : PipelinePersistenceInput d}
    (h : r.Hands server value) (h' : r.Hands server value') : value = value' :=
  Except.ok.inj (h.input.symm.trans h'.input)

/-- **The rows say the truth of themselves in every state.** -/
theorem step_kept (hk : s.tables.Kept d) (h : s.step server r = some s') : s'.tables.Kept d := by
  obtain ⟨rfl, -⟩ | ⟨value, -, hwrite, -⟩ := step_cases hk h
  · exact hk
  · exact (wrote_of_write hwrite).kept hk

/-- Consistency forces a run to bring the facts that are stored. -/
theorem settled_of_consistent (hk : s.tables.Kept d) (h : s.step server r = some s')
    (hc : s'.tables.Consistent d) : Settled server s r s' := by
  intro value hhands row hrow hid
  obtain ⟨-, hnone⟩ | ⟨value', hhands', hwrite, -⟩ := step_cases hk h
  · exact absurd hhands (hnone value)
  obtain rfl := hhands.unique hhands'
  have hw := wrote_of_write hwrite
  have hk' := hw.kept hk
  obtain ⟨identity, hidentity, -, hartifact, hpayload⟩ := (hw.holds hk).identity
  obtain ⟨computed, -, hsame, artifact, hmem, haid, hfacts⟩ := hc.identities identity hidentity
  have hstored : artifact = row :=
    hk'.unique artifact hmem row (hw.artifacts.kept row hrow) (by rw [haid, hartifact, hid])
  have hresolved : value.composition.facts = computed.composition.facts := by
    rw [← value.composition.resolved, ← computed.composition.resolved, ← hpayload, hsame]
  rw [← hstored, hfacts, hresolved]

/-- The artifact of a settled call holds its facts. -/
theorem Wrote.facts {runId : UUID} {t t' : Tables u Content} (hw : Wrote value t t' runId)
    (hk : t.Kept d) (hsettled : ∀ row ∈ t.artifacts, row.id = value.artifactId →
      row.factsPayload = value.composition.facts) :
    ∃ row ∈ t'.artifacts, row.id = value.artifactId ∧
      row.factsPayload = value.composition.facts := by
  refine hw.artifacts.exists_of ⟨rfl, rfl⟩ fun row hrow hclash => ?_
  have hid := hk.artifact_clash hrow hclash
  exact ⟨hid, hsettled row hrow hid⟩

/-- A settled call keeps every level consistent. -/
theorem Wrote.consistent {runId : UUID} {t t' : Tables u Content} (hw : Wrote value t t' runId)
    (hk : t.Kept d) (hc : t.Consistent d) (hvalue : value.Computed)
    (hfacts : ∃ row ∈ t'.artifacts, row.id = value.artifactId ∧
      row.factsPayload = value.composition.facts) : t'.Consistent d := by
  have hholds := hw.holds hk
  have hartifact : ∀ {id : UUID} {computed : PipelinePersistenceInput d},
      (∃ row ∈ t.artifacts, row.id = id ∧ row.factsPayload = computed.composition.facts) →
      ∃ row ∈ t'.artifacts, row.id = id ∧ row.factsPayload = computed.composition.facts :=
    fun h => h.imp fun _ hrow => ⟨hw.artifacts.kept _ hrow.1, hrow.2⟩
  have hidentity : ∀ {id artifactId : UUID} {identity : ComponentIdentity u},
      (∃ row ∈ t.identities, row.id = id ∧ row.artifactId = artifactId ∧
        row.payload = identity) →
      ∃ row ∈ t'.identities, row.id = id ∧ row.artifactId = artifactId ∧
        row.payload = identity :=
    fun h => h.imp fun _ hrow => ⟨hw.identities.kept _ hrow.1, hrow.2⟩
  refine ⟨hw.artifacts.forall_of hc.artifacts rfl, hw.identities.forall_of ?_ ?_,
    hw.evaluations.forall_of ?_ ?_, hw.drafts.forall_of ?_ ?_⟩
  · intro row hrow
    obtain ⟨computed, hcomputed, hpayload, hstored⟩ := hc.identities row hrow
    exact ⟨computed, hcomputed, hpayload, hartifact hstored⟩
  · exact ⟨value, hvalue, rfl, hfacts⟩
  · intro row hrow
    obtain ⟨computed, hcomputed, hpayload, hstored, hid⟩ := hc.evaluations row hrow
    exact ⟨computed, hcomputed, hpayload, hartifact hstored, hidentity hid⟩
  · exact ⟨value, hvalue, rfl, hfacts, hholds.identity⟩
  · intro row hrow
    obtain ⟨computed, hcomputed, hpayload, hstored, hid, hevaluation⟩ := hc.drafts row hrow
    exact ⟨computed, hcomputed, hpayload, hartifact hstored, hidentity hid,
      hevaluation.imp fun _ hrow => ⟨hw.evaluations.kept _ hrow.1, hrow.2⟩⟩
  · exact ⟨value, hvalue, rfl, hfacts, hholds.identity, hholds.evaluation⟩

/-! ## Every run -/

/-- The invariant of a settled run: what is stored is consistent, and the rows of each completed
run are there, with its facts. -/
structure History.Sound (server : Server d) (s : History d) : Prop where
  kept : s.tables.Kept d
  consistent : s.tables.Consistent d
  completed : ∀ entry ∈ s.completed, ∃ value, entry.1.Hands server value ∧
    entry.2 = value.persisted ∧ s.tables.Holds value ∧
    ∃ row ∈ s.tables.artifacts, row.id = value.artifactId ∧
      row.factsPayload = value.composition.facts

theorem History.sound_empty : ({} : History d).Sound server where
  kept := Tables.kept_empty
  consistent := ⟨by simp, by simp, by simp, by simp⟩
  completed := by simp

theorem step_sound (hs : s.Sound server) (hsettled : Settled server s r s')
    (h : s.step server r = some s') : s'.Sound server := by
  obtain ⟨rfl, -⟩ | ⟨value, hhands, hwrite, hcompleted⟩ := step_cases hs.kept h
  · exact hs
  have hw := wrote_of_write hwrite
  have hfacts := hw.facts hs.kept (hsettled value hhands)
  refine ⟨hw.kept hs.kept,
    hw.consistent hs.kept hs.consistent ⟨_, _, _, hhands.input⟩ hfacts, ?_⟩
  rw [hcompleted]
  intro entry hentry
  rcases List.mem_append.mp hentry with hentry | hentry
  · obtain ⟨earlier, hearlier, hresult, hholds, hrow⟩ := hs.completed entry hentry
    exact ⟨earlier, hearlier, hresult, hw.holds_of_holds hholds,
      hrow.imp fun _ hrow => ⟨hw.artifacts.kept _ hrow.1, hrow.2⟩⟩
  · obtain rfl := List.mem_singleton.mp hentry
    exact ⟨value, hhands, rfl, hw.holds hs.kept, hfacts⟩

theorem PipelineRun.Hands.artifactId_eq {earlier : PipelineRun d}
    {value' : PipelinePersistenceInput d} (hrepeats : r.Repeats earlier)
    (h : earlier.Hands server value) (h' : r.Hands server value') :
    value.artifactId = value'.artifactId := by
  have hsource : value.sourceId = value'.sourceId :=
    (PipelineRun.put_of_input h.input).source.trans
      (hrepeats.source.symm.trans (PipelineRun.put_of_input h'.input).source.symm)
  have hmetadata := hrepeats.artifact.2
  rw [← PipelineRun.artifact_eq h.input, ← PipelineRun.artifact_eq h'.input] at hmetadata
  rw [PipelinePersistenceInput.artifactId, PipelinePersistenceInput.artifactId, hsource, hmetadata]

/-- A repeated run finds its rows. -/
theorem step_replays (hs : s.Sound server) (hsettled : Settled server s r s')
    (h : s.step server r = some s') : Replays s r s' := by
  intro entry hentry hrepeats hprompt
  obtain ⟨earlier, hearlier, hresult, hholds, row, hrow, hid, hfacts⟩ := hs.completed entry hentry
  have hinput : r.release.input entry.1.request entry.1.composedAt = .ok earlier :=
    hrepeats.release ▸ hearlier.input
  obtain ⟨value, hvalue⟩ := r.release.timeless _ r.request _ r.composedAt _ hrepeats.artifact
    hrepeats.index.symm hinput
  have htaken : server.takes value.composition value.draft.toComposition = true :=
    (server.steady r.release _ _ _ _ _ _ hrepeats.artifact hrepeats.index.symm hinput hvalue) ▸
      hearlier.taken
  have hhands : r.Hands server value := ⟨hvalue, hprompt, htaken⟩
  have hsame := hsettled value hhands row hrow (hid.trans (hearlier.artifactId_eq hrepeats hhands))
  obtain ⟨hcomposition, hdraft⟩ := (Stages.put_of_input hinput).composition_eq
    (PipelineRun.put_of_input hvalue) hrepeats.index.symm (hfacts.symm.trans hsame)
  have hsource : earlier.sourceId = value.sourceId :=
    (PipelineRun.put_of_input hearlier.input).source.trans
      (hrepeats.source.symm.trans (PipelineRun.put_of_input hvalue).source.symm)
  obtain ⟨hthere, hdraftId⟩ := hholds.recomposed hsource hcomposition hdraft
  obtain ⟨-, hnone⟩ | ⟨value', hhands', hwrite, hcompleted⟩ := step_cases hs.kept h
  · exact absurd hhands (hnone value)
  obtain rfl := hhands.unique hhands'
  rw [write_of_holds hthere] at hwrite
  exact ⟨_, hcompleted, hresult ▸ hdraftId, (Option.some.inj hwrite).symm⟩

/-- **Persisted runs are consistent exactly when every run is settled.** In every state each level
stands on the facts of its artifact and a repeated run adds no row, if and only if no run hands over
facts that differ from those stored under its artifact. -/
theorem persisted_consistent_iff (server : Server d) (runs : List (PipelineRun d)) :
    (Always (History.step server) (fun s => s.tables.Consistent d) {} runs ∧
      Along (History.step server) Replays {} runs) ↔
      Along (History.step server) (Settled server) {} runs := by
  constructor
  · rintro ⟨hconsistent, -⟩
    have hkept : ∀ s r s', Tables.Kept d s.tables → Settled server s r s' →
        s.step server r = some s' → Tables.Kept d s'.tables := fun _ _ _ hk _ h => step_kept hk h
    have hforced : ∀ s r s', Tables.Kept d s.tables → s.step server r = some s' →
        s'.tables.Consistent d → Settled server s r s' :=
      fun _ _ _ hk h hc => settled_of_consistent hk h hc
    exact along_of_always hkept hforced Tables.kept_empty hconsistent
  · intro hsettled
    have hstep : ∀ s r s', History.Sound server s → Settled server s r s' →
        s.step server r = some s' → s'.Sound server := fun _ _ _ hs hr h => step_sound hs hr h
    exact ⟨always_of_inv hstep (fun _ hs => hs.consistent) History.sound_empty hsettled,
      along_of_inv hstep (fun _ _ _ hs hr h => step_replays hs hr h) History.sound_empty hsettled⟩

end

/-! ## Two acquisitions of one page -/

section Sample

/-- A name for each value of a countable type. -/
noncomputable def naming (α : Type) [Countable α] (a : α) : String :=
  String.ofList (List.replicate ((exists_injective_nat α).choose a) 'a')

theorem naming_injective (α : Type) [Countable α] : Function.Injective (naming α) := by
  intro a b h
  have hlist := congrArg String.toList h
  simp only [naming, String.toList_ofList] at hlist
  have hlength := congrArg List.length hlist
  rw [List.length_replicate, List.length_replicate] at hlength
  exact (exists_injective_nat α).choose_spec hlength

theorem naming_plain (α : Type) [Countable α] (a : α) : ':' ∉ (naming α a).toList := by
  rw [naming, String.toList_ofList]
  intro h
  exact absurd (List.eq_of_mem_replicate h) (by decide)

instance countableChar : Countable Char :=
  Function.Injective.countable (f := Char.toNat) fun _ _ h => Char.toNat_inj.mp h

instance countableString : Countable String :=
  Function.Injective.countable (f := String.toList) fun _ _ h => String.toList_injective h

deriving instance Countable for IdentifierKind, SourceReference, EvidenceFragment,
  ExtractionWarning, SourceArtifactMetadata, ExtractedField, DescriptionSection, Identifier,
  ModulePin, RawSpecification, ResourceKind, ResourceReference, ImageReference, UnknownFact,
  ExtractedFacts, NormalizationConfidence, NormalizationProfile, NormalizationTrace,
  NormalizedSpecification, NormalizedTextFact, NormalizedIdentifier, UnmappedSpecification,
  NormalizationConflict, NormalizedFacts, IdentityValue, IdentityAlias, ScoreContribution,
  ComponentKind, KindCandidate, CategoryCandidate, IdentityConfidence, IdentityResolutionStatus,
  IdentityRecord, ComponentIdentity, QualityRoute, QualityReport, Composition, ReviewDraft

/-- Digests without collisions. -/
noncomputable def plainDigests : Digests asciiUnicode Unit where
  sha256 := id
  uuid5 := (exists_injective_nat String).choose
  text := naming UUID
  factsJson _ := ""
  identityJson := naming _
  candidateJson _ := ""
  reportJson := naming _
  draftJson := naming _
  sha256_injective := Function.injective_id
  uuid5_injective := (exists_injective_nat String).choose_spec
  text_injective := naming_injective _
  text_plain := naming_plain _
  identityJson_injective := naming_injective _
  reportJson_injective := naming_injective _
  draftJson_injective := naming_injective _

/-- The facts of a page with one title. -/
def titledFacts (metadata : SourceArtifactMetadata) (h : metadata.source = seeedSource) :
    NormalizedFacts where
  artifact := metadata
  extractedFacts :=
    { artifact := metadata
      titleCandidates := [productTitle]
      sourced := by simp [fieldEvidence, productTitle, titleField, titleEvidence, h] }
  profile := .sensor
  extracted := rfl
  sourced := by simp
  warned := warningsValid_nil

def titleScore : ScoreContribution where
  ruleId := "kind.unknown.v1"
  signal := "Grove - Sound Sensor"
  weight := 10
  reason := "No rule names a kind."
  evidence := [titleEvidence]
  ruled := by decide
  signalled := by decide
  reasoned := by decide
  weighed := by decide
  evidenced := titleEvidence_ne_nil

theorem title_bounded : Bounded 500 "Grove - Sound Sensor" := by decide

/-- The identity of a page of which only the title is known. -/
def titledIdentity (facts : NormalizedFacts) : IdentityRecord where
  artifact := facts.artifact
  normalizedFacts := facts
  canonicalName :=
    ⟨"Grove - Sound Sensor", "identity.title.v1", [titleEvidence], title_bounded, by decide,
      titleEvidence_ne_nil⟩
  manufacturer := none
  productIdentifiers := []
  partNumbers := []
  primaryIcCandidates := []
  aliases := []
  componentKind := .genericUnknown
  kindCandidates := [⟨.genericUnknown, 10, [titleScore], by decide, by simp⟩]
  selectedCategory := none
  categoryCandidates := []
  confidence := .low
  resolutionStatus := .unresolved
  warnings := []

theorem titledIdentity_accepted {facts : NormalizedFacts}
    (h : facts.artifact.source = seeedSource) :
    (titledIdentity facts).Accepted asciiUnicode where
  artifact := rfl
  keyed := by simp [titledIdentity]
  kinds := by simp [titledIdentity]
  kind := rfl
  kindsUnique := by simp [titledIdentity]
  kindsOrdered := rfl
  categoriesUnique := by simp [titledIdentity]
  categoriesOrdered := rfl
  category := by simp [titledIdentity]
  confidence := rfl
  selection := by simp [titledIdentity]
  products := by simp [titledIdentity]
  parts := by simp [titledIdentity]
  primaryIcs := by simp [titledIdentity]
  moduleAliases := by simp [titledIdentity]
  moduleCategory := by simp [titledIdentity]
  sourced := by
    have hbreakdown : breakdownEvidence [titleScore] = [titleEvidence] := rfl
    simp [titledIdentity, IdentityRecord.evidenceGroups, hbreakdown, From, titleEvidence, h]
  warned := by simp [titledIdentity]
  warningsUnique := by simp [titledIdentity]

/-- Stages that know pages by their title. -/
noncomputable def titleStages : Stages plainDigests where
  normalize artifact :=
    if h : artifact.metadata.source = seeedSource then .ok (titledFacts artifact.metadata h)
    else .error "pipeline_source_mismatch"
  resolve facts :=
    if h : facts.artifact.source = seeedSource then
      .ok ⟨titledIdentity facts, titledIdentity_accepted h⟩
    else .error "identity_evidence_source_mismatch"
  enrich _ _ := .ok []
  evaluate input := .ok ⟨input.inputSha256, input.facts.profile, .manualReview, 700, "1.0.0", ()⟩
  compose composition := .ok
    { inputSha256 := composition.inputSha256
      artifact := composition.facts.artifact
      composerVersion := "1.0.0"
      qualityReportSha256 := plainDigests.report composition.qualityReport
      qualityRoute := .manualReview
      content := ()
      versioned := isVersion_first }

theorem titleStages_input {request : PipelineRunRequest} (composedAt : Time)
    (h : request.artifact.metadata.source = seeedSource) :
    ∃ value, titleStages.input request composedAt = .ok value := by
  have hdemand : ∀ {p : Prop} [Decidable p] {e : String} (hp : p), demand p e = .ok ⟨hp⟩ :=
    fun hp => dif_pos hp
  have hnormalize : titleStages.normalize request.artifact =
      .ok (titledFacts request.artifact.metadata h) := dif_pos h
  have hresolve : titleStages.resolve (titledFacts request.artifact.metadata h) =
      .ok ⟨titledIdentity _, titledIdentity_accepted h⟩ := dif_pos h
  let quality : QualityEvaluationInput plainDigests :=
    ⟨titledFacts _ h, ⟨titledIdentity _, titledIdentity_accepted h⟩, [], rfl, by simp, by simp⟩
  have hquality : QualityEvaluationInput.make plainDigests quality.facts quality.identity [] =
      .ok quality :=
    bind_eq_ok.mpr ⟨_, hdemand rfl, bind_eq_ok.mpr ⟨_, hdemand (by simp),
      bind_eq_ok.mpr ⟨_, hdemand (by simp), rfl⟩⟩⟩
  let composition : CompositionInput plainDigests :=
    ⟨quality, ⟨quality.inputSha256, quality.facts.profile, .manualReview, 700, "1.0.0", ()⟩,
      rfl, rfl⟩
  have hcomposition : CompositionInput.make quality composition.qualityReport = .ok composition :=
    bind_eq_ok.mpr ⟨_, hdemand rfl, bind_eq_ok.mpr ⟨_, hdemand rfl, rfl⟩⟩
  exact ⟨_, bind_eq_ok.mpr ⟨_, hnormalize, bind_eq_ok.mpr ⟨_, hresolve, bind_eq_ok.mpr ⟨_, rfl,
    bind_eq_ok.mpr ⟨_, hquality, bind_eq_ok.mpr ⟨_, rfl, bind_eq_ok.mpr ⟨_, hcomposition,
    bind_eq_ok.mpr ⟨_, rfl, bind_eq_ok.mpr ⟨_, hdemand rfl, bind_eq_ok.mpr ⟨_, hdemand rfl,
    bind_eq_ok.mpr ⟨_, hdemand rfl, rfl⟩⟩⟩⟩⟩⟩⟩⟩⟩⟩⟩

/-- The release of these stages. -/
noncomputable def titleRelease : Release plainDigests where
  toStages := titleStages
  acquired artifact facts h := by
    change (if h : artifact.metadata.source = seeedSource then
      .ok (titledFacts artifact.metadata h) else .error "pipeline_source_mismatch") =
      Except.ok facts at h
    split at h
    · exact Except.ok.inj h ▸ rfl
    · cases h
  timeless request request' composedAt composedAt' value hsame _ h := by
    refine titleStages_input composedAt' ?_
    have hsource : request.artifact.metadata.source = request'.artifact.metadata.source := by
      rw [hsame.2]
    have hnormalize : (if h : request.artifact.metadata.source = seeedSource then
        .ok (titledFacts request.artifact.metadata h) else .error "pipeline_source_mismatch") =
        Except.ok value.composition.facts := (Stages.put_of_input h).facts
    split at hnormalize
    · next hseeed => exact hsource ▸ hseeed
    · cases hnormalize

noncomputable def plainServer : Server plainDigests where
  takes _ _ := true
  steady _ _ _ _ _ _ _ _ _ _ _ := rfl

/-- The context of a run after seven stages. -/
def composedContext : ImportPipelineContext where
  runId := 1
  sourceKey := "seeed_wiki"
  sourceLocator := "docs/Grove-Sound_Sensor.md"
  pipelineVersion := "2.0.0-shadow.1"
  startedAt := 0
  executions := (pipelineOrder.take 7).map fun stage =>
    { stage, startedAt := 0, completedAt := 0, warned := warningsValid_nil }
  keyed := seeedSource.keyed
  located := readyContext.located

/-- A run on the page, acquired at a time. -/
noncomputable def acquiredRun (acquiredAt : Time) : PipelineRun plainDigests where
  release := titleRelease
  request :=
    { runId := 1
      sourceId := 1
      artifact := ⟨{ seeedArtifact with acquiredAt }, []⟩
      kicadIndex := ⟨[], "0000000000000000000000000000000000000000", by decide, by simp, by simp⟩ }
  context := composedContext
  composedAt := 0
  startedAt := 0
  completedAt := 0

theorem acquiredRun_hands (acquiredAt : Time) :
    ∃ value, (acquiredRun acquiredAt).Hands plainServer value := by
  obtain ⟨value, hvalue⟩ : ∃ value, (acquiredRun acquiredAt).input = .ok value :=
    titleStages_input 0 rfl
  have hapart : ∀ last ∈ composedContext.executions.getLast?, last.completedAt ≤ 0 := by decide
  exact ⟨value, hvalue, ⟨rfl, rfl, le_refl 0, hapart⟩, rfl⟩

/-- The second run on a page that was acquired again leaves the first run's artifact with an
identity of other facts. -/
theorem persisted_inconsistent : ¬ Always (History.step plainServer)
    (fun s => s.tables.Consistent plainDigests) {} [acquiredRun 0, acquiredRun 1] := by
  intro halways
  obtain ⟨first, hfirst⟩ := acquiredRun_hands 0
  obtain ⟨second, hsecond⟩ := acquiredRun_hands 1
  have hsettled : Along (History.step plainServer) (Settled plainServer) {}
      [acquiredRun 0, acquiredRun 1] := by
    have hkept : ∀ s r s', Tables.Kept plainDigests s.tables → Settled plainServer s r s' →
        s.step plainServer r = some s' → Tables.Kept plainDigests s'.tables :=
      fun _ _ _ hk _ h => step_kept hk h
    exact along_of_always hkept (fun _ _ _ hk h hc => settled_of_consistent hk h hc)
      Tables.kept_empty halways
  obtain ⟨s, hs⟩ := History.step_total plainServer {} (acquiredRun 0)
  obtain ⟨s', hs'⟩ := History.step_total plainServer s (acquiredRun 1)
  obtain ⟨-, hnone⟩ | ⟨value, hvalue, hwrite, -⟩ := step_cases Tables.kept_empty hs
  · exact hnone first hfirst
  obtain rfl := hfirst.unique hvalue
  obtain ⟨row, hrow, hid, hfacts⟩ := (wrote_of_write hwrite).facts Tables.kept_empty (by simp)
  have hrepeats : (acquiredRun 1).Repeats (acquiredRun 0) := ⟨rfl, rfl, ⟨rfl, rfl⟩, rfl⟩
  have hsame : row.factsPayload = second.composition.facts :=
    ((along_cons hs').mp ((along_cons hs).mp hsettled).2).1 second hsecond row hrow
      (hid.trans (hfirst.artifactId_eq hrepeats hsecond))
  have hmetadata : (acquiredRun 0).request.artifact.metadata =
      (acquiredRun 1).request.artifact.metadata := by
    rw [← PipelineRun.artifact_eq hfirst.input, ← PipelineRun.artifact_eq hsecond.input,
      first.acquired, second.acquired, ← hfacts, hsame]
  exact absurd (congrArg SourceArtifactMetadata.acquiredAt hmetadata) (by decide)

end Sample

end ComponentKb.Pipeline
