import ComponentKb.Catalog.Service

/-!
# Merging duplicates

`resolve_duplicate_pair` (`catalog/service.py`) and the decision on a duplicate candidate that calls
it (`deduplication/review.py`). A merge moves the sources and the media of the loser to the
survivor, which goes back to a draft, and archives the loser.
-/

namespace ComponentKb.Catalog

open ComponentKb.Lib

/-! ## Fields -/

/-- The fields whose value a merge may take from either card. -/
def mergeableFields : List String :=
  ["title", "aliases", "manufacturer", "model", "primary_category_id", "tags", "summary",
    "description", "purpose", "usage_notes", "safety_notes", "difficulty", "teacher_notes",
    "specifications", "compatibility", "code_examples"]

/-- The draft made of the values chosen from the two cards; the slug and the origin stay those of
the survivor. -/
def chosenData (fieldSources : List (String × UUID)) (sourceData : UUID → DraftData)
    (survivor : UUID) : DraftData :=
  let chosen (field : String) : DraftData :=
    sourceData (((lookup Prod.fst fieldSources field).map Prod.snd).getD survivor)
  { slug := (sourceData survivor).slug
    title := (chosen "title").title
    aliases := (chosen "aliases").aliases
    manufacturer := (chosen "manufacturer").manufacturer
    model := (chosen "model").model
    primaryCategoryId := (chosen "primary_category_id").primaryCategoryId
    tags := (chosen "tags").tags
    summary := (chosen "summary").summary
    description := (chosen "description").description
    purpose := (chosen "purpose").purpose
    usageNotes := (chosen "usage_notes").usageNotes
    safetyNotes := (chosen "safety_notes").safetyNotes
    difficulty := (chosen "difficulty").difficulty
    teacherNotes := (chosen "teacher_notes").teacherNotes
    manualOriginal := (sourceData survivor).manualOriginal
    specifications := (chosen "specifications").specifications
    compatibility := (chosen "compatibility").compatibility
    codeExamples := (chosen "code_examples").codeExamples }

/-- The survivor with the chosen fields, and its draft. The row is flushed when a column changed:
moving the media flushes the session. -/
def mergeFields (u : Unicode) (db : Db) (survivor loser : Card)
    (fieldSources : List (String × UUID)) : Except CatalogError (Db × Card × DraftData) := do
  require ((∀ p ∈ fieldSources, p.1 ∈ mergeableFields) ∧
      ∀ p ∈ fieldSources, p.2 = survivor.id ∨ p.2 = loser.id) (invalid "merge_fields_invalid")
  let sourceData (id : UUID) : DraftData :=
    readData u db (if id = survivor.id then survivor else loser)
  let data := chosenData fieldSources sourceData survivor.id
  validate u db.categories data
  let (db, details) ← replaceChildren u db data
  let row := { survivor.row with toColumns := columns u data }
  let row := if row = survivor.row then row else row.flushed
  .ok (db, { survivor with row := row, details := details }, data)

/-- The survivor a merge goes on with; attaching a card chooses no fields. -/
def resolvedFields (u : Unicode) (db : Db) (survivor loser : Card)
    (fieldSources : List (String × UUID)) (merge : Bool) :
    Except CatalogError (Db × Card × DraftData) :=
  if merge then mergeFields u db survivor loser fieldSources
  else .ok (db, survivor, readData u db survivor)

/-! ## Media -/

/-- The primary image after a merge: that of the survivor, else the first image that is ready, else
the first. -/
def mergedPrimary (survivor : List MediaAsset) (images : List MediaAsset) : Option UUID :=
  ((((imagesOf survivor).find? (·.isPrimary)).or (images.find? (·.status = .ready))).or
    images.head?).map MediaAsset.id

/-- `_merge_media`: all assets of both cards, those of the survivor first. -/
def mergedAssets (survivor loser : List MediaAsset) : List MediaAsset :=
  let images := imagesOf survivor ++ imagesOf loser
  let videos := assetsOf .video survivor ++ assetsOf .video loser
  (images.zipIdx.map fun (asset, position) => { asset with
    displayOrder := position, isPrimary := mergedPrimary survivor images = some asset.id }) ++
  videos.zipIdx.map fun (asset, position) => { asset with
    displayOrder := position, isPrimary := false }

/-- The media that a query finds between the move and the flush: the assets that the stored rows
give to a card, in the order of the stored rows, with the values they have in memory. -/
def mediaBeforeFlush (stored merged : List MediaAsset) : List ComponentMedia :=
  (imagesOf stored).filterMap fun asset =>
    (lookup MediaAsset.id merged asset.id).map MediaAsset.media

/-! ## The merge -/

/-- The row of the loser after a merge; an archived one keeps the status it came from. -/
def Component.mergedAway (row : Component) (actor : UUID) (now : Time) : Component :=
  { row with
    archivedFromStatus :=
      if row.status = .archived then row.archivedFromStatus else some row.status
    status := .archived
    revision := row.revision + 1
    updatedBy := actor
    updatedAt := now }

/-- The survivor after a merge. Its revision lists the media found before the flush. -/
def Card.merged (survivor : Card) (u : Unicode) (db : Db) (loser : Card)
    (previous : ComponentStatus) (data : DraftData) (actor : UUID) (now : Time) : Card :=
  let next := { survivor with
    row := survivor.row.edited actor now true
    sources := survivor.sources ++ loser.sources
    assets := mergedAssets survivor.assets loser.assets }
  next.recorded (Catalog.snapshot u db.sources next.sources (mediaBeforeFlush survivor.assets next.assets)
    next.row data actor now .merged (some previous))

/-- The loser after a merge; `assets` are those of the survivor by then. -/
def Card.mergedAway (loser : Card) (u : Unicode) (db : Db) (assets : List MediaAsset)
    (actor : UUID) (now : Time) : Card :=
  let next := { loser with
    row := loser.row.mergedAway actor now, sources := [], assets := [], document := none }
  next.recorded (Catalog.snapshot u db.sources [] (mediaBeforeFlush loser.assets assets) next.row
    (readData u db next) actor now .archivedByMerge (some loser.row.status))

/-- `resolve_duplicate_pair`. -/
def resolveDuplicatePair (u : Unicode) (db : Db) (leftId rightId : UUID)
    (leftRevision rightRevision : Nat) (survivorId : UUID) (fieldSources : List (String × UUID))
    (actor : UUID) (now : Time) (merge : Bool) : Except CatalogError Db := do
  let left ← locked db leftId
  let right ← locked db rightId
  require (leftId ≠ rightId) .componentNotFound
  require (left.row.revision = leftRevision ∧ right.row.revision = rightRevision) .revisionConflict
  require (survivorId = leftId ∨ survivorId = rightId) (invalid "merge_target_invalid")
  let survivor := if survivorId = leftId then left else right
  let loser := if survivorId = leftId then right else left
  let (db, next, data) ← resolvedFields u db survivor loser fieldSources merge
  let kept := next.merged u db loser survivor.row.status data actor now
  .ok ((db.put kept).put (loser.mergedAway u db kept.assets actor now))

/-! ## The decision -/

inductive DuplicateDecision where
  | merge | attach | create | reject
  deriving DecidableEq, Repr

def DuplicateDecision.status : DuplicateDecision → CandidateStatus
  | .merge => .merged
  | .reject => .rejected
  | .attach | .create => .superseded

def DuplicateDecision.resolves : DuplicateDecision → Bool
  | .merge | .attach => true
  | .create | .reject => false

/-- The exceptions of `deduplication/review.py`. -/
inductive ReviewError where
  | candidateNotFound
  | candidateResolved
  | invalidDecision
  | catalog (error : CatalogError)
  deriving DecidableEq, Repr

/-- The candidates after a decision: the one decided, and the open ones of a card merged away. -/
def decidedCandidates (candidates : List DuplicateCandidate) (candidate : DuplicateCandidate)
    (decision : DuplicateDecision) (loser : Option UUID) : List DuplicateCandidate :=
  candidates.map fun other =>
    if other.id = candidate.id then { other with status := decision.status }
    else if other.status = .open ∧
        (some other.leftComponentId = loser ∨ some other.rightComponentId = loser) then
      { other with status := .superseded }
    else other

/-- The catalog's part of a decision: the merge, or the check of both revisions. -/
def resolveCandidate (u : Unicode) (db : Db) (candidate : DuplicateCandidate)
    (decision : DuplicateDecision) (leftRevision rightRevision : Nat) (survivorId : Option UUID)
    (fieldSources : List (String × UUID)) (actor : UUID) (now : Time) : Except CatalogError Db :=
  match survivorId with
  | some survivor =>
    resolveDuplicatePair u db candidate.leftComponentId candidate.rightComponentId leftRevision
      rightRevision survivor fieldSources actor now (decision = .merge)
  | none => do
    let left ← locked db candidate.leftComponentId
    let right ← locked db candidate.rightComponentId
    require (left.row.revision = leftRevision ∧ right.row.revision = rightRevision)
      .revisionConflict
    .ok db

/-- `DuplicateReviewService.decide`. -/
def decideDuplicate (u : Unicode) (db : Db) (candidateId : UUID) (decision : DuplicateDecision)
    (leftRevision rightRevision : Nat) (survivorId : Option UUID)
    (fieldSources : List (String × UUID)) (actor : UUID) (now : Time) : Except ReviewError Db := do
  let candidate ← fromSome (lookup DuplicateCandidate.id db.candidates candidateId)
    .candidateNotFound
  require (candidate.status = .open) .candidateResolved
  let pair := [candidate.leftComponentId, candidate.rightComponentId]
  require (if decision.resolves then ∃ survivor ∈ survivorId, survivor ∈ pair
    else survivorId = none ∧ fieldSources = []) .invalidDecision
  require (decision = .merge ∨ fieldSources = []) .invalidDecision
  let db ← (resolveCandidate u db candidate decision leftRevision rightRevision survivorId
    fieldSources actor now).mapError .catalog
  let loser := survivorId.bind fun survivor => pair.find? (· ≠ survivor)
  .ok { db with candidates := decidedCandidates db.candidates candidate decision loser }

end ComponentKb.Catalog
