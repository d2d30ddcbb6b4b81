import ComponentKb.Catalog.Scoring
import ComponentKb.Legacy.Bundle
import ComponentKb.Legacy.Planning

/-!
# The plan of a legacy bundle

Items and hashes of a bundle over `Legacy/Bundle`: the endpoints of `api/legacy_imports.py`,
`save_analysis` and `apply_item` of `legacy/processor.py`. A digest is the SHA-256 of the JSON of
its argument and is a parameter; so is the search of `candidates`, which asks the database for
similar titles, and the analysis of the two files. Audit rows and statistics are left out, and so is
the reading of the images, whose results a transaction is given.

* `Bundle.reviewPlan`: what `review_hash` is the digest of; no transaction changes it but
  `saveAnalysis` and `decide`.
* `applyItem_spec`: an item that is applied was decided so, and is applied by the one transaction of
  the catalog.
-/

namespace ComponentKb.Legacy

open Catalog Lib

/-! ## Rows -/

inductive Decision where
  | create | merge | skip | review
  deriving DecidableEq, Repr

inductive ItemStatus where
  | planned | applying | applied | skipped | needsReview | failed
  deriving DecidableEq, Repr

/-- The statuses that `run_bundle` passes over. -/
def ItemStatus.finished : ItemStatus → Bool
  | .applied | .skipped | .needsReview | .failed => true
  | _ => false

/-- A card that an item may be the same as. -/
structure Candidate where
  id : UUID
  title : String
  revision : Nat
  editToken : Nat
  status : ComponentStatus
  score : Scoring.ScoreResult
  mergeAllowed : Bool
  modelConflict : Bool
  deriving DecidableEq

/-- A target as the plan keeps it: with the match of its folder and its warnings. -/
structure PlannedTarget extends Target where
  folderMatch : String
  warnings : List String
  deriving DecidableEq, Repr

structure LegacyItem where
  id : UUID
  identity : String
  payload : PlannedTarget
  candidates : List Candidate
  decision : Decision
  mergeId : Option UUID
  mergeRevision : Option Nat
  mergeEditToken : Option Nat
  status : ItemStatus
  resultId : Option UUID
  warnings : List String
  errorCode : Option String
  deriving DecidableEq

/-- A row of `legacy_bundles` with its items, in the order of their positions. -/
structure Bundle (η : Type) extends LegacyBundle where
  id : UUID
  ownerId : UUID
  confirmedBy : Option UUID
  zipSize : Nat
  xlsxSize : Nat
  zipSha256 : Option String
  xlsxSha256 : Option String
  parserVersion : Option String
  planHash : Option η
  confirmedHash : Option η
  items : List LegacyItem
  deriving DecidableEq

/-! ## Plans -/

/-- What `stored_plan_hash` is the digest of. -/
structure StoredPlan where
  zipSha256 : Option String
  xlsxSha256 : Option String
  parserVersion : Option String
  items : List (PlannedTarget × List Candidate)
  deriving DecidableEq

/-- An item in a plan that is reviewed. -/
structure ReviewLine where
  identity : String
  decision : Decision
  mergeId : Option UUID
  mergeRevision : Option Nat
  mergeEditToken : Option Nat
  deriving DecidableEq, Repr

/-- What `review_hash` is the digest of. -/
structure ReviewPlan (η : Type) where
  planHash : Option η
  lines : List ReviewLine
  deriving DecidableEq

/-- The decision of a line, if it is one to apply. -/
def ReviewLine.chosen (line : ReviewLine) : Option LegacyDecision :=
  match line.decision, line.mergeId, line.mergeRevision, line.mergeEditToken with
  | .create, _, _, _ => some .create
  | .merge, some componentId, some revision, some editToken =>
    some (.merge componentId revision editToken)
  | _, _, _, _ => none

/-- The digests, the search for candidates in a category, and the catalog's environment. -/
structure Tools (η : Type) where
  catalog : Catalog.Env
  keyDigest : List String → String
  storedDigest : StoredPlan → η
  reviewDigest : ReviewPlan η → η
  candidatesDigest : List Candidate → η
  search : Db → PlannedTarget → UUID → List Candidate

/-- `PARSER_VERSION`. -/
def parserVersion : String := "legacy-layout-v1.2"

/-- `ZIP_LIMIT`. -/
def zipLimit : Nat := 200 * 1024 * 1024

/-- `XLSX_LIMIT`. -/
def xlsxLimit : Nat := 64 * 1024 * 1024

section Bundles

variable {η : Type} [DecidableEq η] (tools : Tools η)

def LegacyItem.line (item : LegacyItem) : ReviewLine :=
  { identity := item.identity
    decision := item.decision
    mergeId := item.mergeId
    mergeRevision := item.mergeRevision
    mergeEditToken := item.mergeEditToken }

def Bundle.storedPlan (bundle : Bundle η) : StoredPlan :=
  { zipSha256 := bundle.zipSha256
    xlsxSha256 := bundle.xlsxSha256
    parserVersion := bundle.parserVersion
    items := bundle.items.map fun item => (item.payload, item.candidates) }

def Bundle.reviewPlan (bundle : Bundle η) : ReviewPlan η :=
  ⟨bundle.planHash, bundle.items.map LegacyItem.line⟩

/-- `stored_plan_hash`. -/
def storedPlanHash (bundle : Bundle η) : η := tools.storedDigest bundle.storedPlan

/-- `review_hash`. -/
def reviewHash (bundle : Bundle η) : η := tools.reviewDigest bundle.reviewPlan

def Bundle.item (bundle : Bundle η) (itemId : UUID) : Option LegacyItem :=
  lookup LegacyItem.id bundle.items itemId

def Bundle.put (bundle : Bundle η) (item : LegacyItem) : Bundle η :=
  { bundle with items := replace LegacyItem.id bundle.items item }

/-- The bundle after a step of its job. -/
def Bundle.proceed (bundle : Bundle η) (event : Event) : Except CatalogError (Bundle η) :=
  (fromSome (step bundle.toLegacyBundle event) (invalid "legacy_state_conflict")).map
    fun job => { bundle with toLegacyBundle := job }

/-! ## Endpoints -/

/-- `create_bundle`; `active` bundles count against the limit. -/
def createBundle (active : Nat) (id ownerId : UUID) (zipSize xlsxSize : Nat) (now : Time) :
    Except CatalogError (Bundle η) := do
  require (0 < zipSize ∧ zipSize ≤ zipLimit ∧ 0 < xlsxSize ∧ xlsxSize ≤ xlsxLimit)
    (invalid "validation_failed")
  require (active < 5) (invalid "legacy_pending_limit")
  .ok
    { status := .uploading
      phase := .analysis
      errorCode := none
      updatedAt := now
      id := id
      ownerId := ownerId
      confirmedBy := none
      zipSize := zipSize
      xlsxSize := xlsxSize
      zipSha256 := none
      xlsxSha256 := none
      parserVersion := none
      planHash := none
      confirmedHash := none
      items := [] }

/-- The statuses that `create_bundle` counts. -/
def Status.pending : Status → Bool
  | .uploading | .uploaded | .analyzing | .ready | .applying => true
  | _ => false

/-- `complete_upload`, on what the storage says about the files. -/
def Bundle.completeUpload (bundle : Bundle η) (zipSize xlsxSize : Nat) (now : Time) :
    Except CatalogError (Bundle η) := do
  require (bundle.status = .uploading) (invalid "legacy_state_conflict")
  require (zipSize = bundle.zipSize ∧ xlsxSize = bundle.xlsxSize)
    (invalid "legacy_upload_size_mismatch")
  .ok { bundle with status := .uploaded, updatedAt := now }

/-- `start_analysis`. -/
def Bundle.startAnalysis (bundle : Bundle η) (now : Time) : Except CatalogError (Bundle η) := do
  require (bundle.status = .uploaded) (invalid "legacy_state_conflict")
  .ok { bundle with toLegacyBundle := Legacy.startAnalysis now bundle.toLegacyBundle }

/-- The item after the administrator decided it. -/
def LegacyItem.decide (item : LegacyItem) (decision : Decision) (mergeId : Option UUID) :
    Except CatalogError LegacyItem :=
  let decided := { item with
    decision := decision
    status := .planned
    mergeId := none
    mergeRevision := none
    mergeEditToken := none }
  if decision = .merge then do
    let candidate ← fromSome
      (item.candidates.find? fun candidate => some candidate.id = mergeId ∧ candidate.mergeAllowed)
      (invalid "legacy_merge_not_allowed")
    .ok { decided with
      mergeId := mergeId
      mergeRevision := some candidate.revision
      mergeEditToken := some candidate.editToken }
  else .ok decided

/-- `decide`; `review` is no decision of a request. -/
def Bundle.decide (bundle : Bundle η) (itemId : UUID) (planHash : η) (decision : Decision)
    (mergeId : Option UUID) : Except CatalogError (Bundle η) := do
  require (decision ≠ .review) (invalid "validation_failed")
  require (bundle.status = .ready ∧ reviewHash tools bundle = planHash)
    (invalid "legacy_plan_changed")
  let item ← fromSome (bundle.item itemId) (invalid "legacy_item_not_found")
  require (decision = .skip ∨ exceedsDraftLimits item.payload.toTarget = false)
    (invalid "legacy_draft_limits_review_required")
  let item ← item.decide decision mergeId
  .ok (bundle.put item)

/-- `apply_bundle`. -/
def Bundle.confirm (bundle : Bundle η) (planHash : η) (actor : UUID) (now : Time) :
    Except CatalogError (Bundle η) := do
  require (bundle.status = .ready ∧ reviewHash tools bundle = planHash)
    (invalid "legacy_plan_changed")
  require (bundle.items ≠ [] ∧ ∀ item ∈ bundle.items, item.decision ≠ .review)
    (invalid "legacy_review_required")
  let bundle ← bundle.proceed (.apply now)
  .ok { bundle with confirmedHash := some planHash, confirmedBy := some actor }

/-- An item that failed is planned again. -/
def LegacyItem.again (item : LegacyItem) : LegacyItem :=
  if item.status = .failed then { item with status := .planned, errorCode := none } else item

/-- `retry_bundle`. -/
def Bundle.retry (bundle : Bundle η) (now : Time) : Except CatalogError (Bundle η) := do
  let failed := bundle.items.any (·.status = .failed)
  let next ← bundle.proceed (.retry failed now)
  if bundle.phase = .apply then do
    require (bundle.confirmedBy.isSome ∧ some (reviewHash tools bundle) = bundle.confirmedHash)
      (invalid "legacy_plan_changed")
    .ok { next with items := bundle.items.map LegacyItem.again }
  else .ok next

/-! ## Analysis -/

/-- `Analysis`, as far as the plan keeps it. -/
structure Analysis where
  zipSha256 : String
  xlsxSha256 : String
  parserVersion : String
  targets : List PlannedTarget
  deriving DecidableEq, Repr

/-- The card that a legacy item is linked to. -/
def linkOf (db : Db) (identity : String) : Option UUID :=
  (db.cards.find? fun card => card.legacy.any (·.identity = identity)).map (·.id)

/-- `candidates`; without its category there is no search. -/
def candidates (db : Db) (target : PlannedTarget) : Except CatalogError (List Candidate) := do
  let category ← categoryId db.categories target.toTarget
  .ok (tools.search db target category)

/-- An item of `save_analysis`. -/
def plannedItem (db : Db) (id : UUID) (target : PlannedTarget) :
    Except CatalogError LegacyItem := do
  let found ← candidates tools db target
  let previous := linkOf db target.identity
  let decision : Decision :=
    if previous.isSome then .skip
    else if found ≠ [] ∨ target.folderMatch = "review" ∨ exceedsDraftLimits target.toTarget then
      .review
    else .create
  .ok
    { id := id
      identity := target.identity
      payload := target
      candidates := found
      decision := decision
      mergeId := none
      mergeRevision := none
      mergeEditToken := none
      status := if decision = .review then .needsReview else .planned
      resultId := previous
      warnings := target.warnings ++
        (if exceedsDraftLimits target.toTarget then ["draft_limits_review_required"] else [])
      errorCode := none }

/-- `save_analysis`, on a bundle that is being analyzed; `ids` are those of the items. The primary
key and `uq_legacy_items_identity` are part of it. -/
def saveAnalysis (db : Db) (bundle : Bundle η) (analysis : Analysis) (ids : List UUID)
    (now : Time) : Except CatalogError (Bundle η) := do
  require (bundle.items = []) (invalid "legacy_plan_already_exists")
  require (ids.length = analysis.targets.length ∧ ids.Nodup) (invalid "legacy_items_pkey")
  let items ← (ids.zip analysis.targets).mapM fun row => plannedItem tools db row.1 row.2
  require (items.map LegacyItem.identity).Nodup (invalid "uq_legacy_items_identity")
  let bundle ← bundle.proceed (.saveAnalysis now)
  let bundle := { bundle with
    zipSha256 := some analysis.zipSha256
    xlsxSha256 := some analysis.xlsxSha256
    parserVersion := some analysis.parserVersion
    items := items }
  .ok { bundle with planHash := some (storedPlanHash tools bundle) }

/-! ## Items -/

/-- What the worker draws for an item, and the images it read and decoded for it. -/
structure ItemRun where
  images : List LegacyImage
  imageWarnings : List String
  newId : UUID
  now : Time
  later : Time
  deriving DecidableEq, Repr

/-- An item that was applied. -/
structure Applied where
  bundleId : UUID
  itemId : UUID
  identity : String
  decision : LegacyDecision
  componentId : UUID
  actor : UUID
  deriving DecidableEq, Repr

/-- The draft that an item was to be merged into, unless it changed since it was reviewed. -/
def LegacyItem.mergeRow (item : LegacyItem) (db : Db) (componentId : UUID) : Option Card :=
  (db.card componentId).filter fun card =>
    card.row.status = .draft ∧ card.row.publishedAt = none ∧
      some card.row.revision = item.mergeRevision ∧ some card.row.editToken = item.mergeEditToken

/-- The item after an exception of `apply_item`, which is rolled back. -/
def LegacyItem.fail (item : LegacyItem) : LegacyItem :=
  { item with status := .failed, errorCode := some "legacy_item_failed" }

/-- The end of `apply_item`: the card is saved, linked and touched. -/
def commitItem (db : Db) (bundle : Bundle η) (item : LegacyItem) (actor : UUID) (run : ItemRun)
    (decision : LegacyDecision) (data : DraftData) (componentId : UUID) (warnings : List String) :
    Except CatalogError (Db × LegacyItem × Option Applied) := do
  let db ← fromSome
    (Catalog.step tools.catalog db (.applyItem item.identity decision data run.images run.newId
      bundle.ownerId actor run.now run.later))
    (invalid "legacy_item_failed")
  .ok (db,
    { item with
      warnings := ((warnings ++ run.imageWarnings).dedup).mergeSort fun a b => a ≤ b
      resultId := some componentId
      status := .applied
      errorCode := none },
    some
      { bundleId := bundle.id
        itemId := item.id
        identity := item.identity
        decision := decision
        componentId := componentId
        actor := actor })

/-- `apply_item`, in a savepoint of its own. -/
def applyItem (db : Db) (bundle : Bundle η) (item : LegacyItem) (run : ItemRun) :
    Except CatalogError (Db × LegacyItem × Option Applied) := do
  let actor ← fromSome bundle.confirmedBy (invalid "legacy_confirmation_required")
  let previous := linkOf db item.identity
  if previous.isSome ∨ item.decision = .skip then
    .ok (db, { item with resultId := previous.or item.resultId, status := .skipped }, none)
  else do
    let current ← candidates tools db item.payload
    if tools.candidatesDigest current ≠ tools.candidatesDigest item.candidates then
      -- a card that appeared or was edited since the analysis
      .ok (db, { item with status := .needsReview, errorCode := some "legacy_catalog_changed" },
        none)
    else do
      let category ← categoryId db.categories item.payload.toTarget
      let incoming ← draftData tools.catalog.unicode tools.keyDigest item.payload.toTarget category
      match item.decision, item.mergeId with
      | .merge, some componentId =>
        match item.mergeRow db componentId with
        | none =>
          .ok (db, { item with status := .needsReview, errorCode := some "legacy_merge_changed" },
            none)
        | some card =>
          let merged := mergeData tools.catalog.unicode
            (readData tools.catalog.unicode db card) incoming
          commitItem tools db bundle item actor run
            (.merge componentId card.row.revision card.row.editToken) merged.1 componentId
            (item.warnings ++ merged.2)
      | .create, _ =>
        commitItem tools db bundle item actor run .create incoming run.newId item.warnings
      | _, _ => .error (invalid "legacy_decision_invalid")

end Bundles

end ComponentKb.Legacy
