import ComponentKb.Catalog.Card

/-!
# The catalog service

The writing methods of `CatalogService` (`catalog/service.py`). Each one locks the rows it works on,
checks them, and gives the database it leaves behind, or the error on which the transaction is
rolled back. The time, the actor and the identifiers it would draw are its arguments; what it
answers is the card read back.

The session does not flush before a query, so a row changed in memory is written once, at the flush
that ends the method (`Component.flushed`), except where a flush stands in between.
-/

namespace ComponentKb.Catalog

open ComponentKb.Lib

/-! ## Storing a draft -/

/-- The `Tag` rows after `_replace_lists`: one is added for each name not seen before. -/
def ensureTags (u : Unicode) (tags : List Tag) (values : List String) : List Tag :=
  values.foldl (fun tags value =>
    if (lookup Tag.normalizedName tags (normalized u value)).isSome then tags
    else tags ++ [⟨strip value, normalized u value⟩]) tags

/-- `_unit`: the symbol of the unit found or created. -/
def unitSymbol (symbol : Option String) : Option String :=
  symbol.bind fun s => if isBlank s then none else some (normalizeUnitSymbol s)

/-- The number of a specification, with one zero. -/
def enteredNumber (u : Unicode) (item : TechnicalSpecification) : Option Decimal :=
  (item.valueNumber.bind (Decimal.ofString u)).map fun n => if n.isZero then .zero else n

def TechnicalSpecification.valueType (item : TechnicalSpecification) : ValueType :=
  if item.valueNumber.isSome then .number else .text

/-- `if definition.value_type != value_type: definition.value_type = "mixed"`. -/
def PropertyDefinition.usedAs (definition : PropertyDefinition) (valueType : ValueType) :
    PropertyDefinition :=
  { definition with
    valueType := if definition.valueType = valueType then valueType else .mixed }

/-- The first number of a text property without a unit settles the unit. -/
def PropertyDefinition.settled (definition : PropertyDefinition) (unit : Option String) :
    PropertyDefinition :=
  if definition.valueType = .text ∧ definition.unit = none then
    { definition with unit := unitSymbol unit }
  else definition

/-- The number converted to the unit of its definition. -/
def convertedNumber (definition : PropertyDefinition) (position : Nat)
    (item : TechnicalSpecification) (number : Decimal) : Except CatalogError Decimal :=
  fromSome (convertNumericValue number item.unit definition.unit)
    (fieldError (valuePath position) "incompatible_unit"
      [("label", some item.label), ("entered_unit", item.unit),
        ("expected_unit", definition.unit), ("expected_family", unitFamily definition.unit)])

/-- The definition of a specification and its number in the unit of the definition. -/
def storeDefinition (u : Unicode) (definitions : List PropertyDefinition) (position : Nat)
    (item : TechnicalSpecification) :
    Except CatalogError (List PropertyDefinition × Option Decimal) :=
  match lookup PropertyDefinition.key definitions item.key with
  | none =>
    .ok (definitions ++ [⟨item.key, strip item.label, item.valueType, unitSymbol item.unit⟩],
      enteredNumber u item)
  | some definition => do
    require (definition.label = strip item.label ∧ definition.valueType ≠ .boolean)
      (fieldError [.name "specifications", .index position, .name "label"]
        "specification_definition_conflict" [("label", some item.label)])
    match enteredNumber u item with
    | none =>
      .ok (replace PropertyDefinition.key definitions (definition.usedAs item.valueType), none)
    | some number => do
      let number ← convertedNumber (definition.settled item.unit) position item number
      .ok (replace PropertyDefinition.key definitions
        ((definition.settled item.unit).usedAs item.valueType), some number)

/-- The loop of `_replace_technical` over the specifications. -/
def storeProperties (u : Unicode) :
    List PropertyDefinition → Nat → List TechnicalSpecification →
      Except CatalogError (List PropertyDefinition × List ComponentProperty)
  | definitions, _, [] => .ok (definitions, [])
  | definitions, position, item :: rest => do
    let (definitions, number) ← storeDefinition u definitions position item
    require (∀ n ∈ number, fitsNumericStorage n)
      (fieldError (valuePath position) "numeric_value_out_of_range" [("label", some item.label)])
    let (definitions, properties) ← storeProperties u definitions (position + 1) rest
    .ok (definitions, ⟨item.key, item.valueText, number.map Decimal.stored⟩ :: properties)

def storedCompatibility (items : List CompatibilityItem) : List CompatibilityItem :=
  items.zipIdx.map fun (item, position) =>
    { targetType := item.targetType
      name := strip item.name
      versionConstraint := stripped item.versionConstraint
      notes := stripped item.notes
      position := position }

def storedExamples (items : List CodeExample) : List CodeExample :=
  items.zipIdx.map fun (item, position) =>
    { item with
      title := strip item.title
      practicalTask := strip item.practicalTask
      hints := item.hints.map strip
      libraries := item.libraries.map strip
      explanation := stripped item.explanation
      position := position }

/-- `_replace_lists`, `_replace_technical` and `_replace_learning`: the details of the card, and
the database with the tags and definitions they need. -/
def replaceChildren (u : Unicode) (db : Db) (data : DraftData) :
    Except CatalogError (Db × Details) := do
  let (definitions, properties) ← storeProperties u db.definitions 0 data.specifications
  .ok ({ db with tags := ensureTags u db.tags data.tags, definitions := definitions },
    { aliases := data.aliases.map strip
      tags := data.tags.map (normalized u)
      properties := properties
      compatibility := storedCompatibility data.compatibility
      codeExamples := storedExamples data.codeExamples })

/-! ## Revisions and search documents -/

/-- `_snapshot`: the revision of a row, with the sources and the media that its queries find. -/
def snapshot (u : Unicode) (registry : List Source) (sources : List ComponentSource)
    (media : List ComponentMedia) (row : Component) (data : DraftData) (actor : UUID) (now : Time)
    (action : ComponentChangeAction) (previousStatus : Option ComponentStatus) :
    ComponentRevision :=
  { revision := row.revision
    status := row.status
    previousStatus := previousStatus
    action := action
    content := { columns u data with
      aliases := data.aliases
      tags := data.tags
      specifications := data.specifications
      compatibility := data.compatibility
      codeExamples := data.codeExamples
      sources := sourceSnapshots registry sources
      media := (media.filter (·.status = .ready)).map ComponentMedia.toMediaSnapshot }
    actorId := actor
    createdAt := now }

/-- The revision of a card whose rows are flushed. -/
def Card.snapshot (u : Unicode) (db : Db) (card : Card) (data : DraftData) (actor : UUID)
    (now : Time) (action : ComponentChangeAction) (previousStatus : Option ComponentStatus) :
    ComponentRevision :=
  Catalog.snapshot u db.sources card.sources (componentMedia card.assets) card.row data actor now
    action previousStatus

/-- A revision is added and the row is flushed. -/
def Card.recorded (card : Card) (revision : ComponentRevision) : Card :=
  { card with row := card.row.flushed, revisions := card.revisions ++ [revision] }

/-- `_upsert_search_document`. -/
def searchDocument (u : Unicode) (data : DraftData) (publishedAt : Time) (revision : Nat) :
    PublishedSearchDocument :=
  let identityText := joined (data.aliases ++ [data.manufacturer.getD "", data.model.getD ""])
  let contentText := joined (data.summary :: data.tags)
  { revision := revision
    categoryId := data.primaryCategoryId
    difficulty := data.difficulty
    title := data.title
    aliasesText := joined data.aliases
    manufacturer := data.manufacturer.getD ""
    model := data.model.getD ""
    summary := data.summary
    tagsText := joined data.tags
    searchText := normalized u (joined [data.title, identityText, contentText])
    publishedAt := publishedAt }

/-- `_restore_published_search_document`: nothing is written when there is no public card. -/
def restoredDocument (u : Unicode) (db : Db) (card : Card) : Option PublishedSearchDocument :=
  match publishedCard db card with
  | some published =>
    match published.publishedAt with
    | some publishedAt => some (searchDocument u published.data publishedAt published.revision)
    | none => card.document
  | none => card.document

/-! ## Access -/

/-- `_locked`. -/
def locked (db : Db) (componentId : UUID) : Except CatalogError Card :=
  fromSome (db.card componentId) .componentNotFound

/-- `_locked` and the check of the revision that every method begins with. -/
def lockedAt (db : Db) (componentId : UUID) (expectedRevision : Nat) : Except CatalogError Card := do
  let card ← locked db componentId
  require (card.row.revision = expectedRevision) .revisionConflict
  .ok card

/-- `_require_editable`. -/
def requireEditable (card : Card) : Except CatalogError Unit :=
  require card.row.status.editable (invalid "component_edit_locked")

/-- `components_slug_key`, with the error that the API makes of its violation. -/
def requireFreeSlug (db : Db) (row : Component) : Except CatalogError Unit :=
  require (∀ card ∈ db.cards, card.row.slug = row.slug → card.id = row.id)
    (fieldError [.name "slug"] "slug_already_exists" [])

/-- The row after an edit: back to a draft, with the editor and the time of the edit. -/
def Component.edited (row : Component) (actor : UUID) (now : Time) (recordHistory : Bool) :
    Component :=
  { row with
    status := .draft
    archivedFromStatus := none
    updatedBy := actor
    updatedAt := now
    revision := if recordHistory then row.revision + 1 else row.revision }

/-- The card after an edit; `previous` is the status it had. -/
def Card.edited (u : Unicode) (db : Db) (card : Card) (data : DraftData) (actor : UUID) (now : Time)
    (action : ComponentChangeAction) (recordHistory : Bool) : Card :=
  let next := { card with row := card.row.edited actor now recordHistory }
  if recordHistory then
    next.recorded (next.snapshot u db data actor now action (some card.row.status))
  else { next with row := next.row.flushed }

/-! ## Drafts -/

/-- `update`. -/
def update (u : Unicode) (db : Db) (componentId : UUID) (expectedRevision : Nat) (data : DraftData)
    (actor : UUID) (now : Time) (recordHistory : Bool) : Except CatalogError Db := do
  let card ← lockedAt db componentId expectedRevision
  requireEditable card
  require (card.row.publishedAt.isSome → data.slug = card.row.slug)
    (fieldError [.name "slug"] "slug_change_forbidden" [])
  validate u db.categories data
  let (db, details) ← replaceChildren u db data
  let next := { card with row := { card.row with toColumns := columns u data }, details := details }
  requireFreeSlug db next.row
  .ok (db.put (next.edited u db data actor now .updated recordHistory))

/-- `ComponentImageMutation`. -/
structure ImageMutation where
  assetId : UUID
  purpose : String
  altText : String
  caption : Option String
  deriving DecidableEq, Repr

/-- The text checks that new drafts and edits of images share. -/
def validateImageMetadata (item : ImageMutation) : Except CatalogError Unit :=
  require (¬ isBlank item.purpose ∧ item.purpose.length ≤ 40 ∧
      ¬ isBlank item.altText ∧ item.altText.length ≤ 500 ∧
      '\x00' ∉ item.purpose.toList ∧ '\x00' ∉ item.altText.toList ∧
      ∀ caption ∈ item.caption, '\x00' ∉ caption.toList ∧ caption.length ≤ 1000)
    (invalid "component_image_metadata_invalid")

/-- At most twelve images, each named once. -/
def requireDistinctImages (images : List ImageMutation) : Except CatalogError Unit :=
  require (images.length ≤ 12 ∧ (images.map ImageMutation.assetId).Nodup)
    (invalid "component_images_invalid")

/-- The asset with the texts, the place and the rank that a request gives it. -/
def MediaAsset.placed (asset : MediaAsset) (item : ImageMutation) (position : Nat)
    (primary : Option UUID) : MediaAsset :=
  { asset with
    purpose := strip item.purpose
    altText := strip item.altText
    caption := item.caption.bind fun caption => if isBlank caption then none else some (strip caption)
    displayOrder := position
    isPrimary := primary = some item.assetId }

/-- The asset with the changes of the request that names it. -/
def MediaAsset.mutated (images : List ImageMutation) (primary : Option UUID) (asset : MediaAsset) :
    MediaAsset :=
  match images.zipIdx.find? fun p => p.1.assetId = asset.id with
  | some (item, position) => asset.placed item position primary
  | none => asset

/-- What `_attach_staged_images` asks of an asset. -/
def requireStaged (db : Db) (actor : UUID) (item : ImageMutation) : Except CatalogError Unit := do
  let asset ← fromSome (lookup MediaAsset.id db.uploads item.assetId) .componentMediaNotFound
  require (asset.ownerUserId = actor ∧ asset.kind = .image ∧ asset.storageCleanedAt = none)
    .componentMediaNotFound
  validateImageMetadata item

/-- `_attach_staged_images`: the assets of the new card. -/
def attachStagedImages (db : Db) (images : List ImageMutation) (primaryAssetId : Option UUID)
    (actor : UUID) : Except CatalogError (List MediaAsset) := do
  requireDistinctImages images
  require (∀ id ∈ primaryAssetId, id ∈ images.map ImageMutation.assetId)
    (invalid "component_primary_image_invalid")
  require (∀ item ∈ images, (lookup MediaAsset.id db.assets item.assetId).isSome)
    .componentMediaNotFound
  each (requireStaged db actor) images
  let primary := primaryAssetId.or (images.head?.map ImageMutation.assetId)
  .ok ((db.uploads.filter fun asset => asset.id ∈ images.map ImageMutation.assetId).map
    (MediaAsset.mutated images primary))

/-- The database without assets that have been given to a card. -/
def Db.taken (db : Db) (ids : List UUID) : Db :=
  { db with uploads := db.uploads.filter fun asset => asset.id ∉ ids }

/-- `draft-` and the id: the slug of a draft that names none. -/
def defaultSlug (componentId : UUID) : String :=
  let digits := Nat.toDigits 16 componentId
  "draft-" ++ String.ofList (List.replicate (32 - digits.length) '0' ++ digits)

/-- The row of a new draft. -/
def newRow (u : Unicode) (componentId : UUID) (data : DraftData) (actor : UUID) (now : Time) :
    Component :=
  { columns u data with
    id := componentId
    status := .draft
    archivedFromStatus := none
    createdBy := actor
    updatedBy := actor
    publishedAt := none
    createdAt := now
    updatedAt := now
    revision := 1
    editToken := 1 }

/-- `create`; the id is fresh. -/
def create (u : Unicode) (db : Db) (componentId : UUID) (data : DraftData)
    (stagedImages : List ImageMutation) (primaryAssetId : Option UUID) (actor : UUID) (now : Time) :
    Except CatalogError Db := do
  let data := if data.slug = "" then { data with slug := defaultSlug componentId } else data
  validate u db.categories data
  let row := newRow u componentId data actor now
  requireFreeSlug db row
  let (db, details) ← replaceChildren u db data
  let assets ← attachStagedImages db stagedImages primaryAssetId actor
  let card : Card :=
    { row := row, details := details, assets := assets, revisions := [], document := none,
      sources := [], legacy := [] }
  let db := db.taken (stagedImages.map ImageMutation.assetId)
  .ok { db with
    cards := db.cards ++
      [{ card with revisions := [card.snapshot u db data actor now .created none] }] }

/-! ## Media -/

/-- `touch_media_attachment`. -/
def touchMediaAttachment (u : Unicode) (db : Db) (componentId : UUID) (expectedRevision : Nat)
    (actor : UUID) (now : Time) : Except CatalogError Db := do
  let card ← lockedAt db componentId expectedRevision
  requireEditable card
  .ok (db.put (card.edited u db (readData u db card) actor now .mediaAttached true))

/-- The primary image after an edit: the one asked for, else the present one if it is kept, else
the first. -/
def selectedPrimary (assets : List MediaAsset) (images : List ImageMutation)
    (primaryAssetId : Option UUID) : Option UUID :=
  primaryAssetId.or (images.head?.map fun first =>
    match (assets.find? (·.isPrimary)).map MediaAsset.id with
    | some id => if id ∈ images.map ImageMutation.assetId then id else first.assetId
    | none => first.assetId)

/-- The assets of a card after an edit of its images; a video is no concern of it. -/
def mutatedAssets (images : List ImageMutation) (primary : Option UUID)
    (assets : List MediaAsset) : List MediaAsset :=
  (assets.filter fun asset => asset.kind ≠ .image ∨ asset.id ∈ images.map ImageMutation.assetId).map
    fun asset => if asset.kind = .image then asset.mutated images primary else asset

/-- The images that an edit takes off the card. -/
def releasedAssets (images : List ImageMutation) (assets : List MediaAsset) : List MediaAsset :=
  (assets.filter fun asset => asset.kind = .image ∧ asset.id ∉ images.map ImageMutation.assetId).map
    fun asset => { asset with displayOrder := 0, isPrimary := false }

/-- `mutate_images`. -/
def mutateImages (u : Unicode) (db : Db) (componentId : UUID) (expectedRevision : Nat)
    (images : List ImageMutation) (primaryAssetId : Option UUID) (actor : UUID) (now : Time)
    (recordHistory : Bool) : Except CatalogError Db := do
  let card ← lockedAt db componentId expectedRevision
  requireEditable card
  requireDistinctImages images
  let requested := images.map ImageMutation.assetId
  require (∀ id ∈ requested, id ∈ (imagesOf card.assets).map MediaAsset.id) .componentMediaNotFound
  require (∀ id ∈ primaryAssetId, id ∈ requested) (invalid "component_primary_image_invalid")
  each validateImageMetadata images
  let primary := selectedPrimary (imagesOf card.assets) images primaryAssetId
  let next := { card with assets := mutatedAssets images primary card.assets }
  let db := { db with uploads := db.uploads ++ releasedAssets images card.assets }
  .ok (db.put (next.edited u db (readData u db next) actor now .imagesUpdated recordHistory))

/-! ## Publication checks -/

/-- `_validate_review_content`. -/
def validateReviewContent (row : Component) : Except CatalogError Unit :=
  require (2 ≤ (strip row.title).length ∧ 20 ≤ (strip row.summary).length ∧
      ¬ isBlank row.description) (invalid "component_content_incomplete")

/-- The checks of `_validate_publish_sources` on one source. -/
def validatePublishSource (r : ComponentSource × Source) : Except CatalogError Unit := do
  let relation := r.1
  let source := r.2
  require (source.permissionStatus ≠ .denied) (invalid "source_permission_denied")
  require (source.status = .active ∧ source.isEnabled) (invalid "source_inactive")
  require (source.permissionStatus = .licenseGranted) (invalid "source_license_unknown")
  require (filled relation.sourceRevision).isSome (invalid "source_revision_missing")
  require ((filled relation.originalUrl).isSome ∨ (filled source.repositoryUrl).isSome)
    (invalid "source_origin_missing")
  require ((filled relation.licenseSnapshotName).isSome ∧
      (filled relation.licenseSnapshotSpdx).isSome ∧ (filled relation.licenseSnapshotUrl).isSome)
    (invalid "source_license_missing")
  require (filled relation.attributionSnapshot).isSome (invalid "source_attribution_missing")
  require (filled relation.modificationsNotice).isSome
    (invalid "source_modifications_notice_missing")

/-- `_validate_publish_sources`. -/
def validatePublishSources (rows : List (ComponentSource × Source)) : Except CatalogError Unit :=
  each validatePublishSource rows

/-- `_validate_publish_media`. -/
def validatePublishMedia (assets : List MediaAsset) : Except CatalogError Unit := do
  let images := imagesOf assets
  require (images ≠ []) (invalid "component_image_required")
  require (∀ image ∈ images, image.status = .ready) (invalid "component_image_not_ready")
  require ((images.filter (·.isPrimary)).length = 1) (invalid "component_primary_image_required")

/-- `HIGH_SCORE_THRESHOLD`. -/
def highScoreThreshold : Nat := 7000

/-- An open candidate that holds the publication of a component. -/
def DuplicateCandidate.holds (candidate : DuplicateCandidate) (id : UUID) : Prop :=
  candidate.status = .open ∧ highScoreThreshold ≤ candidate.score ∧
    (candidate.leftComponentId = id ∨ candidate.rightComponentId = id)

instance (candidate : DuplicateCandidate) (id : UUID) : Decidable (candidate.holds id) :=
  inferInstanceAs (Decidable (_ ∧ _))

/-- The sources of a card are checked unless it is marked as an original. -/
def validateOrigin (row : Component) (rows : List (ComponentSource × Source)) :
    Except CatalogError Unit :=
  if ¬ row.manualOriginal ∧ rows ≠ [] then validatePublishSources rows else .ok ()

/-- `_validate_publication`. -/
def validatePublication (db : Db) (card : Card) : Except CatalogError Unit := do
  validateReviewContent card.row
  require (∀ link ∈ card.legacy, link.licenseStatus = "reviewed")
    (invalid "legacy_license_review_required")
  let rows := componentSourceRows db.sources card.sources
  require (card.row.manualOriginal ∨ rows ≠ [] ∨ card.legacy ≠ [])
    (invalid "publication_source_required")
  require (∀ candidate ∈ db.candidates, ¬ candidate.holds card.id)
    (invalid "duplicate_review_required")
  validateOrigin card.row rows
  validatePublishMedia card.assets

/-! ## The lifecycle -/

/-- The checks of `transition` that depend on its target. -/
def validateTarget (db : Db) (card : Card) : ComponentStatus → Except CatalogError Unit
  | .inReview => validateReviewContent card.row
  | .published => validatePublication db card
  | _ => .ok ()

/-- The row after a transition. -/
def Component.moved (row : Component) (target : ComponentStatus) (actor : UUID) (now : Time) :
    Component :=
  { row with
    archivedFromStatus := if target = .archived then some row.status else none
    status := target
    revision := row.revision + 1
    updatedBy := actor
    updatedAt := now
    publishedAt := if target = .published then some now else row.publishedAt }

/-- The search document after a transition. -/
def documentAfter (u : Unicode) (card : Card) (data : DraftData) (target : ComponentStatus)
    (now : Time) : Option PublishedSearchDocument :=
  match target with
  | .published => some (searchDocument u data now card.row.revision)
  | .hidden | .archived => none
  | _ => card.document

/-- `transition`. -/
def transition (u : Unicode) (db : Db) (componentId : UUID) (expectedRevision : Nat)
    (target : ComponentStatus) (actor : UUID) (now : Time) : Except CatalogError Db := do
  let card ← lockedAt db componentId expectedRevision
  require (card.row.status ∈ lifecycleTransitionSources target)
    (invalid "lifecycle_transition_denied")
  let action ← fromSome (lifecycleTransitionAction target) (invalid "lifecycle_transition_denied")
  validateTarget db card target
  let next := { card with row := card.row.moved target actor now }
  let data := readData u db next
  let revision := next.snapshot u db data actor now action (some card.row.status)
  .ok (db.put { next.recorded revision with document := documentAfter u next data target now })

/-- The row shown again or restored. -/
def Component.returned (row : Component) (target : ComponentStatus) (actor : UUID) (now : Time) :
    Component :=
  { row with
    status := target
    archivedFromStatus := none
    revision := row.revision + 1
    updatedBy := actor
    updatedAt := now }

/-- `show_hidden`. -/
def showHidden (u : Unicode) (db : Db) (componentId : UUID) (expectedRevision : Nat)
    (actor : UUID) (now : Time) : Except CatalogError Db := do
  let card ← lockedAt db componentId expectedRevision
  require (card.row.status = .hidden) (invalid "lifecycle_transition_denied")
  let publishedAt ← fromSome card.row.publishedAt (invalid "lifecycle_transition_denied")
  let next := { card with row := card.row.returned .published actor now }
  let data := readData u db next
  let revision := next.snapshot u db data actor now .shown (some .hidden)
  .ok (db.put { next.recorded revision with
    document := some (searchDocument u data publishedAt next.row.revision) })

/-- The search document of a card restored to a status. -/
def documentRestored (u : Unicode) (db : Db) (card : Card) (data : DraftData) :
    Option PublishedSearchDocument :=
  match card.row.status, card.row.publishedAt with
  | .hidden, _ => none
  | _, none => card.document
  | .published, some publishedAt => some (searchDocument u data publishedAt card.row.revision)
  | _, some _ => restoredDocument u db card

/-- `restore_archived`. -/
def restoreArchived (u : Unicode) (db : Db) (componentId : UUID) (expectedRevision : Nat)
    (actor : UUID) (now : Time) : Except CatalogError Db := do
  let card ← lockedAt db componentId expectedRevision
  require (card.row.status = .archived) (invalid "lifecycle_transition_denied")
  let target ← fromSome card.row.archivedFromStatus (invalid "lifecycle_transition_denied")
  require (target ≠ .archived) (invalid "lifecycle_transition_denied")
  let next := { card with row := card.row.returned target actor now }
  let data := readData u db next
  let revision := next.snapshot u db data actor now .restored (some .archived)
  -- `_published_card` is asked while the new revision is not flushed
  .ok (db.put { next.recorded revision with document := documentRestored u db next data })

end ComponentKb.Catalog
