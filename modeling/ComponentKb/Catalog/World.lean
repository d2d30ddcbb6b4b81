import ComponentKb.Catalog.Requests
import ComponentKb.Lib.Runs

/-!
# The catalog as a system

The other writers of the catalog's tables: categories, imports (`imports/repository.py`), legacy
bundles (`legacy/processor.py`, `api/legacy_imports.py`), the detection of duplicates, the
processing of media, and the administration of sources. `step` carries out one committed
transaction of any of them or of a request; a transaction that fails leaves no trace and is no
step. The identifiers that a transaction draws are fresh.
-/

namespace ComponentKb.Catalog

open ComponentKb.Lib

/-! ## Categories -/

/-- `create_category`. -/
def createCategory (db : Db) (id : UUID) (key name : String) (parentId : Option UUID)
    (description : Option String) (position : Int) : Except CatalogError Db := do
  require (isSlug key ∧ ¬ isBlank name) (invalid "category_invalid")
  require (∀ parent ∈ parentId, (activeCategory db.categories parent).isSome)
    (invalid "category_unavailable")
  require (∀ category ∈ db.categories, category.key ≠ key) (invalid "catalog_conflict")
  .ok { db with categories := db.categories ++
    [⟨id, key, strip name, parentId, description, true, position⟩] }

/-- `deactivate_category`. -/
def deactivateCategory (db : Db) (id : UUID) : Except CatalogError Db := do
  let category ← fromSome (db.category id) .componentNotFound
  require ((∀ card ∈ db.cards, card.row.primaryCategoryId ≠ id) ∧
      ∀ child ∈ db.categories, ¬ (child.parentId = some id ∧ child.isActive))
    (invalid "category_in_use")
  .ok { db with categories := replace Category.id db.categories { category with isActive := false } }

/-! ## Imports -/

/-- `ExactKeys`. -/
structure ExactKeys where
  canonicalUrl : String
  sourceItemId : String
  normalizedManufacturer : Option String
  normalizedModel : Option String
  deriving DecidableEq, Repr

/-- The source row of an imported page. -/
def ComponentSource.isPage (relation : ComponentSource) (sourceId : UUID) (keys : ExactKeys) :
    Bool :=
  relation.sourceId = sourceId ∧
    (relation.canonicalUrl = keys.canonicalUrl ∨ relation.sourceItemId = some keys.sourceItemId)

def Card.hasPage (sourceId : UUID) (keys : ExactKeys) (card : Card) : Bool :=
  card.sources.any (·.isPage sourceId keys)

/-- `exact_component`. -/
def exactComponent (db : Db) (sourceId : UUID) (keys : ExactKeys) : Option UUID :=
  ((db.cards.find? (Card.hasPage sourceId keys)).or
    (if (filled keys.normalizedManufacturer).isSome ∧ (filled keys.normalizedModel).isSome then
      db.cards.find? fun card =>
        card.row.normalizedManufacturer = keys.normalizedManufacturer ∧
          card.row.normalizedModel = keys.normalizedModel
    else none)).map Card.id

/-- The row that `persist_draft` adds: nothing is known of the licence. -/
def pageSource (id sourceId : UUID) (keys : ExactKeys) : ComponentSource :=
  { id := id
    sourceId := sourceId
    canonicalUrl := keys.canonicalUrl
    sourceItemId := some keys.sourceItemId
    originalUrl := none
    sourceRevision := none
    sourceTag := none
    sourceFilePath := none
    sourceEntryName := none
    modificationsNotice := none
    importedAt := none
    licenseSnapshotName := none
    licenseSnapshotSpdx := none
    licenseSnapshotUrl := none
    attributionSnapshot := none
    parserName := none
    parserVersion := none }

/-- Adds a source to a card, whatever the status of the card. -/
def attachSource (db : Db) (componentId : UUID) (relation : ComponentSource) :
    Except CatalogError Db := do
  let card ← locked db componentId
  .ok (db.put { card with sources := card.sources ++ [relation] })

/-- `persist_draft`; `draft` is what the parsed page is made into. -/
def persistDraft (u : Unicode) (db : Db) (sourceId : UUID) (keys : ExactKeys) (draft : DraftData)
    (newId rowId actor : UUID) (now : Time) : Except CatalogError Db :=
  match exactComponent db sourceId keys with
  | some componentId =>
    if db.cards.any (Card.hasPage sourceId keys) then .ok db
    else attachSource db componentId (pageSource rowId sourceId keys)
  | none => do
    let db ← create u db newId { draft with manualOriginal := false } [] none actor now
    attachSource db newId (pageSource rowId sourceId keys)

/-- The licence and the origin that a repository parser reports. -/
structure ParsedRepository where
  repositoryUrl : String
  licenseName : String
  licenseSpdx : String
  licenseUrl : String
  attribution : String
  sourceRevision : String
  sourceTag : Option String
  sourceFilePath : String
  sourceEntryName : Option String
  sourceItemId : String
  originalUrl : String
  parsedAt : Time
  modificationsNotice : String
  parserName : String
  parserVersion : String
  deriving DecidableEq, Repr

/-- The row that `persist_repository_draft` adds. -/
def repositorySource (id sourceId : UUID) (parsed : ParsedRepository) : ComponentSource :=
  { id := id
    sourceId := sourceId
    canonicalUrl := parsed.originalUrl
    sourceItemId := some parsed.sourceItemId
    originalUrl := some parsed.originalUrl
    sourceRevision := some parsed.sourceRevision
    sourceTag := parsed.sourceTag
    sourceFilePath := some parsed.sourceFilePath
    sourceEntryName := parsed.sourceEntryName
    modificationsNotice := some parsed.modificationsNotice
    importedAt := some parsed.parsedAt
    licenseSnapshotName := some parsed.licenseName
    licenseSnapshotSpdx := some parsed.licenseSpdx
    licenseSnapshotUrl := some parsed.licenseUrl
    attributionSnapshot := some parsed.attribution
    parserName := some parsed.parserName
    parserVersion := some parsed.parserVersion }

/-- An entry of this revision of the repository has been imported. -/
def ComponentSource.isEntry (relation : ComponentSource) (sourceId : UUID)
    (parsed : ParsedRepository) : Bool :=
  relation.sourceId = sourceId ∧ relation.sourceRevision = some parsed.sourceRevision ∧
    relation.sourceFilePath = some parsed.sourceFilePath ∧
    relation.sourceEntryName = parsed.sourceEntryName

/-- `persist_repository_draft`. -/
def persistRepositoryDraft (u : Unicode) (db : Db) (sourceId : UUID) (parsed : ParsedRepository)
    (draft : DraftData) (newId rowId actor : UUID) (now : Time) : Except CatalogError Db := do
  let source ← fromSome (lookup Source.id db.sources sourceId)
    (invalid "repository_source_not_importable")
  require (source.status = .active ∧ source.isEnabled ∧ source.permissionStatus = .licenseGranted ∧
      source.repositoryUrl = some parsed.repositoryUrl)
    (invalid "repository_source_not_importable")
  require (source.licenseSpdx = some parsed.licenseSpdx ∧ source.licenseUrl = some parsed.licenseUrl)
    (invalid "repository_license_snapshot_mismatch")
  if db.cards.any fun card => card.sources.any (·.isEntry sourceId parsed) then .ok db
  else do
    let db ← create u db newId { draft with manualOriginal := false } [] none actor now
    attachSource db newId (repositorySource rowId sourceId parsed)

/-! ## Legacy bundles -/

/-- An image of a legacy item that was read and decoded. -/
structure LegacyImage where
  assetId : UUID
  purpose : String
  mime : String
  size : Nat
  sha256 : String
  phash : String
  deriving DecidableEq, Repr

/-- The asset of a legacy image, with its job started. -/
def LegacyImage.asset (image : LegacyImage) (owner : UUID) (title : String) (position : Nat)
    (isPrimary : Bool) (now : Time) : MediaAsset :=
  { reservation image.assetId owner .image image.purpose title image.mime image.size position
      isPrimary now (now + seconds 900) with
    sha256 := some image.sha256
    phash := some image.phash
    status := .processing }

/-- The loop of `ingest_images`: images known by their digest and those over the quota are left
out. -/
def ingestImages (owner : UUID) (title : String) (now : Time) :
    (count bytes position : Nat) → (shas : List String) → List LegacyImage → List MediaAsset
  | _, _, _, _, [] => []
  | count, bytes, position, shas, image :: rest =>
    if image.sha256 ∈ shas ∨ 12 ≤ count ∨ maxComponentOriginalBytes < bytes + image.size ∨
        Media.MediaKind.image.maxBytes < image.size then
      ingestImages owner title now count bytes position shas rest
    else
      image.asset owner title position (count = 0) now ::
        ingestImages owner title now (count + 1) (bytes + image.size) (position + 1)
          (image.sha256 :: shas) rest

/-- What the administrator decided for an item. -/
inductive LegacyDecision where
  | create
  | merge (componentId : UUID) (revision editToken : Nat)
  deriving DecidableEq, Repr

/-- The card an item is applied to: a new one, or a draft that was never published and is as it was
when the item was reviewed. -/
def legacyTarget (u : Unicode) (db : Db) (decision : LegacyDecision) (data : DraftData)
    (newId actor : UUID) (now : Time) : Except CatalogError (Db × UUID) :=
  match decision with
  | .create => do
    let db ← create u db newId data [] none actor now
    .ok (db, newId)
  | .merge componentId revision editToken => do
    let card ← locked db componentId
    require (card.row.status = .draft ∧ card.row.publishedAt = none ∧
        card.row.revision = revision ∧ card.row.editToken = editToken)
      (invalid "legacy_merge_changed")
    let db ← update u db componentId revision data actor now true
    .ok (db, componentId)

/-- `uq_media_assets_component_primary_image`. -/
def requireOnePrimary (assets : List MediaAsset) : Except CatalogError Unit :=
  require (((imagesOf assets).filter (·.isPrimary)).length ≤ 1) (invalid "catalog_conflict")

/-- The card of a legacy item with its link and its images. -/
def linkLegacy (db : Db) (componentId : UUID) (identity : String) (images : List LegacyImage)
    (owner : UUID) (title : String) (now : Time) : Except CatalogError Db := do
  let card ← locked db componentId
  let usage := componentUsage now card.assets
  let present := card.assets.filter (·.status ≠ .rejected)
  let assets := card.assets ++ ingestImages owner title now usage.images usage.originalBytes
    (nextComponentOrder card.assets .image) (present.filterMap (·.sha256)) images
  requireOnePrimary assets
  .ok (db.put { card with assets := assets, legacy := card.legacy ++ [⟨identity, "unknown"⟩] })

/-- `apply_item`; `data` is the draft of the item, or its merge into the draft of the card. -/
def applyItem (u : Unicode) (db : Db) (identity : String) (decision : LegacyDecision)
    (data : DraftData) (images : List LegacyImage) (newId owner actor : UUID) (now later : Time) :
    Except CatalogError Db := do
  require (∀ card ∈ db.cards, ∀ link ∈ card.legacy, link.identity ≠ identity)
    (invalid "item_skipped")
  let (db, componentId) ← legacyTarget u db decision data newId actor now
  let db ← linkLegacy db componentId identity images owner data.title now
  let card ← locked db componentId
  touchMediaAttachment u db componentId card.row.revision actor later

/-- `review_license`: every link of the card at once. -/
def reviewLicense (db : Db) (componentId : UUID) : Except CatalogError Db := do
  let card ← locked db componentId
  require (card.legacy ≠ []) (invalid "legacy_provenance_not_found")
  .ok (db.put { card with
    legacy := card.legacy.map fun link => { link with licenseStatus := "reviewed" } })

/-! ## Media processing -/

/-- What a worker, the confirmation of an upload, a retry or the retention makes of an asset; it
changes nothing that the catalog writes. -/
def MediaAsset.processed (asset : MediaAsset) (result : Media.MediaAsset)
    (variants : List MediaVariant) : MediaAsset :=
  { asset with toMediaAsset := { result with kind := asset.kind }, variants := variants }

/-- Processing of an asset that is not ready. A ready one is changed by a worker that lost its
lease only. -/
def processMedia (db : Db) (assetId : UUID) (result : Media.MediaAsset)
    (variants : List MediaVariant) : Db :=
  let process (asset : MediaAsset) : MediaAsset :=
    if asset.id = assetId ∧ asset.status ≠ .ready then asset.processed result variants else asset
  { db with
    uploads := db.uploads.map process
    cards := db.cards.map fun card => { card with assets := card.assets.map process } }

/-! ## Sources -/

/-- Registers a source or changes its settings. -/
def administer (sources : List Source) (source : Source) : List Source :=
  if (lookup Source.id sources source.id).isSome then replace Source.id sources source
  else sources ++ [source]

/-! ## Transactions -/

inductive Event where
  | createCategory (id : UUID) (key name : String) (parentId : Option UUID)
      (description : Option String) (position : Int)
  | deactivateCategory (id : UUID)
  | createComponent (id : UUID) (data : DraftData) (images : List ImageMutation)
      (primaryAssetId : Option UUID) (actor : UUID) (now : Time)
  | createDocument (requestId id : UUID) (data : DraftData) (actor : UUID) (now : Time)
  | updateComponent (id : UUID) (revision : Nat) (editToken : Option Nat) (data : DraftData)
      (actor : UUID) (now : Time)
  | updateComponentImages (id : UUID) (revision : Nat) (editToken : Option Nat)
      (images : List ImageMutation) (primaryAssetId : Option UUID) (actor : UUID) (now : Time)
  | lifecycle (id : UUID) (revision : Nat) (editToken : Option Nat) (action : LifecycleAction)
      (actor : UUID) (now : Time)
  | synchronize (id : UUID) (editToken : Nat) (data : DraftData) (images : List ImageMutation)
      (primaryAssetId : Option UUID) (actor : UUID) (now later : Time)
  | command (id : UUID) (editToken : Nat) (action : LifecycleAction) (actor : UUID) (now : Time)
  | approveAndPublish (id : UUID) (editToken : Nat) (actor : UUID) (now later : Time)
  | reserveUpload (assetId : UUID) (request : UploadRequest) (actor : UUID) (now : Time)
  | decide (candidateId : UUID) (decision : DuplicateDecision) (leftRevision rightRevision : Nat)
      (survivorId : Option UUID) (fieldSources : List (String × UUID)) (actor : UUID) (now : Time)
  | propose (candidate : DuplicateCandidate)
  | persistDraft (sourceId : UUID) (keys : ExactKeys) (draft : DraftData)
      (newId rowId actor : UUID) (now : Time)
  | persistRepositoryDraft (sourceId : UUID) (parsed : ParsedRepository) (draft : DraftData)
      (newId rowId actor : UUID) (now : Time)
  | applyItem (identity : String) (decision : LegacyDecision) (data : DraftData)
      (images : List LegacyImage) (newId owner actor : UUID) (now later : Time)
  | reviewLicense (id : UUID)
  | processMedia (assetId : UUID) (result : Media.MediaAsset) (variants : List MediaVariant)
  | administer (source : Source)

/-- The id of the card that a transaction may create. -/
def Event.newId : Event → Option UUID
  | .createComponent id .. => some id
  | .createDocument _ id .. => some id
  | .persistDraft _ _ _ id .. => some id
  | .persistRepositoryDraft _ _ _ id .. => some id
  | .applyItem _ _ _ _ id .. => some id
  | _ => none

/-- The ids of the assets that a transaction creates. -/
def Event.newAssets : Event → List UUID
  | .reserveUpload id .. => [id]
  | .applyItem _ _ _ images .. => images.map LegacyImage.assetId
  | _ => []

/-- The event is none of the catalog, but of the administration of sources. -/
def Event.administers : Event → Bool
  | .administer _ => true
  | _ => false

/-- The request is an autosave of the card. -/
def Event.saves (event : Event) (id : UUID) : Prop :=
  match event with
  | .synchronize component .. => component = id
  | _ => False

instance (event : Event) (id : UUID) : Decidable (event.saves id) := by
  unfold Event.saves
  split <;> infer_instance

/-- The lifecycle actions that a request asks for, on which card. -/
def Event.asks (event : Event) (id : UUID) (action : LifecycleAction) : Prop :=
  match event with
  | .lifecycle component _ _ asked _ _ => component = id ∧ asked = action
  | .command component _ asked _ _ => component = id ∧ asked = action
  | .approveAndPublish component .. => component = id ∧ (action = .approve ∨ action = .publish)
  | _ => False

instance (event : Event) (id : UUID) (action : LifecycleAction) :
    Decidable (event.asks id action) := by
  unfold Event.asks
  split <;> infer_instance

/-- The survivor and the loser of the merge that a request asks for. -/
def Event.merge (event : Event) (db : Db) : Option (UUID × UUID) :=
  match event with
  | .decide candidateId decision _ _ (some survivorId) _ _ _ =>
    if decision.resolves then
      (lookup DuplicateCandidate.id db.candidates candidateId).bind fun candidate =>
        if survivorId = candidate.leftComponentId then
          some (survivorId, candidate.rightComponentId)
        else if survivorId = candidate.rightComponentId then
          some (survivorId, candidate.leftComponentId)
        else none
    else none
  | _ => none

/-- The Unicode tables and the settings of an installation. -/
structure Env where
  unicode : Unicode
  settings : UploadSettings

/-- The database after a transaction; `none` when it is rolled back. -/
def perform (env : Env) (db : Db) : Event → Option Db
  | .createCategory id key name parentId description position =>
    if (db.category id).isSome then none
    else (createCategory db id key name parentId description position).toOption
  | .deactivateCategory id => (deactivateCategory db id).toOption
  | .createComponent id data images primary actor now =>
    (create env.unicode db id data images primary actor now).toOption
  | .createDocument requestId id data actor now =>
    (createDocument env.unicode db requestId id data actor now).toOption
  | .updateComponent id revision token data actor now =>
    (updateComponent env.unicode db id revision token data actor now).toOption
  | .updateComponentImages id revision token images primary actor now =>
    (updateComponentImages env.unicode db id revision token images primary actor now).toOption
  | .lifecycle id revision token action actor now =>
    (lifecycleComponent env.unicode db id revision token action actor now).toOption
  | .synchronize id token data images primary actor now later =>
    (synchronize env.unicode db id token data images primary actor now later).toOption
  | .command id token action actor now =>
    (documentCommand env.unicode db id token action actor now).toOption
  | .approveAndPublish id token actor now later =>
    (approveAndPublish env.unicode db id token actor now later).toOption
  | .reserveUpload assetId request actor now =>
    (reserveUpload env.unicode env.settings db assetId request actor now).toOption
  | .decide candidateId decision left right survivor fieldSources actor now =>
    (decideDuplicate env.unicode db candidateId decision left right survivor fieldSources actor
      now).toOption
  | .propose candidate => some { db with candidates := db.candidates ++ [candidate] }
  | .persistDraft sourceId keys draft newId rowId actor now =>
    (persistDraft env.unicode db sourceId keys draft newId rowId actor now).toOption
  | .persistRepositoryDraft sourceId parsed draft newId rowId actor now =>
    (persistRepositoryDraft env.unicode db sourceId parsed draft newId rowId actor now).toOption
  | .applyItem identity decision data images newId owner actor now later =>
    (applyItem env.unicode db identity decision data images newId owner actor now later).toOption
  | .reviewLicense id => (reviewLicense db id).toOption
  | .processMedia assetId result variants => some (processMedia db assetId result variants)
  | .administer source => some { db with sources := administer db.sources source }

/-- One committed transaction; the card and the assets it creates have fresh ids. -/
def step (env : Env) (db : Db) (event : Event) : Option Db :=
  if (event.newId.bind db.card).isSome ∨ ∃ id ∈ event.newAssets, id ∈ db.assets.map MediaAsset.id
  then none else perform env db event

/-! ## A small installation

One category, one image that was uploaded, and one suspected duplicate; the conditions that the
theorems about runs name are evaluated on runs of it. -/

def plainUnicode : Unicode where
  nfkc s := s
  casefold s := s
  isAlnum c := c.isAlphanum
  digit c := if c.isDigit then some (c.toNat - '0'.toNat) else none
  le a b := a.toList ≤ b.toList

def plainEnv : Env where
  unicode := plainUnicode
  settings :=
    { rateWindowSeconds := 3600
      rateLimit := 20
      pendingLimit := 5
      globalPendingLimit := 50
      presignTtlSeconds := 900 }

/-- A draft that is complete enough to be published. -/
def sensorDraft (slug : String) (manualOriginal : Bool) : DraftData :=
  { slug := slug
    title := "Sensor"
    aliases := []
    manufacturer := none
    model := none
    primaryCategoryId := 1
    tags := []
    summary := "Measures distance by ultrasound."
    description := "Four pins."
    purpose := none
    usageNotes := none
    safetyNotes := none
    difficulty := .beginner
    teacherNotes := none
    manualOriginal := manualOriginal
    specifications := []
    compatibility := []
    codeExamples := [] }

def readyImage (id owner : UUID) : MediaAsset :=
  { reservation id owner .image "photo" "Sensor" "image/png" 100 0 false 0 900 with
    status := .ready }

def plainDb : Db :=
  { categories := [⟨1, "sensors", "Sensors", none, none, true, 0⟩]
    cards := []
    tags := []
    definitions := []
    uploads := [readyImage 20 7]
    sources := []
    candidates := [⟨30, 10, 11, .open, 5000⟩]
    creations := [] }

/-- Card 10, with its image, and card 11 are created, and card 10 is published. -/
def publishing (manualOriginal : Bool) : List Event :=
  [.createComponent 10 (sensorDraft "sensor" manualOriginal) [⟨20, "photo", "Sensor", none⟩] none 7 1,
   .createComponent 11 (sensorDraft "sensor-copy" manualOriginal) [] none 7 1,
   .lifecycle 10 1 none .submit 7 2,
   .lifecycle 10 2 none .approve 7 3,
   .lifecycle 10 3 none .publish 7 4]

end ComponentKb.Catalog
