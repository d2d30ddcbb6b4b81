import ComponentKb.Catalog.Merge

/-!
# Requests on a card

The transactions behind the endpoints that write one card: the editor's synchronization and
commands, which name an edit token (`catalog/synchronization.py`, `api/component_sync.py`), the
older endpoints, which name a revision (`api/catalog.py`), and the upload of a file
(`media/service.py`). Permissions are left out: any actor may send any request.

Every request locks the row of the component before it reads it, so requests on one component are
carried out one after the other.
-/

namespace ComponentKb.Catalog

open ComponentKb.Lib

/-! ## The older endpoints -/

inductive LifecycleAction where
  | submit | requestChanges | approve | publish | hide | show | archive | restore
  deriving DecidableEq, Repr

/-- The target of an action that is a transition. -/
def LifecycleAction.target : LifecycleAction → Option ComponentStatus
  | .submit => some .inReview
  | .requestChanges => some .changesRequested
  | .approve => some .approved
  | .publish => some .published
  | .hide => some .hidden
  | .archive => some .archived
  | .show | .restore => none

/-- The mutation behind a lifecycle endpoint. -/
def lifecycle (u : Unicode) (db : Db) (componentId : UUID) (revision : Nat)
    (action : LifecycleAction) (actor : UUID) (now : Time) : Except CatalogError Db :=
  match action with
  | .submit => transition u db componentId revision .inReview actor now
  | .requestChanges => transition u db componentId revision .changesRequested actor now
  | .approve => transition u db componentId revision .approved actor now
  | .publish => transition u db componentId revision .published actor now
  | .hide => transition u db componentId revision .hidden actor now
  | .show => showHidden u db componentId revision actor now
  | .archive => transition u db componentId revision .archived actor now
  | .restore => restoreArchived u db componentId revision actor now

/-- `_legacy_token_guard`: a client that sends no token is asked for its revision. -/
def legacyTokenGuard (db : Db) (componentId : UUID) (revision : Nat) (editToken : Option Nat) :
    Except CatalogError Unit := do
  let card ← locked db componentId
  require (card.row.editToken = editToken.getD revision) .revisionConflict

/-- `update_component`. -/
def updateComponent (u : Unicode) (db : Db) (componentId : UUID) (revision : Nat)
    (editToken : Option Nat) (data : DraftData) (actor : UUID) (now : Time) :
    Except CatalogError Db := do
  legacyTokenGuard db componentId revision editToken
  update u db componentId revision data actor now true

/-- `update_component_images`. -/
def updateComponentImages (u : Unicode) (db : Db) (componentId : UUID) (revision : Nat)
    (editToken : Option Nat) (images : List ImageMutation) (primaryAssetId : Option UUID)
    (actor : UUID) (now : Time) : Except CatalogError Db := do
  legacyTokenGuard db componentId revision editToken
  mutateImages u db componentId revision images primaryAssetId actor now true

/-- The lifecycle endpoints of a card. -/
def lifecycleComponent (u : Unicode) (db : Db) (componentId : UUID) (revision : Nat)
    (editToken : Option Nat) (action : LifecycleAction) (actor : UUID) (now : Time) :
    Except CatalogError Db := do
  legacyTokenGuard db componentId revision editToken
  lifecycle u db componentId revision action actor now

/-! ## Synchronization -/

/-- `DocumentSynchronization.lock`. -/
def lockToken (db : Db) (componentId : UUID) (token : Nat) : Except CatalogError Card := do
  let card ← locked db componentId
  require (card.row.editToken = token) .revisionConflict
  .ok card

/-- An upload in progress. -/
def MediaAsset.uploading (now : Time) (asset : MediaAsset) : Bool :=
  asset.status = .processing ∨ (asset.status = .pending ∧ now < asset.uploadExpiresAt)

/-- `_component_quota_filter`. -/
def MediaAsset.counted (now : Time) (asset : MediaAsset) : Bool :=
  asset.status = .ready ∨ asset.uploading now

structure ComponentMediaUsage where
  images : Nat
  videos : Nat
  originalBytes : Nat
  deriving DecidableEq, Repr

/-- `component_usage`. -/
def componentUsage (now : Time) (assets : List MediaAsset) : ComponentMediaUsage :=
  let counted := assets.filter (MediaAsset.counted now)
  { images := (counted.filter (·.kind = .image)).length
    videos := (counted.filter (·.kind = .video)).length
    originalBytes := (counted.map MediaAsset.declaredSizeBytes).sum }

def maxComponentOriginalBytes : Nat := 600 * 1024 * 1024

/-- The ids of a synchronization that are not images of the card yet. -/
def newImageIds (card : Card) (images : List ImageMutation) : List UUID :=
  (images.map ImageMutation.assetId).filter (· ∉ (imagesOf card.assets).map MediaAsset.id)

/-- What `synchronize` asks of an asset it attaches. -/
def attachable (actor : UUID) (asset : MediaAsset) : Prop :=
  asset.ownerUserId = actor ∧ asset.kind = .image ∧
    (asset.status = .processing ∨ asset.status = .ready) ∧ asset.storageCleanedAt = none

instance (actor : UUID) (asset : MediaAsset) : Decidable (attachable actor asset) :=
  inferInstanceAs (Decidable (_ ∧ _))

/-- The assets a synchronization attaches, in `uploads` or on a card. -/
def newImages (db : Db) (ids : List UUID) : List MediaAsset :=
  db.assets.filter fun asset => asset.id ∈ ids

/-- The card and the database once the new assets are attached. -/
def attachNew (db : Db) (card : Card) (actor : UUID) (ids : List UUID) (now : Time) :
    Except CatalogError Db := do
  let assets := newImages db ids
  require (∀ id ∈ ids, id ∈ assets.map MediaAsset.id) .componentMediaNotFound
  require ((componentUsage now card.assets).originalBytes +
      (assets.map MediaAsset.declaredSizeBytes).sum ≤ maxComponentOriginalBytes)
    (invalid "media_component_size_exceeded")
  require (∀ asset ∈ assets, attachable actor asset ∧ asset ∈ db.uploads) .componentMediaNotFound
  let attached := assets.map fun asset => { asset with isPrimary := false }
  .ok ((db.taken ids).put { card with assets := card.assets ++ attached })

/-- `synchronize`; the edit of the images is stamped `later`. -/
def synchronize (u : Unicode) (db : Db) (componentId : UUID) (token : Nat) (data : DraftData)
    (images : List ImageMutation) (primaryId : Option UUID) (actor : UUID) (now later : Time) :
    Except CatalogError Db := do
  let card ← lockToken db componentId token
  requireEditable card
  require (data.slug ≠ "") (invalid "invalid_slug")
  requireDistinctImages images
  let db ← attachNew db card actor (newImageIds card images) now
  let db ← update u db componentId card.row.revision data actor now false
  mutateImages u db componentId card.row.revision images primaryId actor later false

/-- `approve_and_publish`; the publication is stamped `later`. -/
def approveAndPublish (u : Unicode) (db : Db) (componentId : UUID) (token : Nat) (actor : UUID)
    (now later : Time) : Except CatalogError Db := do
  let card ← lockToken db componentId token
  require (card.row.status = .inReview) (invalid "lifecycle_transition_denied")
  let db ← transition u db componentId card.row.revision .approved actor now
  transition u db componentId (card.row.revision + 1) .published actor later

/-- `document_command`; approval alone is not a command. -/
def documentCommand (u : Unicode) (db : Db) (componentId : UUID) (token : Nat)
    (action : LifecycleAction) (actor : UUID) (now : Time) : Except CatalogError Db := do
  require (action ≠ .approve) (invalid "lifecycle_transition_denied")
  let card ← lockToken db componentId token
  lifecycle u db componentId card.row.revision action actor now

/-- `DocumentSynchronization.create`: a repeated request finds the card of the first. -/
def createDocument (u : Unicode) (db : Db) (requestId componentId : UUID) (data : DraftData)
    (actor : UUID) (now : Time) : Except CatalogError Db :=
  match lookup EditorCreation.requestId db.creations requestId with
  | some existing => do
    require (existing.ownerId = actor) (invalid "creation_key_unavailable")
    .ok db
  | none => do
    let db ← create u db componentId data [] none actor now
    .ok { db with creations := db.creations ++ [⟨requestId, actor, componentId⟩] }

/-! ## Uploads -/

/-- The limits of `Settings` that a reservation reads. -/
structure UploadSettings where
  rateWindowSeconds : Nat
  rateLimit : Nat
  pendingLimit : Nat
  globalPendingLimit : Nat
  presignTtlSeconds : Nat
  deriving DecidableEq, Repr

def MediaKind.code : Media.MediaKind → String
  | .image => "image"
  | .video => "video"

def MediaKind.allowedMimes : Media.MediaKind → List String
  | .image => ["image/jpeg", "image/png", "image/webp"]
  | .video => ["video/mp4", "video/quicktime", "video/webm"]

/-- `MAX_COMPONENT_IMAGES`, `MAX_COMPONENT_VIDEOS`. -/
def MediaKind.maxCount : Media.MediaKind → Nat
  | .image => 12
  | .video => 2

def ComponentMediaUsage.count (usage : ComponentMediaUsage) : Media.MediaKind → Nat
  | .image => usage.images
  | .video => usage.videos

/-- What a client asks for. -/
structure UploadRequest where
  kind : Media.MediaKind
  componentId : Option UUID
  componentRevision : Option Nat
  purpose : String
  altText : String
  declaredMime : String
  declaredSizeBytes : Nat
  deriving DecidableEq, Repr

/-- `next_component_order`. -/
def nextComponentOrder (assets : List MediaAsset) (kind : Media.MediaKind) : Nat :=
  ((assets.filter (·.kind = kind)).map fun asset => asset.displayOrder + 1).foldl max 0

/-- `create_reservation`. -/
def reservation (assetId owner : UUID) (kind : Media.MediaKind)
    (purpose altText declaredMime : String) (declaredSizeBytes : Nat) (displayOrder : Nat)
    (isPrimary : Bool) (now expiresAt : Time) : MediaAsset :=
  { id := assetId
    ownerUserId := owner
    kind := kind
    purpose := purpose
    altText := altText
    caption := none
    displayOrder := displayOrder
    isPrimary := isPrimary
    status := .pending
    declaredMime := declaredMime
    declaredSizeBytes := declaredSizeBytes
    uploadExpiresAt := expiresAt
    createdAt := now
    updatedAt := now
    storageCleanedAt := none
    detectedMime := none
    sizeBytes := none
    sha256 := none
    phash := none
    width := none
    height := none
    durationMs := none
    videoCodec := none
    audioCodec := none
    frameRate := none
    failureCode := none
    variants := [] }

/-- The reservation of a request. -/
def UploadRequest.asset (request : UploadRequest) (settings : UploadSettings)
    (assetId actor : UUID) (displayOrder : Nat) (isPrimary : Bool) (now : Time) : MediaAsset :=
  reservation assetId actor request.kind request.purpose (strip request.altText)
    request.declaredMime request.declaredSizeBytes displayOrder isPrimary now
    (now + seconds settings.presignTtlSeconds)

/-- The checks on the file and on the pace of uploads. -/
def validateUpload (settings : UploadSettings) (db : Db) (request : UploadRequest) (actor : UUID)
    (now : Time) : Except CatalogError Unit := do
  require (request.declaredMime ∈ MediaKind.allowedMimes request.kind)
    (.mediaValidation (MediaKind.code request.kind ++ "_declared_mime_not_allowed"))
  require (0 < request.declaredSizeBytes ∧ request.declaredSizeBytes ≤ request.kind.maxBytes)
    (.mediaValidation (MediaKind.code request.kind ++ "_size_not_allowed"))
  let own := db.assets.filter (·.ownerUserId = actor)
  require ((own.filter fun asset =>
      now - seconds settings.rateWindowSeconds ≤ asset.createdAt).length < settings.rateLimit)
    (.mediaQuota "media_upload_rate_limited")
  require ((own.filter (MediaAsset.uploading now)).length < settings.pendingLimit)
    (.mediaQuota "media_pending_quota_exceeded")
  require ((db.assets.filter (MediaAsset.uploading now)).length < settings.globalPendingLimit)
    (.mediaQuota "media_pending_quota_exceeded")

/-- The checks on the card an upload is for: its revision and its quota. -/
def requireRoom (db : Db) (request : UploadRequest) (componentId : UUID) (revision : Nat)
    (now : Time) : Except CatalogError Card := do
  let card ← fromSome (db.card componentId) .mediaNotFound
  require (card.row.revision = revision) .mediaRevisionConflict
  let usage := componentUsage now card.assets
  require (usage.count request.kind < MediaKind.maxCount request.kind)
    (.mediaQuota "media_component_count_exceeded")
  require (usage.originalBytes + request.declaredSizeBytes ≤ maxComponentOriginalBytes)
    (.mediaQuota "media_component_size_exceeded")
  .ok card

/-- `reserve_upload`: the asset is added after those the card has, and the card is touched. -/
def reserveUpload (u : Unicode) (settings : UploadSettings) (db : Db) (assetId : UUID)
    (request : UploadRequest) (actor : UUID) (now : Time) : Except CatalogError Db := do
  validateUpload settings db request actor now
  match request.componentId with
  | none =>
    .ok { db with uploads := db.uploads ++ [request.asset settings assetId actor 0 false now] }
  | some componentId => do
    let revision ← fromSome request.componentRevision
      (.mediaValidation "component_revision_required")
    let card ← requireRoom db request componentId revision now
    let asset := request.asset settings assetId actor
      (nextComponentOrder card.assets request.kind)
      (request.kind = .image ∧ imagesOf card.assets = []) now
    touchMediaAttachment u (db.put { card with assets := card.assets ++ [asset] }) componentId
      revision actor now

end ComponentKb.Catalog
