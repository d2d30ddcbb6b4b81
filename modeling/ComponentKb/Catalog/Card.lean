import ComponentKb.Catalog.Draft
import ComponentKb.Lib.Table
import ComponentKb.Media.Job
import Mathlib.Data.List.Sort
import Mathlib.Data.Prod.Lex

/-!
# Cards as they are stored

The rows of `catalog/models.py`, and of the media, import and legacy tables as far as the catalog
reads them. The rows that carry the id of a component are kept together with it, in a `Card`: an
asset, a source or a legacy link moves to another card when its `component_id` changes. Tags and
property definitions are shared by all cards.

Rows that are read back in the order of their position are stored in that order. A unit is known by
its symbol, a tag by its normalized name, a property definition by its key.
-/

namespace ComponentKb.Catalog

open ComponentKb.Lib

/-! ## The row of a component -/

/-- The columns that a draft determines. -/
structure Columns where
  slug : String
  title : String
  manufacturer : Option String
  model : Option String
  normalizedManufacturer : Option String
  normalizedModel : Option String
  summary : String
  description : String
  purpose : Option String
  usageNotes : Option String
  safetyNotes : Option String
  difficulty : Difficulty
  teacherNotes : Option String
  primaryCategoryId : UUID
  manualOriginal : Bool
  deriving DecidableEq, Repr

/-- `_columns`. -/
def columns (u : Unicode) (data : DraftData) : Columns :=
  { slug := data.slug
    title := data.title
    manufacturer := data.manufacturer
    model := data.model
    normalizedManufacturer := normalizeExactIdentity u data.manufacturer
    normalizedModel := normalizeExactIdentity u data.model
    summary := data.summary
    description := data.description
    purpose := data.purpose
    usageNotes := data.usageNotes
    safetyNotes := data.safetyNotes
    difficulty := data.difficulty
    teacherNotes := data.teacherNotes
    primaryCategoryId := data.primaryCategoryId
    manualOriginal := data.manualOriginal }

structure Component extends Columns where
  id : UUID
  status : ComponentStatus
  archivedFromStatus : Option ComponentStatus
  createdBy : UUID
  updatedBy : UUID
  publishedAt : Option Time
  createdAt : Time
  updatedAt : Time
  revision : Nat
  editToken : Nat
  deriving DecidableEq, Repr

/-- The trigger `components_edit_token`: every `UPDATE` of the row advances its token. -/
def Component.flushed (row : Component) : Component := { row with editToken := row.editToken + 1 }

/-! ## Rows with a component id -/

/-- What a numeric or text property is; `boolean` is only ever seeded. -/
inductive ValueType where
  | text | number | boolean | mixed
  deriving DecidableEq, Repr

/-- A row of `property_definitions`, with the symbol of its unit. -/
structure PropertyDefinition where
  key : String
  label : String
  valueType : ValueType
  unit : Option String
  deriving DecidableEq, Repr

structure Tag where
  name : String
  normalizedName : String
  deriving DecidableEq, Repr

structure ComponentProperty where
  definition : String
  valueText : String
  valueNumber : Option Decimal
  deriving DecidableEq, Repr

/-- Aliases, tags, properties, compatibility rows and code examples. -/
structure Details where
  aliases : List String
  tags : List String
  properties : List ComponentProperty
  compatibility : List CompatibilityItem
  codeExamples : List CodeExample
  deriving DecidableEq, Repr

structure MediaVariant where
  name : String
  mime : String
  width : Nat
  height : Nat
  sha256 : String
  deriving DecidableEq, Repr

/-- A whole row of `media_assets`, with its variants: what processing writes, and what the catalog
and the upload write. -/
structure MediaAsset extends Media.MediaAsset where
  id : UUID
  ownerUserId : UUID
  purpose : String
  altText : String
  caption : Option String
  displayOrder : Nat
  isPrimary : Bool
  declaredSizeBytes : Nat
  createdAt : Time
  variants : List MediaVariant
  deriving DecidableEq, Repr

inductive PermissionStatus where
  | unknown | denied | licenseGranted
  deriving DecidableEq, Repr

inductive SourceStatus where
  | active | inactive | disabled
  deriving DecidableEq, Repr

/-- A registered source. -/
structure Source where
  id : UUID
  key : String
  displayName : String
  repositoryUrl : Option String
  licenseSpdx : Option String
  licenseUrl : Option String
  permissionStatus : PermissionStatus
  status : SourceStatus
  isEnabled : Bool
  deriving DecidableEq, Repr

structure ComponentSource where
  id : UUID
  sourceId : UUID
  canonicalUrl : String
  sourceItemId : Option String
  originalUrl : Option String
  sourceRevision : Option String
  sourceTag : Option String
  sourceFilePath : Option String
  sourceEntryName : Option String
  modificationsNotice : Option String
  importedAt : Option Time
  licenseSnapshotName : Option String
  licenseSnapshotSpdx : Option String
  licenseSnapshotUrl : Option String
  attributionSnapshot : Option String
  parserName : Option String
  parserVersion : Option String
  deriving DecidableEq, Repr

/-- A row of `legacy_source_links`; a licence is `reviewed` or not. -/
structure LegacySourceLink where
  identity : String
  licenseStatus : String
  deriving DecidableEq, Repr

/-! ## Revisions -/

structure SourceSnapshot where
  displayName : String
  originalUrl : Option String
  repositoryUrl : Option String
  licenseName : String
  licenseSpdx : String
  licenseUrl : String
  sourceRevision : String
  sourceTag : Option String
  sourceFilePath : Option String
  sourceEntryName : Option String
  modificationsNotice : String
  importedAt : Time
  attribution : String
  parserName : String
  parserVersion : String
  deriving DecidableEq, Repr

/-- `_media_snapshot_dict`. -/
structure MediaSnapshot where
  assetId : UUID
  kind : Media.MediaKind
  purpose : String
  altText : String
  caption : Option String
  displayOrder : Nat
  isPrimary : Bool
  width : Option Nat
  height : Option Nat
  variants : List MediaVariant
  deriving DecidableEq, Repr

structure ComponentMedia extends MediaSnapshot where
  status : Media.MediaStatus
  deriving DecidableEq, Repr

/-- `content_json`. -/
structure Content extends Columns where
  aliases : List String
  tags : List String
  specifications : List TechnicalSpecification
  compatibility : List CompatibilityItem
  codeExamples : List CodeExample
  sources : List SourceSnapshot
  media : List MediaSnapshot
  deriving DecidableEq, Repr

structure ComponentRevision where
  revision : Nat
  status : ComponentStatus
  previousStatus : Option ComponentStatus
  action : ComponentChangeAction
  content : Content
  actorId : UUID
  createdAt : Time
  deriving DecidableEq, Repr

/-- A row of `published_search_documents`; the search vector is built from the same texts. -/
structure PublishedSearchDocument where
  revision : Nat
  categoryId : UUID
  difficulty : Difficulty
  title : String
  aliasesText : String
  manufacturer : String
  model : String
  summary : String
  tagsText : String
  searchText : String
  publishedAt : Time
  deriving DecidableEq, Repr

/-! ## The database -/

/-- A component with every row that carries its id. -/
structure Card where
  row : Component
  details : Details
  assets : List MediaAsset
  revisions : List ComponentRevision
  document : Option PublishedSearchDocument
  sources : List ComponentSource
  legacy : List LegacySourceLink
  deriving DecidableEq, Repr

def Card.id (card : Card) : UUID := card.row.id

inductive CandidateStatus where
  | open | merged | rejected | superseded
  deriving DecidableEq, Repr

/-- A row of `duplicate_candidates`; the score is in units of `0.0001`. -/
structure DuplicateCandidate where
  id : UUID
  leftComponentId : UUID
  rightComponentId : UUID
  status : CandidateStatus
  score : Nat
  deriving DecidableEq, Repr

structure EditorCreation where
  requestId : UUID
  ownerId : UUID
  componentId : UUID
  deriving DecidableEq, Repr

structure Db where
  categories : List Category
  cards : List Card
  tags : List Tag
  definitions : List PropertyDefinition
  /-- The assets without a component. -/
  uploads : List MediaAsset
  sources : List Source
  candidates : List DuplicateCandidate
  creations : List EditorCreation
  deriving DecidableEq, Repr

/-- The component with an id, and its rows. -/
def Db.card (db : Db) (id : UUID) : Option Card := lookup Card.id db.cards id

/-- Writes the rows of one component. -/
def Db.put (db : Db) (card : Card) : Db := { db with cards := replace Card.id db.cards card }

def Db.category (db : Db) (id : UUID) : Option Category := lookup Category.id db.categories id

/-- Every row of `media_assets`. -/
def Db.assets (db : Db) : List MediaAsset := db.uploads ++ db.cards.flatMap Card.assets

/-- `is_active` of the category with an id. -/
def activeCategory (categories : List Category) (id : UUID) : Option Category :=
  (lookup Category.id categories id).filter Category.isActive

@[simp] theorem Db.put_categories (db : Db) (card : Card) :
    (db.put card).categories = db.categories := rfl

@[simp] theorem Db.put_sources (db : Db) (card : Card) : (db.put card).sources = db.sources := rfl

@[simp] theorem Db.put_uploads (db : Db) (card : Card) : (db.put card).uploads = db.uploads := rfl

@[simp] theorem Db.put_tags (db : Db) (card : Card) : (db.put card).tags = db.tags := rfl

@[simp] theorem Db.put_definitions (db : Db) (card : Card) :
    (db.put card).definitions = db.definitions := rfl

@[simp] theorem Db.put_candidates (db : Db) (card : Card) :
    (db.put card).candidates = db.candidates := rfl

theorem Db.mem_put {db : Db} {new card : Card} (h : card ∈ (db.put new).cards) :
    card = new ∨ card ∈ db.cards :=
  mem_replace h

theorem Db.put_card_self {db : Db} (new : Card) {old : Card} (h : db.card new.id = some old) :
    (db.put new).card new.id = some new :=
  lookup_replace_self h

theorem Db.put_card_ne {db : Db} {new : Card} {id : UUID} (h : new.id ≠ id) :
    (db.put new).card id = db.card id :=
  lookup_replace_ne h

/-- Writing a card adds none. -/
theorem Db.put_card_none {db : Db} {new : Card} {id : UUID} (h : db.card id = none) :
    (db.put new).card id = none := by
  change lookup Card.id (replace Card.id db.cards new) id = none
  change lookup Card.id db.cards id = none at h
  rw [lookup_replace, h]
  split <;> rfl

theorem Db.mem_of_card {db : Db} {id : UUID} {card : Card} (h : db.card id = some card) :
    card ∈ db.cards :=
  mem_of_lookup h

theorem Db.id_of_card {db : Db} {id : UUID} {card : Card} (h : db.card id = some card) :
    card.id = id :=
  key_of_lookup h

/-! ## Reading a card -/

/-- `ORDER BY display_order, id`. -/
def MediaAsset.before (a b : MediaAsset) : Prop :=
  a.displayOrder < b.displayOrder ∨ (a.displayOrder = b.displayOrder ∧ a.id ≤ b.id)

instance : DecidableRel MediaAsset.before := fun _ _ => inferInstanceAs (Decidable (_ ∨ _))

theorem MediaAsset.before_iff (a b : MediaAsset) :
    a.before b ↔ toLex (a.displayOrder, a.id) ≤ toLex (b.displayOrder, b.id) := by
  rw [Prod.Lex.toLex_le_toLex]
  rfl

instance : Std.Total MediaAsset.before where
  total a b := by
    rw [MediaAsset.before_iff, MediaAsset.before_iff]
    exact le_total _ _

instance : IsTrans MediaAsset MediaAsset.before where
  trans a b c := by
    rw [MediaAsset.before_iff, MediaAsset.before_iff, MediaAsset.before_iff]
    exact le_trans

/-- The assets of one kind in their order: `component_assets` of that kind. -/
def assetsOf (kind : Media.MediaKind) (assets : List MediaAsset) : List MediaAsset :=
  (assets.filter (·.kind = kind)).insertionSort MediaAsset.before

/-- The images of a card, in their order. -/
def imagesOf (assets : List MediaAsset) : List MediaAsset := assetsOf .image assets

theorem mem_imagesOf {assets : List MediaAsset} {a : MediaAsset} :
    a ∈ imagesOf assets ↔ a ∈ assets ∧ a.kind = .image := by
  unfold imagesOf assetsOf
  rw [List.mem_insertionSort, List.mem_filter, decide_eq_true_iff]

/-- The variants offered, by width. -/
def MediaAsset.offered (a : MediaAsset) : List MediaVariant :=
  (a.variants.filter fun v => v.name ∈ ["320w", "800w", "1600w"]).insertionSort
    fun v w => v.width ≤ w.width

/-- One entry of `components_media`. -/
def MediaAsset.media (a : MediaAsset) : ComponentMedia :=
  { assetId := a.id
    kind := a.kind
    purpose := a.purpose
    altText := a.altText
    caption := a.caption
    displayOrder := a.displayOrder
    isPrimary := a.isPrimary
    width := a.width
    height := a.height
    variants := a.offered
    status := a.status }

/-- `component_media`. -/
def componentMedia (assets : List MediaAsset) : List ComponentMedia :=
  (imagesOf assets).map MediaAsset.media

/-- The specification that a property reads back as. -/
def readSpecification (definitions : List PropertyDefinition) (position : Nat)
    (property : ComponentProperty) : Option TechnicalSpecification :=
  (lookup PropertyDefinition.key definitions property.definition).map fun definition =>
    { key := definition.key
      label := definition.label
      valueText := property.valueText
      valueNumber := property.valueNumber.map Decimal.toString
      unit :=
        if property.valueNumber.isSome ∨ definition.valueType = .text then definition.unit else none
      position := position }

/-- `_data`. -/
def readData (u : Unicode) (db : Db) (card : Card) : DraftData :=
  let row := card.row
  { slug := row.slug
    title := row.title
    aliases := card.details.aliases
    manufacturer := row.manufacturer
    model := row.model
    primaryCategoryId := row.primaryCategoryId
    tags := (card.details.tags.filterMap fun name =>
      (lookup Tag.normalizedName db.tags name).map Tag.name).insertionSort fun a b => u.le a b
    summary := row.summary
    description := row.description
    purpose := row.purpose
    usageNotes := row.usageNotes
    safetyNotes := row.safetyNotes
    difficulty := row.difficulty
    teacherNotes := row.teacherNotes
    manualOriginal := row.manualOriginal
    specifications := (card.details.properties.zipIdx.filterMap fun p =>
      readSpecification db.definitions p.2 p.1)
    compatibility := card.details.compatibility
    codeExamples := card.details.codeExamples }

/-- `ORDER BY imported_at, id`, with `NULL` last. -/
def ComponentSource.before (a b : ComponentSource) : Prop :=
  match a.importedAt, b.importedAt with
  | some s, some t => s < t ∨ (s = t ∧ a.id ≤ b.id)
  | some _, none => True
  | none, some _ => False
  | none, none => a.id ≤ b.id

instance : DecidableRel ComponentSource.before := fun a b => by
  unfold ComponentSource.before
  split <;> infer_instance

/-- `_component_source_rows`. -/
def componentSourceRows (registry : List Source) (sources : List ComponentSource) :
    List (ComponentSource × Source) :=
  (sources.insertionSort ComponentSource.before).filterMap fun relation =>
    (lookup Source.id registry relation.sourceId).map fun source => (relation, source)

/-- The value of a column that is neither `NULL` nor empty. -/
def filled (s : Option String) : Option String := s.filter (· ≠ "")

/-- The snapshot of a source whose licence data are complete. -/
def sourceSnapshot (relation : ComponentSource) (source : Source) : Option SourceSnapshot := do
  let displayName ← filled (some source.displayName)
  let sourceRevision ← filled relation.sourceRevision
  let licenseName ← filled relation.licenseSnapshotName
  let licenseSpdx ← filled relation.licenseSnapshotSpdx
  let licenseUrl ← filled relation.licenseSnapshotUrl
  let modificationsNotice ← filled relation.modificationsNotice
  let importedAt ← relation.importedAt
  let attribution ← filled relation.attributionSnapshot
  let parserName ← filled relation.parserName
  let parserVersion ← filled relation.parserVersion
  return {
    displayName, originalUrl := relation.originalUrl, repositoryUrl := source.repositoryUrl,
    licenseName, licenseSpdx, licenseUrl, sourceRevision, sourceTag := relation.sourceTag,
    sourceFilePath := relation.sourceFilePath, sourceEntryName := relation.sourceEntryName,
    modificationsNotice, importedAt, attribution, parserName, parserVersion }

/-- `_source_snapshots`. -/
def sourceSnapshots (registry : List Source) (sources : List ComponentSource) :
    List SourceSnapshot :=
  (componentSourceRows registry sources).filterMap fun r => sourceSnapshot r.1 r.2

structure CategoryItem where
  id : UUID
  slug : String
  name : String
  deriving DecidableEq, Repr

structure CatalogCard where
  id : UUID
  status : ComponentStatus
  data : DraftData
  category : CategoryItem
  revision : Nat
  updatedAt : Time
  publishedAt : Option Time
  sources : List SourceSnapshot
  media : List ComponentMedia
  archivedFromStatus : Option ComponentStatus
  editToken : Nat
  hasLegacyProvenance : Bool
  deriving DecidableEq, Repr

def Category.item (category : Category) : CategoryItem := ⟨category.id, category.key, category.name⟩

/-- `_card`. -/
def readCard (u : Unicode) (db : Db) (card : Card) : Except CatalogError CatalogCard := do
  let category ← fromSome (db.category card.row.primaryCategoryId) (invalid "catalog_conflict")
  return {
    id := card.id
    status := card.row.status
    data := readData u db card
    category := category.item
    revision := card.row.revision
    updatedAt := card.row.updatedAt
    publishedAt := card.row.publishedAt
    sources := sourceSnapshots db.sources card.sources
    media := componentMedia card.assets
    archivedFromStatus := card.row.archivedFromStatus
    editToken := if card.row.editToken = 0 then card.row.revision else card.row.editToken
    hasLegacyProvenance := ¬ card.legacy.isEmpty }

/-- `get_card`. -/
def getCard (u : Unicode) (db : Db) (componentId : UUID) : Except CatalogError CatalogCard := do
  let card ← fromSome (db.card componentId) .componentNotFound
  readCard u db card

/-! ## The public view -/

/-- `component.status NOT IN ('hidden', 'archived')`. -/
def ComponentStatus.visible : ComponentStatus → Bool
  | .hidden | .archived => false
  | _ => true

/-- The latest published revision: `ORDER BY revision DESC LIMIT 1`. -/
def latestPublished (revisions : List ComponentRevision) : Option ComponentRevision :=
  (revisions.filter (·.status = .published)).foldl
    (fun latest r =>
      match latest with
      | none => some r
      | some l => if l.revision < r.revision then some r else some l) none

/-- The data of a published card: teacher-only material is left out. -/
def publishedData (content : Content) : DraftData :=
  { slug := content.slug
    title := content.title
    aliases := content.aliases
    manufacturer := filled content.manufacturer
    model := filled content.model
    primaryCategoryId := content.primaryCategoryId
    tags := content.tags
    summary := content.summary
    description := content.description
    purpose := filled content.purpose
    usageNotes := filled content.usageNotes
    safetyNotes := filled content.safetyNotes
    difficulty := content.difficulty
    teacherNotes := none
    manualOriginal := content.manualOriginal
    specifications := content.specifications.map fun item => { item with unit := filled item.unit }
    compatibility := content.compatibility.map fun item =>
      { item with versionConstraint := filled item.versionConstraint, notes := filled item.notes }
    codeExamples := (content.codeExamples.filter (·.visibility = .student)).map fun item =>
      { item with explanation := filled item.explanation } }

/-- The variants of a snapshot that still exist as they were. -/
def verifiedVariants (asset : MediaAsset) (variants : List MediaVariant) : List MediaVariant :=
  variants.filter fun variant => lookup MediaVariant.name asset.variants variant.name = some variant

/-- `_published_media`: the images of a snapshot that are still ready. -/
def publishedMedia (assets : List MediaAsset) (records : List MediaSnapshot) :
    List ComponentMedia :=
  (records.filterMap fun item =>
    match lookup MediaAsset.id (assets.filter (·.status = .ready)) item.assetId with
    | none => none
    | some asset =>
      let verified := verifiedVariants asset item.variants
      if verified.isEmpty then none
      else some { item with
        caption := filled item.caption
        variants := verified
        status := .ready }).insertionSort
    fun a b => a.displayOrder < b.displayOrder ∨ (a.displayOrder = b.displayOrder ∧
      a.assetId ≤ b.assetId)

def publishedSource (s : SourceSnapshot) : SourceSnapshot :=
  { s with
    originalUrl := filled s.originalUrl
    repositoryUrl := filled s.repositoryUrl
    sourceTag := filled s.sourceTag
    sourceFilePath := filled s.sourceFilePath
    sourceEntryName := filled s.sourceEntryName }

/-- `_published_card`. -/
def publishedCard (db : Db) (card : Card) : Option CatalogCard := do
  let snapshot ← latestPublished card.revisions
  let category ← activeCategory db.categories snapshot.content.primaryCategoryId
  return {
    id := card.id
    status := .published
    data := publishedData snapshot.content
    category := category.item
    revision := snapshot.revision
    updatedAt := snapshot.createdAt
    publishedAt := some snapshot.createdAt
    sources := snapshot.content.sources.map publishedSource
    media := publishedMedia db.assets snapshot.content.media
    archivedFromStatus := none
    editToken := 1
    hasLegacyProvenance := false }

/-- `get_published`. -/
def getPublished (db : Db) (slug : String) : Except CatalogError CatalogCard := do
  let card ← fromSome (db.cards.find? fun card => card.row.slug = slug ∧ card.row.status.visible)
    .componentNotFound
  fromSome (publishedCard db card) .componentNotFound

/-- The conditions of `list_published` without a query. -/
def listed (categories : List Category) (categoryId : Option UUID) (difficulty : Option Difficulty)
    (card : Card) : Option PublishedSearchDocument :=
  card.document.filter fun document =>
    card.row.status.visible && (activeCategory categories document.categoryId).isSome &&
      categoryId.all (· = document.categoryId) && difficulty.all (· = document.difficulty)

/-- `ORDER BY published_at DESC, id`. -/
def newestFirst (a b : UUID × Time) : Prop := b.2 < a.2 ∨ (a.2 = b.2 ∧ a.1 ≤ b.1)

instance : DecidableRel newestFirst := fun _ _ => inferInstanceAs (Decidable (_ ∨ _))

/-- The ids that `list_published` without a query selects, newest first, before the limit. -/
def publishedIds (db : Db) (categoryId : Option UUID) (difficulty : Option Difficulty) :
    List UUID :=
  ((db.cards.filterMap fun card =>
    (listed db.categories categoryId difficulty card).map fun document =>
      (card.id, document.publishedAt)).insertionSort newestFirst).map Prod.fst

/-- `list_published` without a query: the page and the total. -/
def listPublished (db : Db) (categoryId : Option UUID) (difficulty : Option Difficulty)
    (limit : Nat) : List CatalogCard × Nat :=
  let ids := publishedIds db categoryId difficulty
  ((ids.take limit).filterMap fun id => (db.card id).bind (publishedCard db), ids.length)

end ComponentKb.Catalog
