import ComponentKb.Catalog.World
import ComponentKb.Lib.Records
import ComponentKb.Lib.Timestamp

/-!
# Snapshots as they are stored

`content_json` is a JSON document. `_snapshot` writes it field by field, and
`_published_card_from_snapshot` reads it back field by field, with `str`, `int`, `UUID`,
`fromisoformat` and the enumerations; here the document stands between the two, where the other
modules have the record `Content` that both agree on.

* `publishedCardFrom_eq`: what is read from the document of a content is `publishedCard`.
* **`snapshot_roundtrip`**: the card read from a snapshot is the student's view of the draft.
-/

namespace ComponentKb.Catalog

open Lib Lib.Records Lib.Notation Lib.Timestamp

/-! ## Values as texts -/

def Difficulty.code : Difficulty → String
  | .beginner => "beginner"
  | .intermediate => "intermediate"
  | .advanced => "advanced"

def CodeExampleVisibility.code : CodeExampleVisibility → String
  | .student => "student"
  | .teacher => "teacher"

/-- The member of an enumeration with a value. -/
def member {α : Type} (members : List α) (code : α → String) (text : String) :
    Except (Fault CatalogError) α :=
  fromSome (members.find? fun m => code m = text) .valueError

theorem isSpace_digit {c : Char} (h : c.isDigit) : isSpace c = false := by
  have hrange : 48 ≤ c.toNat ∧ c.toNat ≤ 57 := by
    simpa [Char.isDigit, Char.le_def, UInt32.le_iff_toNat_le] using h
  unfold isSpace
  simp only [Bool.or_eq_false_iff, Bool.and_eq_false_iff, decide_eq_false_iff_not, beq_eq_false_iff_ne]
  omega

/-- `str` and `int` of the language; `container` is `str` of a list or a dictionary, which no
snapshot has where a text is read. -/
def texts (u : Unicode) (container : Json → String) : Texts where
  int n := String.ofList (intText n)
  container := container
  readInt s := readInt isSpace u.digit s.toList
  readInt_int n := by
    rw [String.toList_ofList]
    exact readInt_intText (by decide) (fun _ => isSpace_digit) u.digit n

/-! ## Writing -/

def listJson (items : List String) : Json := .list (items.map .str)

def recordsJson {α : Type} (fields : α → Record) (items : List α) : Json :=
  .list (items.map fun item => .dict (fields item))

def uuidJson (id : UUID) : Json := .str (String.ofList (uuidText id))

def sizeJson : Option Nat → Json
  | none => .null
  | some n => .int n

def specificationRecord (item : TechnicalSpecification) : Record :=
  [("key", .str item.key), ("label", .str item.label), ("value_text", .str item.valueText),
   ("value_number", .ofOption item.valueNumber), ("unit", .ofOption item.unit),
   ("position", .int item.position)]

def compatibilityRecord (item : CompatibilityItem) : Record :=
  [("target_type", .str item.targetType), ("name", .str item.name),
   ("version_constraint", .ofOption item.versionConstraint), ("notes", .ofOption item.notes),
   ("position", .int item.position)]

def codeExampleRecord (item : CodeExample) : Record :=
  [("title", .str item.title), ("language", .str item.language),
   ("practical_task", .str item.practicalTask), ("hints", listJson item.hints),
   ("body", .str item.body), ("libraries", listJson item.libraries),
   ("explanation", .ofOption item.explanation), ("visibility", .str item.visibility.code),
   ("position", .int item.position)]

/-- `_source_snapshot_dict`. -/
def sourceRecord (item : SourceSnapshot) : Record :=
  [("display_name", .str item.displayName), ("original_url", .ofOption item.originalUrl),
   ("repository_url", .ofOption item.repositoryUrl), ("license_name", .str item.licenseName),
   ("license_spdx", .str item.licenseSpdx), ("license_url", .str item.licenseUrl),
   ("source_revision", .str item.sourceRevision), ("source_tag", .ofOption item.sourceTag),
   ("source_file_path", .ofOption item.sourceFilePath),
   ("source_entry_name", .ofOption item.sourceEntryName),
   ("modifications_notice", .str item.modificationsNotice),
   ("imported_at", .str (String.ofList (isoformat item.importedAt))),
   ("attribution", .str item.attribution), ("parser_name", .str item.parserName),
   ("parser_version", .str item.parserVersion)]

def variantRecord (variant : MediaVariant) : Record :=
  [("name", .str variant.name), ("mime", .str variant.mime), ("width", .int variant.width),
   ("height", .int variant.height), ("sha256", .str variant.sha256)]

/-- `_media_snapshot_dict`. -/
def mediaRecord (item : MediaSnapshot) : Record :=
  [("asset_id", uuidJson item.assetId), ("kind", .str (MediaKind.code item.kind)),
   ("purpose", .str item.purpose), ("alt_text", .str item.altText),
   ("caption", .ofOption item.caption), ("display_order", .int item.displayOrder),
   ("is_primary", .bool item.isPrimary), ("width", sizeJson item.width),
   ("height", sizeJson item.height), ("variants", recordsJson variantRecord item.variants)]

/-- The columns of `_columns` that are no identifiers. -/
def columnsRecord (row : Columns) : Record :=
  [("slug", .str row.slug), ("title", .str row.title), ("manufacturer", .ofOption row.manufacturer),
   ("model", .ofOption row.model), ("summary", .str row.summary),
   ("description", .str row.description), ("purpose", .ofOption row.purpose),
   ("usage_notes", .ofOption row.usageNotes), ("safety_notes", .ofOption row.safetyNotes),
   ("difficulty", .str row.difficulty.code), ("teacher_notes", .ofOption row.teacherNotes),
   ("manual_original", .bool row.manualOriginal),
   ("normalized_manufacturer", .ofOption row.normalizedManufacturer),
   ("normalized_model", .ofOption row.normalizedModel)]

/-- The document that `_snapshot` stores. -/
def contentRecord (content : Content) : Record :=
  columnsRecord content.toColumns ++
    [("primary_category_id", uuidJson content.primaryCategoryId),
     ("aliases", listJson content.aliases), ("tags", listJson content.tags),
     ("specifications", recordsJson specificationRecord content.specifications),
     ("compatibility", recordsJson compatibilityRecord content.compatibility),
     ("code_examples", recordsJson codeExampleRecord content.codeExamples),
     ("sources", recordsJson sourceRecord content.sources),
     ("media", recordsJson mediaRecord content.media)]

/-! ## Reading -/

abbrev Reading := Except (Fault CatalogError)

/-- `_snapshot_strings`. -/
def snapshotStrings : Json → Reading (List String) := strings (invalid "catalog_conflict")

/-- `_snapshot_records`. -/
def snapshotRecords : Json → Reading (List Record) := records (invalid "catalog_conflict")

/-- `record.get(key, [])`. -/
def listAt (record : Record) (key : String) : Json := (get record key).getD (.list [])

section Read

variable (t : Texts)

/-- `UUID(str(record[key]))`. -/
def requiredUuid (record : Record) (key : String) : Reading UUID :=
  requiredText t record key >>= fun text => fromSome (readUuid text.toList) .valueError

/-- `int(str(record[key]))` of a position or a size; none is negative. -/
def requiredNat (record : Record) (key : String) : Reading Nat :=
  (requiredInt t record key).map Int.toNat

/-- `int(str(record[key])) if record.get(key) is not None else None`. -/
def presentNat (record : Record) (key : String) : Reading (Option Nat) :=
  match get record key with
  | none | some .null => .ok none
  | some value => (toInt t value).map fun n => some n.toNat

def readSpecificationRecord (item : Record) : Reading TechnicalSpecification := do
  let key ← requiredText t item "key"
  let label ← requiredText t item "label"
  let valueText ← requiredText t item "value_text"
  let position ← requiredNat t item "position"
  return {
    key, label, valueText
    valueNumber := presentText t item "value_number"
    unit := optionalText t item "unit"
    position }

def readCompatibilityRecord (item : Record) : Reading CompatibilityItem := do
  let targetType ← requiredText t item "target_type"
  let name ← requiredText t item "name"
  let position ← requiredNat t item "position"
  return {
    targetType, name
    versionConstraint := optionalText t item "version_constraint"
    notes := optionalText t item "notes"
    position }

def readCodeExampleRecord (item : Record) : Reading CodeExample := do
  let title ← requiredText t item "title"
  let language ← requiredText t item "language"
  let practicalTask ← requiredText t item "practical_task"
  let hints ← snapshotStrings (listAt item "hints")
  let body ← requiredText t item "body"
  let libraries ← snapshotStrings (listAt item "libraries")
  let visibility ← member [.student, .teacher] CodeExampleVisibility.code
    (← requiredText t item "visibility")
  let position ← requiredNat t item "position"
  return {
    title, language, practicalTask, hints, body, libraries
    explanation := optionalText t item "explanation"
    visibility, position }

/-- `item.get("visibility") == CodeExampleVisibility.STUDENT.value`. -/
def forStudentsRecord (item : Record) : Bool :=
  match get item "visibility" with
  | some (.str text) => text = CodeExampleVisibility.student.code
  | _ => false

/-- `_source_snapshot_from_dict`. -/
def readSourceRecord (item : Record) : Reading SourceSnapshot := do
  let displayName ← requiredText t item "display_name"
  let licenseName ← requiredText t item "license_name"
  let licenseSpdx ← requiredText t item "license_spdx"
  let licenseUrl ← requiredText t item "license_url"
  let sourceRevision ← requiredText t item "source_revision"
  let modificationsNotice ← requiredText t item "modifications_notice"
  let importedAt ← fromSome (fromisoformat (← requiredText t item "imported_at").toList) .valueError
  let attribution ← requiredText t item "attribution"
  let parserName ← requiredText t item "parser_name"
  let parserVersion ← requiredText t item "parser_version"
  return {
    displayName, licenseName, licenseSpdx, licenseUrl, sourceRevision, modificationsNotice
    originalUrl := optionalText t item "original_url"
    repositoryUrl := optionalText t item "repository_url"
    sourceTag := optionalText t item "source_tag"
    sourceFilePath := optionalText t item "source_file_path"
    sourceEntryName := optionalText t item "source_entry_name"
    importedAt, attribution, parserName, parserVersion }

/-- A variant of a snapshot that the asset still has as it was. -/
def verifyVariant (asset : MediaAsset) (item : Record) : Reading (Option MediaVariant) := do
  let name ← requiredText t item "name"
  match lookup MediaVariant.name asset.variants name with
  | none => return none
  | some row =>
    if row.sha256 ≠ (← requiredText t item "sha256") then return none
    if row.mime ≠ (← requiredText t item "mime") then return none
    if row.width ≠ (← requiredNat t item "width") then return none
    if row.height ≠ (← requiredNat t item "height") then return none
    return some { row with name }

/-- One record in the loop of `_published_media_from_rows`. -/
def readMediaRecord (assets : List MediaAsset) (position : Nat) (item : Record) :
    Reading (Option ComponentMedia) := do
  let assetId ← requiredUuid t item "asset_id"
  match lookup MediaAsset.id (assets.filter (·.status = .ready)) assetId with
  | none => return none
  | some asset =>
    let variants ← snapshotRecords (listAt item "variants")
    let verified := (← variants.mapM (verifyVariant t asset)).reduceOption
    if verified.isEmpty then return none
    let kind ← member [.image, .video] MediaKind.code
      (Json.text t ((get item "kind").getD (.str "image")))
    let purpose ← requiredText t item "purpose"
    let altText ← requiredText t item "alt_text"
    let displayOrder ← (toInt t ((get item "display_order").getD (.int position))).map Int.toNat
    let isPrimary ← requiredBool item "is_primary"
    let width ← presentNat t item "width"
    let height ← presentNat t item "height"
    return some {
      assetId, kind, purpose, altText
      caption := optionalText t item "caption"
      displayOrder, isPrimary, width, height
      variants := verified
      status := .ready }

/-- `except (KeyError, TypeError, ValueError)`. -/
def mediaFault : Fault CatalogError → Fault CatalogError
  | .raised error => .raised error
  | _ => .raised (invalid "published_media_snapshot_invalid")

/-- `ORDER BY display_order, asset_id`. -/
def ComponentMedia.before (a b : ComponentMedia) : Prop :=
  a.displayOrder < b.displayOrder ∨ (a.displayOrder = b.displayOrder ∧ a.assetId ≤ b.assetId)

instance : DecidableRel ComponentMedia.before := fun _ _ => inferInstanceAs (Decidable (_ ∨ _))

/-- `_published_media`. -/
def publishedMediaFrom (assets : List MediaAsset) (items : List Record) :
    Reading (List ComponentMedia) := do
  let _ ← (items.mapM fun item => requiredUuid t item "asset_id").mapError mediaFault
  let found ← items.zipIdx.mapM fun (item, position) =>
    (readMediaRecord t assets position item).mapError mediaFault
  return found.reduceOption.insertionSort ComponentMedia.before

/-- The data in `_published_card_from_snapshot`. -/
def readDataRecord (content : Record) (categoryId : UUID) : Reading DraftData := do
  let specifications ← snapshotRecords (listAt content "specifications")
  let compatibility ← snapshotRecords (listAt content "compatibility")
  let codeExamples ← snapshotRecords (listAt content "code_examples")
  let slug ← requiredText t content "slug"
  let title ← requiredText t content "title"
  let aliases ← required content "aliases" >>= snapshotStrings
  let tags ← required content "tags" >>= snapshotStrings
  let summary ← requiredText t content "summary"
  let description ← requiredText t content "description"
  let difficulty ← member [.beginner, .intermediate, .advanced] Difficulty.code
    (← requiredText t content "difficulty")
  let manualOriginal ← requiredBool content "manual_original"
  let specifications ← specifications.mapM (readSpecificationRecord t)
  let compatibility ← compatibility.mapM (readCompatibilityRecord t)
  let codeExamples ← (codeExamples.filter forStudentsRecord).mapM (readCodeExampleRecord t)
  return {
    slug, title, aliases
    manufacturer := optionalText t content "manufacturer"
    model := optionalText t content "model"
    primaryCategoryId := categoryId
    tags, summary, description
    purpose := optionalText t content "purpose"
    usageNotes := optionalText t content "usage_notes"
    safetyNotes := optionalText t content "safety_notes"
    difficulty
    teacherNotes := none
    manualOriginal, specifications, compatibility, codeExamples }

/-- `_published_card`, of the latest published revision. -/
def publishedCardFrom (db : Db) (componentId : UUID) (revision : Nat) (createdAt : Time)
    (content : Record) : Reading (Option CatalogCard) := do
  let categoryId ← requiredUuid t content "primary_category_id"
  match activeCategory db.categories categoryId with
  | none => return none
  | some category =>
    let mediaRecords ← snapshotRecords (listAt content "media")
    let media ← publishedMediaFrom t db.assets mediaRecords
    let sources ← snapshotRecords (listAt content "sources")
    let data ← readDataRecord t content categoryId
    let sources ← sources.mapM (readSourceRecord t)
    return some {
      id := componentId
      status := .published
      data, category := category.item
      revision, updatedAt := createdAt, publishedAt := some createdAt
      sources, media
      archivedFromStatus := none
      editToken := 1
      hasLegacyProvenance := false }

end Read

/-! ## Each record is read back -/

section Back

variable (t : Texts)

theorem member_code {α : Type} {members : List α} {code : α → String}
    (hcode : ∀ m ∈ members, members.find? (fun m' => code m' = code m) = some m) {m : α}
    (hm : m ∈ members) : member members code (code m) = .ok m := by
  rw [member, hcode m hm]
  rfl

theorem member_difficulty (d : Difficulty) :
    member [.beginner, .intermediate, .advanced] Difficulty.code d.code = .ok d :=
  member_code (by decide) (by cases d <;> decide)

theorem member_visibility (v : CodeExampleVisibility) :
    member [.student, .teacher] CodeExampleVisibility.code v.code = .ok v :=
  member_code (by decide) (by cases v <;> decide)

theorem member_kind (kind : Media.MediaKind) :
    member [.image, .video] MediaKind.code (MediaKind.code kind) = .ok kind :=
  member_code (by decide) (by cases kind <;> decide)

variable {t} {record : Record} {key : String}

theorem requiredUuid_of_get {id : UUID} (hid : id < 2 ^ 128)
    (h : get record key = some (uuidJson id)) : requiredUuid t record key = .ok id := by
  rw [requiredUuid, requiredText_str t h, ok_bind, String.toList_ofList, readUuid_uuidText hid]
  rfl

theorem requiredNat_of_get {n : Nat} (h : get record key = some (.int n)) :
    requiredNat t record key = .ok n := by
  rw [requiredNat, requiredInt_int t h]
  rfl

theorem presentNat_of_get {n : Option Nat} (h : get record key = some (sizeJson n)) :
    presentNat t record key = .ok n := by
  unfold presentNat
  rw [h]
  cases n with
  | none => rfl
  | some n =>
    change (toInt t (.int n)).map _ = _
    rw [toInt_int]
    rfl

theorem snapshotStrings_list (items : List String) :
    snapshotStrings (listJson items) = .ok items := strings_list _ items

theorem snapshotRecords_records {α : Type} (fields : α → Record) (items : List α) :
    snapshotRecords (recordsJson fields items) = .ok (items.map fields) :=
  records_list _ fields items

variable (t)

theorem readSpecificationRecord_eq (item : TechnicalSpecification) :
    readSpecificationRecord t (specificationRecord item) =
      .ok { item with unit := filled item.unit } := by
  unfold readSpecificationRecord
  rw [requiredText_str t (s := item.key) rfl, requiredText_str t (s := item.label) rfl,
    requiredText_str t (s := item.valueText) rfl, presentText_ofOption t (s := item.valueNumber) rfl,
    optionalText_ofOption t (s := item.unit) rfl, requiredNat_of_get (n := item.position) rfl]
  rfl

theorem readCompatibilityRecord_eq (item : CompatibilityItem) :
    readCompatibilityRecord t (compatibilityRecord item) =
      .ok { item with versionConstraint := filled item.versionConstraint
                      notes := filled item.notes } := by
  unfold readCompatibilityRecord
  rw [requiredText_str t (s := item.targetType) rfl, requiredText_str t (s := item.name) rfl,
    optionalText_ofOption t (s := item.versionConstraint) rfl,
    optionalText_ofOption t (s := item.notes) rfl, requiredNat_of_get (n := item.position) rfl]
  rfl

theorem readCodeExampleRecord_eq (item : CodeExample) :
    readCodeExampleRecord t (codeExampleRecord item) =
      .ok { item with explanation := filled item.explanation } := by
  unfold readCodeExampleRecord
  rw [requiredText_str t (s := item.title) rfl, requiredText_str t (s := item.language) rfl,
    requiredText_str t (s := item.practicalTask) rfl,
    show listAt (codeExampleRecord item) "hints" = listJson item.hints from rfl,
    show listAt (codeExampleRecord item) "libraries" = listJson item.libraries from rfl,
    snapshotStrings_list, snapshotStrings_list, requiredText_str t (s := item.body) rfl,
    requiredText_str t (s := item.visibility.code) rfl,
    optionalText_ofOption t (s := item.explanation) rfl, requiredNat_of_get (n := item.position) rfl]
  simp only [ok_bind, member_visibility]
  rfl

theorem forStudentsRecord_eq (item : CodeExample) :
    forStudentsRecord (codeExampleRecord item) = decide (item.visibility = .student) := by
  change decide (item.visibility.code = CodeExampleVisibility.student.code) = _
  cases item.visibility <;> rfl

theorem readSourceRecord_eq {item : SourceSnapshot} (h : Representable item.importedAt) :
    readSourceRecord t (sourceRecord item) = .ok (publishedSource item) := by
  unfold readSourceRecord
  rw [requiredText_str t (s := item.displayName) rfl, requiredText_str t (s := item.licenseName) rfl,
    requiredText_str t (s := item.licenseSpdx) rfl, requiredText_str t (s := item.licenseUrl) rfl,
    requiredText_str t (s := item.sourceRevision) rfl,
    requiredText_str t (s := item.modificationsNotice) rfl,
    requiredText_str t (s := String.ofList (isoformat item.importedAt)) rfl,
    requiredText_str t (s := item.attribution) rfl, requiredText_str t (s := item.parserName) rfl,
    requiredText_str t (s := item.parserVersion) rfl,
    optionalText_ofOption t (s := item.originalUrl) rfl,
    optionalText_ofOption t (s := item.repositoryUrl) rfl,
    optionalText_ofOption t (s := item.sourceTag) rfl,
    optionalText_ofOption t (s := item.sourceFilePath) rfl,
    optionalText_ofOption t (s := item.sourceEntryName) rfl]
  simp only [ok_bind, String.toList_ofList, fromisoformat_isoformat h]
  rfl

theorem verifyVariant_eq (asset : MediaAsset) (variant : MediaVariant) :
    verifyVariant t asset (variantRecord variant) =
      .ok (if lookup MediaVariant.name asset.variants variant.name = some variant then some variant
        else none) := by
  unfold verifyVariant
  rw [requiredText_str t (s := variant.name) rfl, requiredText_str t (s := variant.sha256) rfl,
    requiredText_str t (s := variant.mime) rfl, requiredNat_of_get (n := variant.width) rfl,
    requiredNat_of_get (n := variant.height) rfl]
  simp only [ok_bind]
  cases hfound : lookup MediaVariant.name asset.variants variant.name with
  | none => rfl
  | some row =>
    have hname : row.name = variant.name := key_of_lookup hfound
    by_cases hsame : row = variant
    · rw [hsame]
      simp
      rfl
    · rw [if_neg fun h => hsame (Option.some.inj h)]
      -- the names agree, so another field differs
      have hdiffers : row.sha256 = variant.sha256 → row.mime = variant.mime →
          row.width = variant.width → row.height ≠ variant.height := by
        intro hsha hmime hwidth hheight
        cases row
        cases variant
        simp_all
      by_cases hsha : row.sha256 = variant.sha256
      · by_cases hmime : row.mime = variant.mime
        · by_cases hwidth : row.width = variant.width
          · have hheight := hdiffers hsha hmime hwidth
            simp [hsha, hmime, hwidth, hheight]
            rfl
          · simp [hsha, hmime, hwidth]
            rfl
        · simp [hsha, hmime]
          rfl
      · simp [hsha]
        rfl

/-- The entry that a record of a snapshot becomes. -/
def shownMedia (assets : List MediaAsset) (item : MediaSnapshot) : Option ComponentMedia :=
  match lookup MediaAsset.id (assets.filter (·.status = .ready)) item.assetId with
  | none => none
  | some asset =>
    let verified := verifiedVariants asset item.variants
    if verified.isEmpty then none
    else some { item with
      caption := filled item.caption
      variants := verified
      status := .ready }

theorem publishedMedia_eq (assets : List MediaAsset) (items : List MediaSnapshot) :
    publishedMedia assets items =
      (items.filterMap (shownMedia assets)).insertionSort ComponentMedia.before := rfl

theorem reduceOption_map {α β : Type} (f : α → Option β) (xs : List α) :
    (xs.map f).reduceOption = xs.filterMap f := by
  rw [List.reduceOption, List.filterMap_map]
  rfl

theorem readMediaRecord_eq (assets : List MediaAsset) (position : Nat) {item : MediaSnapshot}
    (hid : item.assetId < 2 ^ 128) :
    readMediaRecord t assets position (mediaRecord item) = .ok (shownMedia assets item) := by
  unfold readMediaRecord shownMedia
  rw [requiredUuid_of_get hid rfl, requiredText_str t (s := item.purpose) rfl,
    requiredText_str t (s := item.altText) rfl, requiredBool_bool (b := item.isPrimary) rfl,
    presentNat_of_get (n := item.width) rfl, presentNat_of_get (n := item.height) rfl,
    optionalText_ofOption t (s := item.caption) rfl,
    show listAt (mediaRecord item) "variants" = recordsJson variantRecord item.variants from rfl,
    show Json.text t ((get (mediaRecord item) "kind").getD (.str "image")) =
      MediaKind.code item.kind from rfl,
    show (get (mediaRecord item) "display_order").getD (.int position) =
      .int item.displayOrder from rfl,
    snapshotRecords_records, member_kind, toInt_int]
  simp only [ok_bind]
  cases lookup MediaAsset.id (assets.filter (·.status = .ready)) item.assetId with
  | none => rfl
  | some asset =>
    have hverified : ((item.variants.map fun variant =>
        if lookup MediaVariant.name asset.variants variant.name = some variant then some variant
        else none)).reduceOption = verifiedVariants asset item.variants := by
      rw [reduceOption_map, verifiedVariants, ← List.filterMap_eq_filter]
      refine List.filterMap_congr fun variant _ => ?_
      simp [Option.guard]
    simp only [mapM_map_ok fun variant _ => verifyVariant_eq t asset variant, ok_bind, hverified]
    by_cases hempty : (verifiedVariants asset item.variants).isEmpty
    · simp only [hempty, if_true]
      rfl
    · simp only [hempty]
      rfl

theorem publishedMediaFrom_eq (assets : List MediaAsset) {items : List MediaSnapshot}
    (hids : ∀ item ∈ items, item.assetId < 2 ^ 128) :
    publishedMediaFrom t assets (items.map mediaRecord) = .ok (publishedMedia assets items) := by
  have hasked : (items.map mediaRecord).mapM (fun item => requiredUuid t item "asset_id") =
      .ok (items.map MediaSnapshot.assetId) :=
    mapM_map_ok fun item hitem => requiredUuid_of_get (hids item hitem) rfl
  have hread : ∀ p ∈ items.zipIdx,
      (readMediaRecord t assets p.2 (mediaRecord p.1)).mapError mediaFault =
        .ok (shownMedia assets p.1) := by
    intro p hp
    rw [readMediaRecord_eq t assets p.2 (hids p.1 (List.fst_mem_of_mem_zipIdx hp))]
    rfl
  have hshown : (items.map mediaRecord).zipIdx.mapM (fun p =>
      (readMediaRecord t assets p.2 p.1).mapError mediaFault) =
        .ok (items.map (shownMedia assets)) := by
    have hzip : (items.map mediaRecord).zipIdx =
        items.zipIdx.map fun p => (mediaRecord p.1, p.2) := List.zipIdx_map
    have hfst : (items.zipIdx.map fun p => shownMedia assets p.1) =
        items.map (shownMedia assets) := by
      have hmap : (items.zipIdx.map Prod.fst).map (shownMedia assets) =
          items.map (shownMedia assets) := by rw [List.zipIdx_map_fst]
      rw [List.map_map] at hmap
      exact hmap
    rw [hzip, ← hfst]
    exact mapM_map_ok hread
  unfold publishedMediaFrom
  rw [hasked, hshown, publishedMedia_eq, ← reduceOption_map]
  rfl

theorem readDataRecord_eq (content : Content) :
    readDataRecord t (contentRecord content) content.primaryCategoryId =
      .ok (publishedData content) := by
  have hspecifications : (content.specifications.map specificationRecord).mapM
      (readSpecificationRecord t) = .ok (publishedData content).specifications :=
    mapM_map_ok fun item _ => readSpecificationRecord_eq t item
  have hcompatibility : (content.compatibility.map compatibilityRecord).mapM
      (readCompatibilityRecord t) = .ok (publishedData content).compatibility :=
    mapM_map_ok fun item _ => readCompatibilityRecord_eq t item
  have hshown : (content.codeExamples.map codeExampleRecord).filter forStudentsRecord =
      (content.codeExamples.filter (·.visibility = .student)).map codeExampleRecord := by
    rw [List.filter_map]
    exact congrArg _ (List.filter_congr fun item _ => forStudentsRecord_eq item)
  have hexamples : ((content.codeExamples.filter (·.visibility = .student)).map
      codeExampleRecord).mapM (readCodeExampleRecord t) = .ok (publishedData content).codeExamples :=
    mapM_map_ok fun item _ => readCodeExampleRecord_eq t item
  unfold readDataRecord
  rw [show listAt (contentRecord content) "specifications" =
      recordsJson specificationRecord content.specifications from rfl,
    show listAt (contentRecord content) "compatibility" =
      recordsJson compatibilityRecord content.compatibility from rfl,
    show listAt (contentRecord content) "code_examples" =
      recordsJson codeExampleRecord content.codeExamples from rfl,
    snapshotRecords_records, snapshotRecords_records, snapshotRecords_records,
    requiredText_str t (s := content.slug) rfl, requiredText_str t (s := content.title) rfl,
    required_of_get (v := listJson content.aliases) rfl,
    required_of_get (v := listJson content.tags) rfl,
    requiredText_str t (s := content.summary) rfl,
    requiredText_str t (s := content.description) rfl,
    requiredText_str t (s := content.difficulty.code) rfl,
    requiredBool_bool (b := content.manualOriginal) rfl,
    optionalText_ofOption t (s := content.manufacturer) rfl,
    optionalText_ofOption t (s := content.model) rfl,
    optionalText_ofOption t (s := content.purpose) rfl,
    optionalText_ofOption t (s := content.usageNotes) rfl,
    optionalText_ofOption t (s := content.safetyNotes) rfl]
  simp only [ok_bind, snapshotStrings_list, member_difficulty, hspecifications, hcompatibility,
    hshown, hexamples]
  rfl

/-- What `content_json` holds: identifiers of 128 bits and times in the range of `datetime`. -/
structure Content.Storable (content : Content) : Prop where
  category : content.primaryCategoryId < 2 ^ 128
  media : ∀ item ∈ content.media, item.assetId < 2 ^ 128
  sources : ∀ item ∈ content.sources, Representable item.importedAt

instance (content : Content) : Decidable content.Storable :=
  decidable_of_iff
    (content.primaryCategoryId < 2 ^ 128 ∧ (∀ item ∈ content.media, item.assetId < 2 ^ 128) ∧
      ∀ item ∈ content.sources, Representable item.importedAt)
    ⟨fun ⟨category, media, sources⟩ => ⟨category, media, sources⟩,
      fun ⟨category, media, sources⟩ => ⟨category, media, sources⟩⟩

/-- **What is read from the document of a content is the published card.** -/
theorem publishedCardFrom_eq (db : Db) (componentId : UUID) (revision : Nat) (createdAt : Time)
    {content : Content} (h : content.Storable) :
    publishedCardFrom t db componentId revision createdAt (contentRecord content) =
      .ok ((activeCategory db.categories content.primaryCategoryId).map fun category =>
        { id := componentId
          status := .published
          data := publishedData content
          category := category.item
          revision := revision
          updatedAt := createdAt
          publishedAt := some createdAt
          sources := content.sources.map publishedSource
          media := publishedMedia db.assets content.media
          archivedFromStatus := none
          editToken := 1
          hasLegacyProvenance := false }) := by
  have hsources : (content.sources.map sourceRecord).mapM (readSourceRecord t) =
      .ok (content.sources.map publishedSource) :=
    mapM_map_ok fun item hitem => readSourceRecord_eq t (h.sources item hitem)
  unfold publishedCardFrom
  rw [requiredUuid_of_get h.category rfl,
    show listAt (contentRecord content) "media" = recordsJson mediaRecord content.media from rfl,
    show listAt (contentRecord content) "sources" = recordsJson sourceRecord content.sources from rfl,
    snapshotRecords_records, snapshotRecords_records, ok_bind]
  cases activeCategory db.categories content.primaryCategoryId with
  | none => rfl
  | some category =>
    simp only [ok_bind, publishedMediaFrom_eq t db.assets h.media, readDataRecord_eq, hsources]
    rfl

/-- **The card that the other modules read from the record is the one read from the document.** -/
theorem publishedCardFrom_latest (db : Db) {card : Card} {r : ComponentRevision}
    (hlatest : latestPublished card.revisions = some r) (h : r.content.Storable) :
    publishedCardFrom t db card.id r.revision r.createdAt (contentRecord r.content) =
      .ok (publishedCard db card) := by
  rw [publishedCardFrom_eq t db card.id r.revision r.createdAt h, publishedCard, hlatest]
  change _ = Except.ok (activeCategory db.categories r.content.primaryCategoryId >>= _)
  cases activeCategory db.categories r.content.primaryCategoryId <;> rfl

end Back

/-! ## The student's view -/

/-- What a student sees of a draft: no notes for teachers and no examples for teachers, and an empty
text is no text. -/
def studentView (data : DraftData) : DraftData :=
  { data with
    manufacturer := filled data.manufacturer
    model := filled data.model
    purpose := filled data.purpose
    usageNotes := filled data.usageNotes
    safetyNotes := filled data.safetyNotes
    teacherNotes := none
    specifications := data.specifications.map fun item =>
      { item with valueNumber := filled item.valueNumber, unit := filled item.unit }
    compatibility := data.compatibility.map fun item =>
      { item with versionConstraint := filled item.versionConstraint, notes := filled item.notes }
    codeExamples := (data.codeExamples.filter (·.visibility = .student)).map fun item =>
      { item with explanation := filled item.explanation } }

/-- An image as a student sees it: it was ready when the snapshot was made, it still is, and only
the variants that still are as they were are offered. -/
def studentMedia (assets : List MediaAsset) (media : ComponentMedia) : Option ComponentMedia :=
  if media.status = .ready then shownMedia assets media.toMediaSnapshot else none

/-- A number that is stored is not the empty text. -/
theorem validateSpecifications_filled {u : Unicode} {position : Nat} {seen : List String}
    {items : List TechnicalSpecification} {r : Unit}
    (h : validateSpecifications u position seen items = .ok r) :
    ∀ item ∈ items, filled item.valueNumber = item.valueNumber := by
  induction items generalizing position seen with
  | nil => simp
  | cons item items ih =>
    obtain ⟨-, h⟩ := seq_eq_ok.mp h
    cases htext : item.valueNumber with
    | none =>
      rw [htext] at h
      exact List.forall_mem_cons.mpr ⟨by rw [htext]; rfl, ih (seq_eq_ok.mp h).2⟩
    | some text =>
      rw [htext] at h
      obtain ⟨number, hread, h⟩ := bind_eq_ok.mp h
      have hne : text ≠ "" := by
        rintro rfl
        cases fromSome_eq_ok.mp hread
      refine List.forall_mem_cons.mpr ⟨?_, ih (seq_eq_ok.mp h).2⟩
      rw [htext, filled, Option.filter_some, if_pos (decide_eq_true hne)]

theorem validate_filled {u : Unicode} {categories : List Category} {data : DraftData} {r : Unit}
    (h : validate u categories data = .ok r) :
    ∀ item ∈ data.specifications, filled item.valueNumber = item.valueNumber := by
  obtain ⟨-, h⟩ := seq_eq_ok.mp h
  obtain ⟨-, h⟩ := seq_eq_ok.mp h
  obtain ⟨-, h⟩ := seq_eq_ok.mp h
  obtain ⟨-, h⟩ := seq_eq_ok.mp h
  obtain ⟨-, h⟩ := seq_eq_ok.mp h
  obtain ⟨hspecifications, -⟩ := seq_eq_ok.mp h
  exact validateSpecifications_filled hspecifications

theorem shownMedia_order {assets : List MediaAsset} {item : MediaSnapshot} {media : ComponentMedia}
    (h : shownMedia assets item = some media) :
    media.displayOrder = item.displayOrder ∧ media.assetId = item.assetId := by
  unfold shownMedia at h
  split at h
  · cases h
  · simp only at h
    split at h
    · cases h
    · cases h
      exact ⟨rfl, rfl⟩

theorem componentMedia_sorted (assets : List MediaAsset) :
    (componentMedia assets).Pairwise ComponentMedia.before := by
  have hsorted : (imagesOf assets).Pairwise MediaAsset.before := List.pairwise_insertionSort _ _
  rw [componentMedia, List.pairwise_map]
  exact hsorted

/-- The media of a snapshot are read in the order in which the images are. -/
theorem publishedMedia_snapshot (assets : List MediaAsset) {media : List ComponentMedia}
    (hsorted : media.Pairwise ComponentMedia.before) :
    publishedMedia assets ((media.filter (·.status = .ready)).map ComponentMedia.toMediaSnapshot) =
      media.filterMap (studentMedia assets) := by
  have hview : (((media.filter (·.status = .ready)).map ComponentMedia.toMediaSnapshot).filterMap
      (shownMedia assets)) = media.filterMap (studentMedia assets) := by
    rw [List.filterMap_map, List.filterMap_filter]
    refine List.filterMap_congr fun m _ => ?_
    simp [studentMedia]
  rw [publishedMedia_eq, hview]
  refine List.Pairwise.insertionSort_eq (List.pairwise_filterMap.mpr (hsorted.imp ?_))
  intro a b hab a' ha' b' hb'
  have hshown : ∀ {m m' : ComponentMedia}, studentMedia assets m = some m' →
      m'.displayOrder = m.displayOrder ∧ m'.assetId = m.assetId := by
    intro m m' hm
    unfold studentMedia at hm
    split at hm
    · exact shownMedia_order hm
    · cases hm
  obtain ⟨horder, hid⟩ := hshown ha'
  obtain ⟨horder', hid'⟩ := hshown hb'
  unfold ComponentMedia.before
  rw [horder, hid, horder', hid']
  exact hab

/-- **The card read from a snapshot is the student's view of the draft**, of its sources and of its
images, in the same order. -/
theorem snapshot_roundtrip (u : Unicode) (container : Json → String) {categories : List Category}
    {data : DraftData} (hvalid : validate u categories data = .ok ()) (registry : List Source)
    (relations : List ComponentSource) (assets : List MediaAsset) (row : Component) (actor : UUID)
    (now : Time) (action : ComponentChangeAction) (previousStatus : Option ComponentStatus)
    {stored : ComponentRevision}
    (hsnapshot : snapshot u registry relations (componentMedia assets) row data actor now action
      previousStatus = stored)
    (hstorable : stored.content.Storable) (db : Db) (componentId : UUID) :
    publishedCardFrom (texts u container) db componentId stored.revision stored.createdAt
        (contentRecord stored.content) =
      .ok ((activeCategory db.categories data.primaryCategoryId).map fun category =>
        { id := componentId
          status := .published
          data := studentView data
          category := category.item
          revision := row.revision
          updatedAt := now
          publishedAt := some now
          sources := (sourceSnapshots registry relations).map publishedSource
          media := (componentMedia assets).filterMap (studentMedia db.assets)
          archivedFromStatus := none
          editToken := 1
          hasLegacyProvenance := false }) := by
  have hnumbers := validate_filled hvalid
  have hdata : publishedData stored.content = studentView data := by
    subst hsnapshot
    have hspecifications : data.specifications.map (fun item =>
        { item with valueNumber := filled item.valueNumber, unit := filled item.unit }) =
        data.specifications.map fun item => { item with unit := filled item.unit } :=
      List.map_congr_left fun item hitem => by rw [hnumbers item hitem]
    unfold studentView
    rw [hspecifications]
    rfl
  rw [publishedCardFrom_eq (texts u container) db componentId stored.revision stored.createdAt
    hstorable, hdata]
  subst hsnapshot
  rw [← publishedMedia_snapshot db.assets (componentMedia_sorted assets)]
  rfl

/-- A draft with empty texts and with notes and an example for teachers. -/
def guidedDraft : DraftData :=
  let blink : CodeExample :=
    { title := "Blink", language := "cpp", practicalTask := "Blink.", hints := ["Use delay."]
      body := "void loop() {}", libraries := [], explanation := some "", visibility := .student
      position := 0 }
  { sensorDraft "sensor" true with
    manufacturer := some ""
    teacherNotes := some "Check the wiring."
    specifications := [⟨"voltage", "Voltage", "5 V", some "5", some "", 0⟩]
    codeExamples := [blink, { blink with visibility := .teacher, position := 1 }] }

theorem guided_roundtrip :
    let data := guidedDraft
    let image := { readyImage 20 7 with variants := [⟨"320w", "image/webp", 320, 240, "a1"⟩] }
    let row := newRow plainUnicode 10 data 7 1
    let stored := snapshot plainUnicode [] [] (componentMedia [image]) row data 7 5 .published none
    (studentView data).codeExamples.length = 1 ∧
      publishedCardFrom (texts plainUnicode fun _ => "") { plainDb with uploads := [image] } 10
          stored.revision stored.createdAt (contentRecord stored.content) =
        .ok ((activeCategory plainDb.categories data.primaryCategoryId).map fun category =>
          { id := 10
            status := .published
            data := studentView data
            category := category.item
            revision := row.revision
            updatedAt := 5
            publishedAt := some 5
            sources := (sourceSnapshots [] []).map publishedSource
            media := (componentMedia [image]).filterMap (studentMedia [image])
            archivedFromStatus := none
            editToken := 1
            hasLegacyProvenance := false }) :=
  ⟨by decide, @snapshot_roundtrip plainUnicode (fun _ => "") plainDb.categories guidedDraft
    (by decide +kernel) [] [] _ _ 7 5 .published none _ rfl (by decide +kernel) _ 10⟩

end ComponentKb.Catalog
