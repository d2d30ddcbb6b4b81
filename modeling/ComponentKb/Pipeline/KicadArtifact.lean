import ComponentKb.Lib.JsonText
import ComponentKb.Pipeline.KicadIndex

/-!
# The artifact of the KiCad index

`build_kicad_index_artifact` and `deserialize_kicad_index_artifact`
(`enrichment/kicad_distribution.py`): the index of a snapshot as canonical JSON with a manifest of
its libraries, and the checks with which a worker reads it under a pinned revision and digest. A
dictionary is written with its keys in their order. SHA-256 and `json.loads` are parameters.

* `accepted_of_readArtifact`, `readArtifact_payload`: what is accepted matches, and the other way.
* `matches_of_build`: the records of a build match its manifest.
* `loaded_eq`: the records and the libraries without symbols determine the rest.
* **`faithful_iff`**: what is accepted under the pins of a built artifact is that artifact iff its
  manifest lists the same libraries without symbols.
-/

namespace ComponentKb.Pipeline.KicadArtifact

open ComponentKb.Catalog (Unicode)
open ComponentKb.Imports (endsWith kicadRepository normalizeRepositoryPath normalizeRepositoryUrl
  requireCommitSha)
open ComponentKb.Lib ComponentKb.Lib.JsonText ComponentKb.Lib.Records ComponentKb.Lib.Sorting
open ComponentKb.Pipeline.KicadIndex

/-! ## Records as JSON -/

/-- `_SHA256`: sixty-four hexadecimal digits. -/
def isSha256 (value : String) : Bool :=
  value.length == 64 && value.toList.all fun c => c.isDigit || ('a' ≤ c && c ≤ 'f')

/-- `list(values)`. -/
def textsJson {maximum : Nat} (values : List (BoundedText maximum)) : Json :=
  .list (values.map fun value => .str value.1)

/-- An optional text. -/
def optionJson {maximum : Nat} (value : Option (BoundedText maximum)) : Json :=
  Json.ofOption (value.map Subtype.val)

/-- `KicadPin.as_dict`. -/
def pinDict (pin : KicadPin) : Record :=
  [("electrical_type", .str pin.electricalType.1), ("name", .str pin.name.1),
   ("number", .str pin.number.1), ("unit", .int pin.unit)]

/-- `KicadSymbolRecord.as_dict`. -/
def recordDict (record : SymbolRecord) : Record :=
  [("aliases", textsJson record.aliases), ("datasheet", optionJson record.datasheet),
   ("description", optionJson record.description),
   ("footprint_filters", textsJson record.footprintFilters), ("is_generic", .bool record.isGeneric),
   ("keywords", textsJson record.keywords), ("library", .str record.library.1),
   ("manufacturer_hints", textsJson record.manufacturerHints),
   ("normalized_names", textsJson record.normalizedNames),
   ("parser_version", .str record.parserVersion.1),
   ("pins", .list (record.pins.map fun pin => .dict (pinDict pin))),
   ("source_content_sha256", .str record.sourceContentSha256),
   ("source_path", .str record.sourcePath.1), ("source_revision", .str record.sourceRevision),
   ("symbol_name", .str record.symbolName.1)]

/-- The records of an index. -/
def recordsJson (records : List SymbolRecord) : Json :=
  .list (records.map fun record => .dict (recordDict record))

/-- `_canonical_json`. -/
def canonicalJson (value : Json) : ByteArray := (String.ofList (dumps value)).toUTF8

/-! ## Readers -/

/-- `frozenset(value) == keys`. -/
abbrev HasKeys (keys : List String) (value : Record) : Prop :=
  (∀ field ∈ value, field.1 ∈ keys) ∧ ∀ key ∈ keys, key ∈ value.map Prod.fst

/-- A value that has to be a dictionary. -/
def asMapping (code : String) : Json → Except String Record
  | .dict fields => .ok fields
  | _ => .error code

/-- `_required_string`. -/
def requiredString (code : String) (value : Record) (key : String) : Except String String :=
  match get value key with
  | some (.str s) => .ok s
  | _ => .error code

/-- `_required_int`: a truth value is no integer. -/
def requiredInteger (code : String) (value : Record) (key : String) : Except String Int :=
  match get value key with
  | some (.int n) => .ok n
  | _ => .error code

/-- `_required_bool`. -/
def requiredFlag (code : String) (value : Record) (key : String) : Except String Bool :=
  match get value key with
  | some (.bool b) => .ok b
  | _ => .error code

/-- `_required_list`. -/
def requiredList (code : String) (value : Record) (key : String) : Except String (List Json) :=
  match get value key with
  | some (.list items) => .ok items
  | _ => .error code

/-- `_optional_string`. -/
def optionalString (code : String) (value : Record) (key : String) :
    Except String (Option String) :=
  match get value key with
  | none => .ok none
  | some .null => .ok none
  | some (.str s) => .ok (some s)
  | _ => .error code

/-- `_object_list`: a key that is missing gives an empty list. -/
def objectList (code : String) (value : Record) (key : String) : Except String (List Json) :=
  match get value key with
  | none => .ok []
  | some (.list items) => .ok items
  | _ => .error code

/-- An element of a list of strings. -/
def asText (code : String) : Json → Except String String
  | .str s => .ok s
  | _ => .error code

/-- `_string_list`. -/
def stringList (code : String) (value : Record) (key : String) : Except String (List String) := do
  let items ← objectList code value key
  items.mapM (asText code)

/-- `KicadPin.from_dict`; a unit below zero is refused as zero is. -/
def pinOf (value : Json) : Except String KicadPin := do
  let value ← asMapping "kicad_pin_invalid" value
  let number ← requiredString "number_must_be_string" value "number"
  let name ← requiredString "name_must_be_string" value "name"
  let electricalType ← requiredString "electrical_type_must_be_string" value "electrical_type"
  let unit ← requiredInteger "unit_must_be_integer" value "unit"
  makePin number name electricalType unit.toNat

/-- The constructor of a record that is read: the checks of a record that is built, and those of
what the build gives itself. -/
def makeRecord (a : RecordArguments) (revision digest parser : String) :
    Except String SymbolRecord := do
  let ⟨hparser⟩ ← demand (Bounded 40 parser) "kicad_record_parser_version_invalid"
  require (isSha256 digest = true) "kicad_record_content_sha256_invalid"
  let record ← a.make revision digest
  return { record with parserVersion := ⟨parser, hparser⟩ }

/-- `KicadSymbolRecord.from_dict`. -/
def recordOf (value : Record) : Except String SymbolRecord := do
  let library ← requiredString "library_must_be_string" value "library"
  let symbolName ← requiredString "symbol_name_must_be_string" value "symbol_name"
  let aliases ← stringList "aliases_must_be_string_array" value "aliases"
  let normalizedNames ←
    stringList "normalized_names_must_be_string_array" value "normalized_names"
  let description ← optionalString "description_must_be_string_or_null" value "description"
  let keywords ← stringList "keywords_must_be_string_array" value "keywords"
  let manufacturerHints ←
    stringList "manufacturer_hints_must_be_string_array" value "manufacturer_hints"
  let datasheet ← optionalString "datasheet_must_be_string_or_null" value "datasheet"
  let items ← objectList "pins_must_be_array" value "pins"
  let pins ← items.mapM pinOf
  let footprintFilters ←
    stringList "footprint_filters_must_be_string_array" value "footprint_filters"
  let sourcePath ← requiredString "source_path_must_be_string" value "source_path"
  let revision ← requiredString "source_revision_must_be_string" value "source_revision"
  let digest ←
    requiredString "source_content_sha256_must_be_string" value "source_content_sha256"
  let parser ← requiredString "parser_version_must_be_string" value "parser_version"
  let isGeneric ← requiredFlag "is_generic_must_be_boolean" value "is_generic"
  makeRecord ⟨library, symbolName, aliases, normalizedNames, description, keywords,
    manufacturerHints, datasheet, pins, footprintFilters, sourcePath, isGeneric⟩
    revision digest parser

/-! ## The manifest -/

def maxArtifactBytes : Nat := 256 * 1024 * 1024
def maxLibraries : Nat := 2000
def maxSymbols : Nat := 250000

/-- `KICAD_INDEX_ARTIFACT_SCHEMA`. -/
def artifactSchema : String := "kicad-index-artifact/v1"

/-- `KicadIndexLibraryManifest`. -/
structure LibraryManifest where
  sourcePath : String
  contentSha256 : String
  symbolCount : Nat
  normalized : (normalizeRepositoryPath sourcePath).toOption = some sourcePath
  suffix : endsWith ".kicad_sym" sourcePath.toList = true
  digest : isSha256 contentSha256 = true
  counted : symbolCount ≤ maxSymbols
  deriving DecidableEq

attribute [ext] LibraryManifest

/-- The constructor of a library's manifest. -/
def LibraryManifest.make (path digest : String) (count : Int) : Except String LibraryManifest := do
  let ⟨hpath⟩ ← demand ((normalizeRepositoryPath path).toOption = some path)
    "kicad_index_library_path_invalid"
  let ⟨hsuffix⟩ ← demand (endsWith ".kicad_sym" path.toList = true)
    "kicad_index_library_path_invalid"
  let ⟨hdigest⟩ ← demand (isSha256 digest = true) "kicad_index_library_digest_invalid"
  let ⟨hcount⟩ ← demand (0 ≤ count ∧ count ≤ maxSymbols) "kicad_index_library_symbol_count_invalid"
  return ⟨path, digest, count.toNat, hpath, hsuffix, hdigest, Int.toNat_le.mpr hcount.2⟩

/-- `KicadIndexLibraryManifest.as_dict`. -/
def LibraryManifest.dict (library : LibraryManifest) : Record :=
  [("content_sha256", .str library.contentSha256), ("source_path", .str library.sourcePath),
   ("symbol_count", .int library.symbolCount)]

/-- `KicadIndexLibraryManifest.from_dict`. -/
def libraryOf (value : Json) : Except String LibraryManifest := do
  let value ← asMapping "kicad_index_artifact_shape_invalid" value
  require (HasKeys ["source_path", "content_sha256", "symbol_count"] value)
    "kicad_index_library_manifest_invalid"
  let path ← requiredString "kicad_index_manifest_invalid" value "source_path"
  let digest ← requiredString "kicad_index_manifest_invalid" value "content_sha256"
  let count ← requiredInteger "kicad_index_manifest_invalid" value "symbol_count"
  LibraryManifest.make path digest count

theorem requireCommitSha_revision {u : Unicode} {value revision : String}
    (h : requireCommitSha u value = .ok revision) : isRevision revision = true := by
  unfold requireCommitSha at h
  dsimp only at h
  split at h
  · rename_i hvalid
    rw [← Except.ok.inj h, isRevision, hvalid.1, hvalid.2]
    rfl
  · cases h

/-- `require_commit_sha`, with what it checked. -/
def commitRevision (u : Unicode) (value : String) : Except String Revision :=
  match h : requireCommitSha u value with
  | .ok revision => .ok ⟨revision, requireCommitSha_revision h⟩
  | .error error => .error error

/-- `KicadIndexManifest`. -/
structure Manifest where
  schemaVersion : String
  repositoryUrl : String
  sourceRevision : Revision
  parserVersion : String
  indexSha256 : String
  symbolCount : Nat
  libraries : List LibraryManifest
  schema : schemaVersion = artifactSchema
  url : repositoryUrl = kicadRepository
  parser : parserVersion = KicadIndex.parserVersion.1
  digest : isSha256 indexSha256 = true
  counted : 1 ≤ symbolCount ∧ symbolCount ≤ maxSymbols
  listed : 1 ≤ libraries.length ∧ libraries.length ≤ maxLibraries
  canonical : (libraries.map fun item => item.sourcePath).Nodup ∧
    libraries.map (fun item => item.sourcePath) =
      sortBy id (libraries.map fun item => item.sourcePath)
  total : (libraries.map fun item => item.symbolCount).sum = symbolCount
  deriving DecidableEq

attribute [ext] Manifest

/-- The arguments of a manifest. -/
structure ManifestArguments where
  schemaVersion : String
  repositoryUrl : String
  sourceRevision : String
  parserVersion : String
  indexSha256 : String
  symbolCount : Int
  libraries : List LibraryManifest

/-- The constructor of a manifest. -/
def ManifestArguments.make (u : Unicode) (a : ManifestArguments) : Except String Manifest := do
  let ⟨hschema⟩ ← demand (a.schemaVersion = artifactSchema) "kicad_index_schema_unsupported"
  let url ← (normalizeRepositoryUrl a.repositoryUrl).mapError fun _ =>
    "kicad_index_manifest_source_invalid"
  let revision ← (commitRevision u a.sourceRevision).mapError fun _ =>
    "kicad_index_manifest_source_invalid"
  let ⟨hurl⟩ ← demand (url = kicadRepository) "kicad_index_repository_invalid"
  let ⟨hparser⟩ ← demand (a.parserVersion = KicadIndex.parserVersion.1)
    "kicad_index_parser_version_invalid"
  let ⟨hdigest⟩ ← demand (isSha256 a.indexSha256 = true) "kicad_index_digest_invalid"
  let ⟨hcount⟩ ← demand (1 ≤ a.symbolCount ∧ a.symbolCount ≤ maxSymbols)
    "kicad_index_symbol_count_invalid"
  let ⟨hlisted⟩ ← demand (1 ≤ a.libraries.length ∧ a.libraries.length ≤ maxLibraries)
    "kicad_index_library_count_invalid"
  let ⟨hcanonical⟩ ← demand ((a.libraries.map fun item => item.sourcePath).Nodup ∧
      a.libraries.map (fun item => item.sourcePath) =
        sortBy id (a.libraries.map fun item => item.sourcePath))
    "kicad_index_libraries_not_canonical"
  let ⟨htotal⟩ ← demand
    ((a.libraries.map fun item => item.symbolCount).sum = a.symbolCount.toNat)
    "kicad_index_manifest_count_mismatch"
  return {
    schemaVersion := a.schemaVersion
    repositoryUrl := url
    sourceRevision := revision
    parserVersion := a.parserVersion
    indexSha256 := a.indexSha256
    symbolCount := a.symbolCount.toNat
    libraries := a.libraries
    schema := hschema
    url := hurl
    parser := hparser
    digest := hdigest
    counted := by omega
    listed := hlisted
    canonical := hcanonical
    total := htotal }

/-- `KicadIndexManifest.as_dict`. -/
def Manifest.dict (manifest : Manifest) : Record :=
  [("index_sha256", .str manifest.indexSha256),
   ("libraries", .list (manifest.libraries.map fun item => .dict item.dict)),
   ("parser_version", .str manifest.parserVersion),
   ("repository_url", .str manifest.repositoryUrl),
   ("schema_version", .str manifest.schemaVersion),
   ("source_revision", .str manifest.sourceRevision.1),
   ("symbol_count", .int manifest.symbolCount)]

/-- `KicadIndexManifest.from_dict`. -/
def manifestOf (u : Unicode) (value : Record) : Except String Manifest := do
  require (HasKeys ["schema_version", "repository_url", "source_revision", "parser_version",
    "index_sha256", "symbol_count", "libraries"] value) "kicad_index_manifest_invalid"
  let items ← requiredList "kicad_index_artifact_shape_invalid" value "libraries"
  let repositoryUrl ← requiredString "kicad_index_manifest_invalid" value "repository_url"
  let sourceRevision ← requiredString "kicad_index_manifest_invalid" value "source_revision"
  let parserVersion ← requiredString "kicad_index_manifest_invalid" value "parser_version"
  let indexSha256 ← requiredString "kicad_index_manifest_invalid" value "index_sha256"
  let symbolCount ← requiredInteger "kicad_index_manifest_invalid" value "symbol_count"
  let libraries ← items.mapM libraryOf
  let schemaVersion ← requiredString "kicad_index_manifest_invalid" value "schema_version"
  ManifestArguments.make u ⟨schemaVersion, repositoryUrl, sourceRevision, parserVersion,
    indexSha256, symbolCount, libraries⟩

/-! ## The artifact -/

/-- `LoadedKicadIndexArtifact`. -/
structure Loaded where
  manifest : Manifest
  index : SymbolIndex
  deriving DecidableEq

/-- `BuiltKicadIndexArtifact`. -/
structure Built where
  content : ByteArray
  loaded : Loaded
  stats : Stats

/-- `_validate_allowlist`: the indexer that an allowlist gives. -/
def validateAllowlist (values : List String) : Except String Indexer := do
  let ⟨h⟩ ← demand (values ≠ [] ∧ values.length ≤ 50 ∧ ∀ value ∈ values, value ≠ "" ∧
    value.length ≤ 80 ∧ '/' ∉ value.toList ∧ '\\' ∉ value.toList) "kicad_index_allowlist_invalid"
  return ⟨values, h.1, h.2.1, h.2.2⟩

/-- `_library_allowed`. -/
def libraryAllowed (indexer : Indexer) (library : String) : Bool :=
  indexer.libraryAllowlist.any fun allowed => allowed.toList.isPrefixOf library.toList

section

variable (u : Unicode) (sha256 : ByteArray → String) (loads : ByteArray → Option Json)

/-- `index_sha256`. -/
def indexSha256 (records : List SymbolRecord) : String :=
  sha256 (canonicalJson (recordsJson records))

/-- The artifact as JSON. -/
def payload (loaded : Loaded) : Json :=
  .dict [("manifest", .dict loaded.manifest.dict), ("records", recordsJson loaded.index.records)]

/-- The artifact as bytes. -/
def artifactBytes (loaded : Loaded) : ByteArray :=
  canonicalJson (payload loaded) ++ "\n".toUTF8

/-- `build_kicad_index_artifact`, up to the bytes. -/
def assemble (snapshot : Snapshot) (allowlist : List String) : Except String (Loaded × Stats) := do
  let indexer ← validateAllowlist allowlist
  let (result, cache) ← build u sha256 indexer none snapshot
  require (result.index.records ≠ []) "kicad_index_empty"
  let libraries ← cache.libraries.mapM fun item =>
    LibraryManifest.make item.name item.fingerprint item.result.1.length
  let manifest ← ManifestArguments.make u ⟨artifactSchema, kicadRepository,
    result.index.sourceRevision, parserVersion.1, indexSha256 sha256 result.index.records,
    result.index.records.length, libraries⟩
  return (⟨manifest, result.index⟩, result.stats)

/-- `build_kicad_index_artifact`. -/
def buildArtifact (snapshot : Snapshot) (allowlist : List String) : Except String Built := do
  let (loaded, stats) ← assemble u sha256 snapshot allowlist
  require ((artifactBytes loaded).size ≤ maxArtifactBytes) "kicad_index_artifact_too_large"
  return ⟨artifactBytes loaded, loaded, stats⟩

/-- `_validate_record_shape`. -/
def validateRecordShape (value : Record) : Except String Unit := do
  require (HasKeys ["library", "symbol_name", "aliases", "normalized_names", "description",
    "keywords", "manufacturer_hints", "datasheet", "pins", "footprint_filters", "source_path",
    "source_revision", "source_content_sha256", "parser_version", "is_generic"] value)
    "kicad_index_record_shape_invalid"
  let pins ← requiredList "kicad_index_artifact_shape_invalid" value "pins"
  each (fun pin => do
    let pin ← asMapping "kicad_index_artifact_shape_invalid" pin
    require (HasKeys ["number", "name", "electrical_type", "unit"] pin)
      "kicad_index_pin_shape_invalid") pins

/-- The loop of `deserialize_kicad_index_artifact` for one record. -/
def readRecord (indexer : Indexer) (value : Json) : Except String SymbolRecord := do
  let mapping ← asMapping "kicad_index_artifact_shape_invalid" value
  validateRecordShape mapping
  let record ← (recordOf mapping).mapError fun _ => "kicad_index_record_invalid"
  require (libraryAllowed indexer record.library.1 = true) "kicad_index_library_not_allowed"
  return record

/-- The library of a record, in `_validate_library_manifest`. -/
def checkLibrary (manifest : Manifest) (record : SymbolRecord) : Except String Unit := do
  let library ← fromSome
    (lookup (fun item : LibraryManifest => item.sourcePath) manifest.libraries record.sourcePath.1)
    "kicad_index_record_library_missing"
  require (record.sourceContentSha256 = library.contentSha256) "kicad_index_library_digest_mismatch"
  require (record.parserVersion.1 = manifest.parserVersion) "kicad_index_record_parser_mismatch"

/-- How many records a path has. -/
def symbolsAt (records : List SymbolRecord) (path : String) : Nat :=
  tally (fun record : SymbolRecord => record.sourcePath.1) records path

/-- `_validate_library_manifest`. -/
def validateLibraryManifest (manifest : Manifest) (records : List SymbolRecord) :
    Except String Unit := do
  each (checkLibrary manifest) records
  require (∀ item ∈ manifest.libraries, symbolsAt records item.sourcePath = item.symbolCount)
    "kicad_index_library_count_mismatch"

/-- The manifest that a decoded artifact has. -/
def manifestIn (root : Record) : Except String Manifest := do
  let mapping ← asMapping "kicad_index_artifact_shape_invalid" ((get root "manifest").getD .null)
  manifestOf u mapping

/-- `deserialize_kicad_index_artifact`, when the bytes are decoded. -/
def readArtifact (decoded : Json) (expectedRevision expectedSha256 : String)
    (allowlist : List String) : Except String Loaded := do
  let root ← asMapping "kicad_index_artifact_shape_invalid" decoded
  require (HasKeys ["manifest", "records"] root) "kicad_index_artifact_shape_invalid"
  let manifest ← manifestIn u root
  let revision ← (commitRevision u expectedRevision).mapError fun _ =>
    "kicad_index_expected_revision_invalid"
  require (isSha256 expectedSha256 = true) "kicad_index_expected_digest_invalid"
  require (manifest.sourceRevision = revision) "kicad_index_revision_mismatch"
  require (manifest.indexSha256 = expectedSha256) "kicad_index_digest_mismatch"
  let indexer ← validateAllowlist allowlist
  let values ← requiredList "kicad_index_artifact_shape_invalid" root "records"
  require (values.length = manifest.symbolCount) "kicad_index_record_count_mismatch"
  let records ← values.mapM (readRecord indexer)
  require (records.map (fun record => record.recordId) =
    sortBy id (records.map fun record => record.recordId)) "kicad_index_records_not_canonical"
  let index ← (SymbolIndex.make records manifest.sourceRevision.1).mapError fun _ =>
    "kicad_index_records_invalid"
  require (indexSha256 sha256 index.records = manifest.indexSha256)
    "kicad_index_payload_digest_mismatch"
  validateLibraryManifest manifest index.records
  return ⟨manifest, index⟩

/-- `deserialize_kicad_index_artifact`. -/
def deserialize (content : ByteArray) (expectedRevision expectedSha256 : String)
    (allowlist : List String) : Except String Loaded := do
  require (content.size ≠ 0 ∧ content.size ≤ maxArtifactBytes) "kicad_index_artifact_size_invalid"
  let decoded ← fromSome (loads content) "kicad_index_artifact_json_invalid"
  readArtifact u sha256 decoded expectedRevision expectedSha256 allowlist

end

/-! ## What is written is read -/

theorem each_ok {α : Type} {check : α → Except String Unit} {xs : List α}
    (h : ∀ x ∈ xs, check x = .ok ()) : each check xs = .ok () := each_eq_ok.mpr h

theorem require_met {p : Prop} [Decidable p] (h : p) (e : String) : require p e = .ok () := if_pos h

theorem asText_texts {maximum : Nat} (code : String) (values : List (BoundedText maximum)) :
    (values.map fun value => Json.str value.1).mapM (asText code) =
      .ok (values.map Subtype.val) :=
  mapM_map_ok fun _ _ => rfl

theorem requiredString_str {value : Record} {key s : String} (code : String)
    (h : get value key = some (.str s)) : requiredString code value key = .ok s := by
  rw [requiredString, h]

theorem requiredInteger_int {value : Record} {key : String} {n : Int} (code : String)
    (h : get value key = some (.int n)) : requiredInteger code value key = .ok n := by
  rw [requiredInteger, h]

theorem requiredList_list {value : Record} {key : String} {items : List Json} (code : String)
    (h : get value key = some (.list items)) : requiredList code value key = .ok items := by
  rw [requiredList, h]

/-- A list of texts is read back. -/
theorem stringList_texts {maximum : Nat} (values : List (BoundedText maximum)) {value : Record}
    {key : String} (code : String) (h : get value key = some (textsJson values)) :
    stringList code value key = .ok (values.map Subtype.val) := by
  unfold stringList objectList
  rw [h]
  exact asText_texts code values

/-- An optional text is read back. -/
theorem optionalString_option {maximum : Nat} (text : Option (BoundedText maximum)) {value : Record}
    {key : String} (code : String) (h : get value key = some (optionJson text)) :
    optionalString code value key = .ok (text.map Subtype.val) := by
  unfold optionalString
  rw [h]
  cases text <;> rfl

/-- Texts that are bounded pass their check. -/
theorem boundedTexts_val {maximum : Nat} {values : List (BoundedText maximum)} (code : String)
    (h : values.Nodup) : boundedTexts maximum (values.map Subtype.val) code = .ok ⟨values, h⟩ := by
  have hvalues : ∀ value ∈ values.map Subtype.val, Bounded maximum value := by
    intro value hvalue
    obtain ⟨text, -, rfl⟩ := List.mem_map.mp hvalue
    exact text.2
  have hnodup : (values.map Subtype.val).Nodup := h.map Subtype.val_injective
  unfold boundedTexts
  rw [demand_met hvalues, demand_met hnodup]
  have hback : (values.map Subtype.val).attachWith _ hvalues = values := by
    refine List.map_injective_iff.mpr Subtype.val_injective ?_
    rw [List.attachWith_map_subtype_val]
  simp only [Records.ok_bind, hback]
  rfl

theorem boundedOption_val {maximum : Nat} (text : Option (BoundedText maximum)) (code : String) :
    boundedOption maximum (text.map Subtype.val) code = .ok text := by
  cases text with
  | none => rfl
  | some text =>
    unfold boundedOption
    simp only [Option.map_some, demand_met text.2]
    rfl

theorem pinOf_dict (pin : KicadPin) : pinOf (.dict (pinDict pin)) = .ok pin := by
  have hmake : makePin pin.number.1 pin.name.1 pin.electricalType.1 ((pin.unit : Int).toNat) =
      .ok pin := by
    unfold makePin
    rw [Int.toNat_natCast, demand_met pin.number.2, demand_met pin.name.2,
      demand_met pin.electricalType.2, demand_met pin.unitValid]
    rfl
  simp only [pinOf, asMapping, pinDict, requiredString, requiredInteger, get_cons, String.reduceEq,
    ↓reduceIte, Records.ok_bind, hmake]

/-- **A record is read back.** -/
theorem recordOf_dict {record : SymbolRecord} (h : isSha256 record.sourceContentSha256 = true) :
    recordOf (recordDict record) = .ok record := by
  have hpins : (record.pins.map fun pin => Json.dict (pinDict pin)).mapM pinOf =
      .ok record.pins := by
    rw [mapM_map_ok (h := id) fun pin _ => pinOf_dict pin, List.map_id]
  have hmake : makeRecord ⟨record.library.1, record.symbolName.1, record.aliases.map Subtype.val,
      record.normalizedNames.map Subtype.val, record.description.map Subtype.val,
      record.keywords.map Subtype.val, record.manufacturerHints.map Subtype.val,
      record.datasheet.map Subtype.val, record.pins, record.footprintFilters.map Subtype.val,
      record.sourcePath.1, record.isGeneric⟩ record.sourceRevision record.sourceContentSha256
      record.parserVersion.1 = .ok record := by
    unfold makeRecord RecordArguments.make
    rw [demand_met record.parserVersion.2, demand_met record.library.2,
      demand_met record.symbolName.2, demand_met record.sourcePath.2, demand_met record.revised,
      boundedOption_val, boundedOption_val, boundedTexts_val _ record.aliasesUnique,
      boundedTexts_val _ record.namesUnique, boundedTexts_val _ record.keywordsUnique,
      boundedTexts_val _ record.hintsUnique, boundedTexts_val _ record.filtersUnique]
    simp only [Records.ok_bind]
    rw [demand_met record.named, require_met h]
    rfl
  unfold recordOf
  rw [stringList_texts record.aliases _ (by simp [recordDict]),
    stringList_texts record.normalizedNames _ (by simp [recordDict]),
    stringList_texts record.keywords _ (by simp [recordDict]),
    stringList_texts record.manufacturerHints _ (by simp [recordDict]),
    stringList_texts record.footprintFilters _ (by simp [recordDict]),
    optionalString_option record.description _ (by simp [recordDict]),
    optionalString_option record.datasheet _ (by simp [recordDict])]
  simp only [recordDict, objectList, requiredString, requiredFlag, get_cons, String.reduceEq,
    ↓reduceIte, Records.ok_bind, hpins, hmake]

theorem validateRecordShape_dict (record : SymbolRecord) :
    validateRecordShape (recordDict record) = .ok () := by
  have hpins : each (fun pin => do
      let pin ← asMapping "kicad_index_artifact_shape_invalid" pin
      require (HasKeys ["number", "name", "electrical_type", "unit"] pin)
        "kicad_index_pin_shape_invalid") (record.pins.map fun pin => Json.dict (pinDict pin)) =
      .ok () := by
    refine each_ok fun value hvalue => ?_
    obtain ⟨pin, -, rfl⟩ := List.mem_map.mp hvalue
    have hkeys : HasKeys ["number", "name", "electrical_type", "unit"] (pinDict pin) := by
      simp [HasKeys, pinDict]
    exact require_met hkeys "kicad_index_pin_shape_invalid"
  have hget : get (recordDict record) "pins" =
      some (.list (record.pins.map fun pin => Json.dict (pinDict pin))) := by
    simp [recordDict]
  unfold validateRecordShape
  rw [require_met (by simp [HasKeys, recordDict]), requiredList_list _ hget]
  exact hpins

theorem readRecord_dict {indexer : Indexer} {record : SymbolRecord}
    (hdigest : isSha256 record.sourceContentSha256 = true)
    (hallowed : libraryAllowed indexer record.library.1 = true) :
    readRecord indexer (.dict (recordDict record)) = .ok record := by
  have hrecord : (recordOf (recordDict record)).mapError (fun _ => "kicad_index_record_invalid") =
      .ok record := by
    rw [recordOf_dict hdigest]
    rfl
  unfold readRecord asMapping
  simp only [Records.ok_bind, validateRecordShape_dict, hrecord, require_met hallowed]
  rfl

theorem libraryOf_dict (library : LibraryManifest) : libraryOf (.dict library.dict) = .ok library := by
  have hmake : LibraryManifest.make library.sourcePath library.contentSha256 library.symbolCount =
      .ok library := by
    have hcount : (0 : Int) ≤ library.symbolCount ∧ (library.symbolCount : Int) ≤ maxSymbols :=
      ⟨Int.natCast_nonneg _, Int.ofNat_le.mpr library.counted⟩
    unfold LibraryManifest.make
    rw [demand_met library.normalized, demand_met library.suffix, demand_met library.digest,
      demand_met hcount]
    rfl
  unfold libraryOf
  simp only [asMapping, Records.ok_bind]
  rw [require_met (by simp [HasKeys, LibraryManifest.dict])]
  simp only [LibraryManifest.dict, requiredString, requiredInteger, get_cons, String.reduceEq,
    ↓reduceIte, Records.ok_bind, hmake]

section

variable {u : Unicode} (hcasefold : ∀ s, isRevision s = true → u.casefold s = s)

include hcasefold

theorem requireCommitSha_self {revision : String} (h : isRevision revision = true) :
    requireCommitSha u revision = .ok revision := by
  have hvalid : revision.length = 40 ∧
      revision.toList.all (fun c => c.isDigit || ('a' ≤ c && c ≤ 'f')) = true := by
    simpa [isRevision] using h
  have hplain : ∀ c ∈ revision.toList, Catalog.isSpace c = false := by
    intro c hc
    have hhex := List.all_eq_true.mp hvalid.2 c hc
    have hrange : 48 ≤ c.toNat ∧ c.toNat ≤ 57 ∨ 97 ≤ c.toNat ∧ c.toNat ≤ 102 := by
      simpa [Char.isDigit, Char.le_def, UInt32.le_iff_toNat_le] using hhex
    simp only [Catalog.isSpace]
    simp
    omega
  have hstrip : Catalog.strip revision = revision := Catalog.strip_eq_self
    (fun c hc => hplain c (List.mem_of_mem_head? hc))
    (fun c hc => hplain c (List.mem_of_getLast? hc))
  unfold requireCommitSha
  dsimp only
  rw [hstrip, hcasefold revision h]
  exact if_pos hvalid

theorem commitRevision_self (revision : Revision) : commitRevision u revision.1 = .ok revision := by
  have hself := requireCommitSha_self hcasefold revision.2
  unfold commitRevision
  split
  · rename_i found hfound
    have hsame : found = revision.1 := Except.ok.inj (hfound.symm.trans hself)
    exact congrArg Except.ok (Subtype.ext hsame)
  · rename_i error herror
    rw [hself] at herror
    cases herror

/-- **A manifest is read back.** -/
theorem manifestOf_dict (manifest : Manifest) : manifestOf u manifest.dict = .ok manifest := by
  have hlibraries : (manifest.libraries.map fun item => Json.dict item.dict).mapM libraryOf =
      .ok manifest.libraries := by
    rw [mapM_map_ok (h := id) fun item _ => libraryOf_dict item, List.map_id]
  have hmake : ManifestArguments.make u ⟨manifest.schemaVersion, manifest.repositoryUrl,
      manifest.sourceRevision.1, manifest.parserVersion, manifest.indexSha256, manifest.symbolCount,
      manifest.libraries⟩ = .ok manifest := by
    have hurl : normalizeRepositoryUrl manifest.repositoryUrl = .ok manifest.repositoryUrl := by
      rw [manifest.url]
      exact Catalog.toOption_eq_some.mp (by decide +kernel)
    have hcount : (1 : Int) ≤ manifest.symbolCount ∧ (manifest.symbolCount : Int) ≤ maxSymbols := by
      have := manifest.counted
      omega
    unfold ManifestArguments.make
    rw [demand_met manifest.schema, hurl, commitRevision_self hcasefold]
    simp only [Except.mapError, Records.ok_bind]
    rw [demand_met manifest.url, demand_met manifest.parser, demand_met manifest.digest,
      demand_met hcount, demand_met manifest.listed, demand_met manifest.canonical,
      demand_met (by exact manifest.total)]
    rfl
  unfold manifestOf
  rw [require_met (by simp [HasKeys, Manifest.dict])]
  simp only [Manifest.dict, requiredList, requiredString, requiredInteger, get_cons,
    String.reduceEq, ↓reduceIte, Records.ok_bind, hlibraries, hmake]

end

/-! ## What the checks say -/

/-- The records of an artifact match its manifest and the allowlist. -/
structure Matches (sha256 : ByteArray → String) (allowlist : List String) (loaded : Loaded) :
    Prop where
  revision : loaded.index.sourceRevision = loaded.manifest.sourceRevision.1
  revisions : ∀ record ∈ loaded.index.records,
    record.sourceRevision = loaded.manifest.sourceRevision.1
  distinct : (loaded.index.records.map fun record => record.recordId).Nodup
  ordered : loaded.index.records.map (fun record => record.recordId) =
    sortBy id (loaded.index.records.map fun record => record.recordId)
  count : loaded.index.records.length = loaded.manifest.symbolCount
  digest : indexSha256 sha256 loaded.index.records = loaded.manifest.indexSha256
  digests : ∀ record ∈ loaded.index.records, isSha256 record.sourceContentSha256 = true
  library : ∀ record ∈ loaded.index.records, ∃ library ∈ loaded.manifest.libraries,
    library.sourcePath = record.sourcePath.1 ∧ library.contentSha256 = record.sourceContentSha256
  parser : ∀ record ∈ loaded.index.records,
    record.parserVersion.1 = loaded.manifest.parserVersion
  counts : ∀ library ∈ loaded.manifest.libraries,
    symbolsAt loaded.index.records library.sourcePath = library.symbolCount
  allowed : ∀ record ∈ loaded.index.records, ∃ start ∈ allowlist,
    start.toList <+: record.library.1.toList

theorem checkLibrary_eq_ok {manifest : Manifest} {record : SymbolRecord} :
    checkLibrary manifest record = .ok () ↔
      (∃ library ∈ manifest.libraries, library.sourcePath = record.sourcePath.1 ∧
        library.contentSha256 = record.sourceContentSha256) ∧
      record.parserVersion.1 = manifest.parserVersion := by
  unfold checkLibrary
  constructor
  · intro h
    obtain ⟨library, hlibrary, h⟩ := bind_eq_ok.mp h
    obtain ⟨hdigest, hparser⟩ := seq_eq_ok.mp h
    have hfound := fromSome_eq_ok.mp hlibrary
    exact ⟨⟨library, mem_of_lookup hfound, key_of_lookup hfound,
      (require_eq_ok.mp hdigest).symm⟩, require_eq_ok.mp hparser⟩
  · rintro ⟨⟨library, hmem, hpath, hdigest⟩, hparser⟩
    have hfound : lookup (fun item : LibraryManifest => item.sourcePath) manifest.libraries
        record.sourcePath.1 = some library := by
      rw [← hpath]
      exact lookup_of_mem manifest.canonical.1 hmem
    rw [hfound]
    exact seq_eq_ok.mpr ⟨require_eq_ok.mpr hdigest.symm, require_eq_ok.mpr hparser⟩

theorem validateAllowlist_eq_ok {allowlist : List String} {indexer : Indexer}
    (h : validateAllowlist allowlist = .ok indexer) : indexer.libraryAllowlist = allowlist := by
  obtain ⟨⟨_⟩, -, h⟩ := bind_eq_ok.mp h
  rw [← Except.ok.inj h]

theorem libraryAllowed_iff {indexer : Indexer} {library : String} :
    libraryAllowed indexer library = true ↔
      ∃ start ∈ indexer.libraryAllowlist, start.toList <+: library.toList := by
  simp [libraryAllowed]

theorem SymbolIndex.make_eq_ok {records : List SymbolRecord} {revision : String}
    {index : SymbolIndex} : SymbolIndex.make records revision = .ok index ↔
      isRevision revision = true ∧ (∀ record ∈ records, record.sourceRevision = revision) ∧
      (records.map fun record => record.recordId).Nodup ∧ index = ⟨records, revision⟩ := by
  unfold SymbolIndex.make
  rw [seq_eq_ok, seq_eq_ok, seq_eq_ok, require_eq_ok, require_eq_ok, require_eq_ok]
  exact and_congr_right fun _ => and_congr_right fun _ => and_congr_right fun _ =>
    ⟨fun h => (Except.ok.inj h).symm, fun h => congrArg Except.ok h.symm⟩

section

variable {u : Unicode} {sha256 : ByteArray → String} {allowlist : List String}
  {indexer : Indexer}

theorem asMapping_eq_ok {code : String} {value : Json} {fields : Record} :
    asMapping code value = .ok fields ↔ value = .dict fields := by
  unfold asMapping
  constructor
  · intro h
    split at h
    · rw [Except.ok.inj h]
    · cases h
  · rintro rfl
    rfl

theorem readRecord_allowed {value : Json} {record : SymbolRecord}
    (h : readRecord indexer value = .ok record) :
    libraryAllowed indexer record.library.1 = true := by
  unfold readRecord at h
  obtain ⟨mapping, -, h⟩ := bind_eq_ok.mp h
  obtain ⟨-, h⟩ := seq_eq_ok.mp h
  obtain ⟨found, -, h⟩ := bind_eq_ok.mp h
  obtain ⟨hallowed, h⟩ := seq_eq_ok.mp h
  rw [← Except.ok.inj h]
  exact require_eq_ok.mp hallowed

/-- What the arguments of a record say of it. -/
theorem RecordArguments.make_spec {a : RecordArguments} {revision digest : String}
    {record : SymbolRecord} (h : a.make revision digest = .ok record) :
    record.library.1 = a.library ∧ record.sourcePath.1 = a.sourcePath ∧
      record.parserVersion = parserVersion ∧ record.sourceContentSha256 = digest := by
  unfold RecordArguments.make at h
  obtain ⟨⟨_⟩, -, h⟩ := bind_eq_ok.mp h
  obtain ⟨⟨_⟩, -, h⟩ := bind_eq_ok.mp h
  obtain ⟨⟨_⟩, -, h⟩ := bind_eq_ok.mp h
  obtain ⟨⟨_⟩, -, h⟩ := bind_eq_ok.mp h
  obtain ⟨_, -, h⟩ := bind_eq_ok.mp h
  obtain ⟨_, -, h⟩ := bind_eq_ok.mp h
  obtain ⟨_, -, h⟩ := bind_eq_ok.mp h
  obtain ⟨_, -, h⟩ := bind_eq_ok.mp h
  obtain ⟨_, -, h⟩ := bind_eq_ok.mp h
  obtain ⟨_, -, h⟩ := bind_eq_ok.mp h
  obtain ⟨_, -, h⟩ := bind_eq_ok.mp h
  obtain ⟨⟨_⟩, -, h⟩ := bind_eq_ok.mp h
  rw [← Except.ok.inj h]
  exact ⟨rfl, rfl, rfl, rfl⟩

theorem makeRecord_digest {a : RecordArguments} {revision digest parser : String}
    {record : SymbolRecord} (h : makeRecord a revision digest parser = .ok record) :
    isSha256 record.sourceContentSha256 = true := by
  unfold makeRecord at h
  obtain ⟨⟨_⟩, -, h⟩ := bind_eq_ok.mp h
  obtain ⟨hdigest, h⟩ := seq_eq_ok.mp h
  obtain ⟨made, hmade, h⟩ := bind_eq_ok.mp h
  rw [← Except.ok.inj h]
  change isSha256 made.sourceContentSha256 = true
  rw [(RecordArguments.make_spec hmade).2.2.2]
  exact require_eq_ok.mp hdigest

theorem recordOf_digest {value : Record} {record : SymbolRecord}
    (h : recordOf value = .ok record) : isSha256 record.sourceContentSha256 = true := by
  unfold recordOf at h
  obtain ⟨_, -, h⟩ := bind_eq_ok.mp h
  obtain ⟨_, -, h⟩ := bind_eq_ok.mp h
  obtain ⟨_, -, h⟩ := bind_eq_ok.mp h
  obtain ⟨_, -, h⟩ := bind_eq_ok.mp h
  obtain ⟨_, -, h⟩ := bind_eq_ok.mp h
  obtain ⟨_, -, h⟩ := bind_eq_ok.mp h
  obtain ⟨_, -, h⟩ := bind_eq_ok.mp h
  obtain ⟨_, -, h⟩ := bind_eq_ok.mp h
  obtain ⟨_, -, h⟩ := bind_eq_ok.mp h
  obtain ⟨_, -, h⟩ := bind_eq_ok.mp h
  obtain ⟨_, -, h⟩ := bind_eq_ok.mp h
  obtain ⟨_, -, h⟩ := bind_eq_ok.mp h
  obtain ⟨_, -, h⟩ := bind_eq_ok.mp h
  obtain ⟨_, -, h⟩ := bind_eq_ok.mp h
  obtain ⟨_, -, h⟩ := bind_eq_ok.mp h
  obtain ⟨_, -, h⟩ := bind_eq_ok.mp h
  exact makeRecord_digest h

theorem readRecord_digest {value : Json} {record : SymbolRecord}
    (h : readRecord indexer value = .ok record) :
    isSha256 record.sourceContentSha256 = true := by
  unfold readRecord at h
  obtain ⟨mapping, -, h⟩ := bind_eq_ok.mp h
  obtain ⟨-, h⟩ := seq_eq_ok.mp h
  obtain ⟨found, hfound, h⟩ := bind_eq_ok.mp h
  obtain ⟨-, h⟩ := seq_eq_ok.mp h
  rw [← Except.ok.inj h]
  obtain hfound := mapError_eq_ok.mp hfound
  exact recordOf_digest hfound

/-- The checks passed, one by one. -/
structure Accepted (u : Unicode) (sha256 : ByteArray → String) (root : Record)
    (expectedRevision expectedSha256 : String) (allowlist : List String) (loaded : Loaded) :
    Prop where
  manifest : manifestIn u root = .ok loaded.manifest
  revision : commitRevision u expectedRevision = .ok loaded.manifest.sourceRevision
  digest : loaded.manifest.indexSha256 = expectedSha256
  records : Matches sha256 allowlist loaded

/-- Each result of a computation is that of its element. -/
theorem forall₂_of_mapM {α β : Type} {f : α → Except String β} {xs : List α} {ys : List β}
    (h : xs.mapM f = .ok ys) : List.Forall₂ (fun x y => f x = .ok y) xs ys := by
  induction xs generalizing ys with
  | nil =>
    cases h
    exact .nil
  | cons x xs ih =>
    rw [List.mapM_cons] at h
    obtain ⟨y, hy, h⟩ := bind_eq_ok.mp h
    obtain ⟨rest, hrest, h⟩ := bind_eq_ok.mp h
    rw [← Except.ok.inj h]
    exact .cons hy (ih hrest)

/-- **What is accepted matches.** -/
theorem accepted_of_readArtifact {decoded : Json} {expectedRevision expectedSha256 : String}
    {loaded : Loaded} (h : readArtifact u sha256 decoded expectedRevision expectedSha256 allowlist =
      .ok loaded) : ∃ root, decoded = .dict root ∧
        Accepted u sha256 root expectedRevision expectedSha256 allowlist loaded := by
  unfold readArtifact at h
  obtain ⟨root, hroot, h⟩ := bind_eq_ok.mp h
  obtain ⟨-, h⟩ := seq_eq_ok.mp h
  obtain ⟨manifest, hmanifest, h⟩ := bind_eq_ok.mp h
  obtain ⟨revision, hrevision, h⟩ := bind_eq_ok.mp h
  obtain ⟨-, h⟩ := seq_eq_ok.mp h
  obtain ⟨hsame, h⟩ := seq_eq_ok.mp h
  obtain ⟨hdigest, h⟩ := seq_eq_ok.mp h
  obtain ⟨indexer, hindexer, h⟩ := bind_eq_ok.mp h
  obtain ⟨values, -, h⟩ := bind_eq_ok.mp h
  obtain ⟨hcount, h⟩ := seq_eq_ok.mp h
  obtain ⟨records, hrecords, h⟩ := bind_eq_ok.mp h
  obtain ⟨hordered, h⟩ := seq_eq_ok.mp h
  obtain ⟨index, hindex, h⟩ := bind_eq_ok.mp h
  obtain ⟨hpayload, h⟩ := seq_eq_ok.mp h
  obtain ⟨hlibraries, h⟩ := seq_eq_ok.mp h
  obtain ⟨hvalid, hrevisions, hdistinct, rfl⟩ := SymbolIndex.make_eq_ok.mp (mapError_eq_ok.mp hindex)
  obtain ⟨heach, hcounts⟩ := seq_eq_ok.mp hlibraries
  have hchecked := fun record hrecord => checkLibrary_eq_ok.mp (each_eq_ok.mp heach record hrecord)
  have hread := fun record hrecord => mem_of_mapM hrecords (y := record) hrecord
  rw [← Except.ok.inj h]
  refine ⟨root, asMapping_eq_ok.mp hroot, hmanifest, ?_, require_eq_ok.mp hdigest, {
    revision := rfl
    revisions := hrevisions
    distinct := hdistinct
    ordered := require_eq_ok.mp hordered
    count := (forall₂_of_mapM hrecords).length_eq.symm.trans (require_eq_ok.mp hcount)
    digest := require_eq_ok.mp hpayload
    digests := fun record hrecord => ?_
    library := fun record hrecord => (hchecked record hrecord).1
    parser := fun record hrecord => (hchecked record hrecord).2
    counts := require_eq_ok.mp hcounts
    allowed := fun record hrecord => ?_ }⟩
  · rw [mapError_eq_ok.mp hrevision, require_eq_ok.mp hsame]
  · obtain ⟨value, -, hvalue⟩ := hread record hrecord
    exact readRecord_digest hvalue
  · obtain ⟨value, -, hvalue⟩ := hread record hrecord
    rw [← validateAllowlist_eq_ok hindexer]
    exact libraryAllowed_iff.mp (readRecord_allowed hvalue)

/-! ## What matches is accepted -/

/-- **The JSON of what matches is accepted.** -/
theorem readArtifact_payload (hcasefold : ∀ s, isRevision s = true → u.casefold s = s)
    {loaded : Loaded} (h : Matches sha256 allowlist loaded)
    (hindexer : validateAllowlist allowlist = .ok indexer) :
    readArtifact u sha256 (payload loaded) loaded.manifest.sourceRevision.1
      loaded.manifest.indexSha256 allowlist = .ok loaded := by
  have hmanifest : manifestIn u [("manifest", .dict loaded.manifest.dict),
      ("records", recordsJson loaded.index.records)] = .ok loaded.manifest := by
    unfold manifestIn
    simp only [get_cons, ↓reduceIte, Option.getD_some, asMapping, Records.ok_bind]
    exact manifestOf_dict hcasefold loaded.manifest
  have hvalues : requiredList "kicad_index_artifact_shape_invalid"
      [("manifest", .dict loaded.manifest.dict), ("records", recordsJson loaded.index.records)]
      "records" = .ok (loaded.index.records.map fun record => .dict (recordDict record)) :=
    requiredList_list _ (by simp [recordsJson])
  have hrecords : (loaded.index.records.map fun record => Json.dict (recordDict record)).mapM
      (readRecord indexer) = .ok loaded.index.records := by
    have hone : ∀ record ∈ loaded.index.records,
        readRecord indexer (.dict (recordDict record)) = .ok record := by
      intro record hrecord
      refine readRecord_dict (h.digests record hrecord) (libraryAllowed_iff.mpr ?_)
      rw [validateAllowlist_eq_ok hindexer]
      exact h.allowed record hrecord
    have hall := mapM_map_ok (h := id) hone
    rwa [List.map_id] at hall
  have hindex : (SymbolIndex.make loaded.index.records loaded.manifest.sourceRevision.1).mapError
      (fun _ => "kicad_index_records_invalid") = .ok loaded.index := by
    have hmake : SymbolIndex.make loaded.index.records loaded.manifest.sourceRevision.1 =
        .ok loaded.index := SymbolIndex.make_eq_ok.mpr
      ⟨loaded.manifest.sourceRevision.2, h.revisions, h.distinct, by rw [← h.revision]⟩
    rw [hmake]
    rfl
  have hlibraries : validateLibraryManifest loaded.manifest loaded.index.records = .ok () :=
    seq_eq_ok.mpr ⟨each_eq_ok.mpr fun record hrecord =>
      checkLibrary_eq_ok.mpr ⟨h.library record hrecord, h.parser record hrecord⟩,
      require_eq_ok.mpr h.counts⟩
  have hrevision : (commitRevision u loaded.manifest.sourceRevision.1).mapError
      (fun _ => "kicad_index_expected_revision_invalid") = .ok loaded.manifest.sourceRevision := by
    rw [commitRevision_self hcasefold]
    rfl
  unfold readArtifact payload
  refine bind_eq_ok.mpr ⟨_, asMapping_eq_ok.mpr rfl, ?_⟩
  refine seq_eq_ok.mpr ⟨require_eq_ok.mpr (by simp [HasKeys]), ?_⟩
  refine bind_eq_ok.mpr ⟨_, hmanifest, bind_eq_ok.mpr ⟨_, hrevision, ?_⟩⟩
  refine seq_eq_ok.mpr ⟨require_eq_ok.mpr loaded.manifest.digest, ?_⟩
  refine seq_eq_ok.mpr ⟨require_eq_ok.mpr rfl, seq_eq_ok.mpr ⟨require_eq_ok.mpr rfl, ?_⟩⟩
  refine bind_eq_ok.mpr ⟨_, hindexer, bind_eq_ok.mpr ⟨_, hvalues, ?_⟩⟩
  refine seq_eq_ok.mpr ⟨require_eq_ok.mpr ((List.length_map _).trans h.count), ?_⟩
  refine bind_eq_ok.mpr ⟨_, hrecords, ?_⟩
  refine seq_eq_ok.mpr ⟨require_eq_ok.mpr h.ordered, ?_⟩
  refine bind_eq_ok.mpr ⟨_, hindex, ?_⟩
  exact seq_eq_ok.mpr ⟨require_eq_ok.mpr h.digest, seq_eq_ok.mpr ⟨hlibraries, rfl⟩⟩

end

/-! ## What is built matches -/

theorem LibraryManifest.make_spec {path digest : String} {count : Int} {library : LibraryManifest}
    (h : LibraryManifest.make path digest count = .ok library) : library.sourcePath = path ∧
      library.contentSha256 = digest ∧ library.symbolCount = count.toNat := by
  unfold LibraryManifest.make at h
  obtain ⟨⟨_⟩, -, h⟩ := bind_eq_ok.mp h
  obtain ⟨⟨_⟩, -, h⟩ := bind_eq_ok.mp h
  obtain ⟨⟨_⟩, -, h⟩ := bind_eq_ok.mp h
  obtain ⟨⟨_⟩, -, h⟩ := bind_eq_ok.mp h
  rw [← Except.ok.inj h]
  exact ⟨rfl, rfl, rfl⟩

theorem ManifestArguments.make_spec {u : Unicode} {a : ManifestArguments} {manifest : Manifest}
    (h : a.make u = .ok manifest) : commitRevision u a.sourceRevision = .ok manifest.sourceRevision ∧
      manifest.indexSha256 = a.indexSha256 ∧ manifest.symbolCount = a.symbolCount.toNat ∧
      manifest.libraries = a.libraries := by
  unfold ManifestArguments.make at h
  obtain ⟨⟨_⟩, -, h⟩ := bind_eq_ok.mp h
  obtain ⟨url, -, h⟩ := bind_eq_ok.mp h
  obtain ⟨revision, hrevision, h⟩ := bind_eq_ok.mp h
  obtain ⟨⟨_⟩, -, h⟩ := bind_eq_ok.mp h
  obtain ⟨⟨_⟩, -, h⟩ := bind_eq_ok.mp h
  obtain ⟨⟨_⟩, -, h⟩ := bind_eq_ok.mp h
  obtain ⟨⟨_⟩, -, h⟩ := bind_eq_ok.mp h
  obtain ⟨⟨_⟩, -, h⟩ := bind_eq_ok.mp h
  obtain ⟨⟨_⟩, -, h⟩ := bind_eq_ok.mp h
  obtain ⟨⟨_⟩, -, h⟩ := bind_eq_ok.mp h
  rw [← Except.ok.inj h]
  exact ⟨mapError_eq_ok.mp hrevision, rfl, rfl, rfl⟩

section Build

variable {u : Unicode} {sha256 : ByteArray → String} {indexer : Indexer} {snapshot : Snapshot}

/-- What a file says of the records of its library. -/
theorem readLibrary_spec {revision path : String} {content : ByteArray} {record : SymbolRecord}
    (h : record ∈ (readLibrary u sha256 revision path content).1) :
    record.library.1 = String.ofList (Imports.libraryName path) ∧ record.sourcePath.1 = path ∧
      record.parserVersion = parserVersion ∧ record.sourceContentSha256 = sha256 content := by
  unfold readLibrary at h
  split at h
  · rename_i library hlibrary
    unfold parseLibrary at hlibrary
    obtain ⟨root, -, hlibrary⟩ := bind_eq_ok.mp hlibrary
    obtain ⟨-, hlibrary⟩ := seq_eq_ok.mp hlibrary
    obtain ⟨read, hread, hlibrary⟩ := bind_eq_ok.mp hlibrary
    rw [← Except.ok.inj hlibrary] at h
    obtain ⟨item, hitem, hrecord⟩ := List.mem_filterMap.mp h
    obtain ⟨symbol, -, hsymbol⟩ := mem_of_mapM hread hitem
    unfold readSymbol at hsymbol
    split at hsymbol
    · rw [← Except.ok.inj hsymbol] at hrecord
      cases hrecord
    · obtain ⟨pins, -, hsymbol⟩ := bind_eq_ok.mp hsymbol
      obtain ⟨made, hmade, hsymbol⟩ := bind_eq_ok.mp hsymbol
      rw [← Except.ok.inj hsymbol] at hrecord
      obtain rfl := Option.some.inj hrecord
      exact RecordArguments.make_spec hmade
  · cases h

/-- What a fresh build gives. -/
theorem build_spec {result : BuildResult} {cache : Cache}
    (h : build u sha256 indexer none snapshot = .ok (result, cache)) :
    (∀ item ∈ cache.libraries, indexer.reads item.name = true ∧ ∃ content,
      item.fingerprint = sha256 content ∧
      item.result.1 = (readLibrary u sha256 snapshot.revision item.name content).1) ∧
    SymbolIndex.make (sortBy (fun record : SymbolRecord => record.recordId)
      (cache.libraries.flatMap fun library => library.result.1)) snapshot.revision =
      .ok result.index := by
  obtain ⟨url, -, h⟩ := bind_eq_ok.mp h
  obtain ⟨-, h⟩ := seq_eq_ok.mp h
  unfold rebuild at h
  obtain ⟨libraries, hlibraries, h⟩ := bind_eq_ok.mp h
  obtain ⟨index, hindex, h⟩ := bind_eq_ok.mp h
  obtain ⟨hresult, hcache⟩ := Prod.mk.inj (Except.ok.inj h)
  rw [← hresult, ← hcache]
  refine ⟨fun item hitem => ?_, hindex⟩
  obtain ⟨file, hfile, hkept⟩ := mem_of_mapM hlibraries hitem
  have hkept : (⟨file.1, sha256 file.2, readLibrary u sha256 snapshot.revision file.1 file.2⟩ :
      CachedLibrary) = item := Except.ok.inj hkept
  rw [← hkept]
  exact ⟨(List.mem_filter.mp (mem_sortBy.mp hfile)).2, file.2, rfl, rfl⟩

/-- The manifest lists the libraries of the cache. -/
theorem libraries_of_cache {kept : List CachedLibrary} {libraries : List LibraryManifest}
    (h : kept.mapM (fun item => LibraryManifest.make item.name item.fingerprint
      item.result.1.length) = .ok libraries) :
    libraries.map (fun item => item.sourcePath) = kept.map (fun item => item.name) ∧
    (∀ library ∈ libraries, ∃ item ∈ kept, library.sourcePath = item.name ∧
      library.symbolCount = item.result.1.length) ∧
    ∀ item ∈ kept, ∃ library ∈ libraries, library.sourcePath = item.name ∧
      library.contentSha256 = item.fingerprint := by
  have hall := forall₂_of_mapM h
  refine ⟨?_, fun library hlibrary => ?_, ?_⟩
  · clear h
    induction hall with
    | nil => rfl
    | cons hone _ ih => rw [List.map_cons, List.map_cons, ih, (LibraryManifest.make_spec hone).1]
  · obtain ⟨item, hitem, hmade⟩ := mem_of_mapM h hlibrary
    obtain ⟨hpath, -, hcount⟩ := LibraryManifest.make_spec hmade
    exact ⟨item, hitem, hpath, by rw [hcount, Int.toNat_natCast]⟩
  · clear h
    induction hall with
    | nil => exact fun item hitem => absurd hitem List.not_mem_nil
    | cons hone _ ih =>
      intro item hitem
      rcases List.mem_cons.mp hitem with rfl | hitem
      · obtain ⟨hpath, hdigest, -⟩ := LibraryManifest.make_spec hone
        exact ⟨_, List.mem_cons_self, hpath, hdigest⟩
      · obtain ⟨library, hlibrary, hfound⟩ := ih item hitem
        exact ⟨library, List.mem_cons_of_mem _ hlibrary, hfound⟩

/-- **The records of a build match its manifest.** -/
theorem matches_of_build (hcasefold : ∀ s, isRevision s = true → u.casefold s = s)
    (hhex : ∀ content, isSha256 (sha256 content) = true) {allowlist : List String} {built : Built}
    (h : buildArtifact u sha256 snapshot allowlist = .ok built) :
    Matches sha256 allowlist built.loaded ∧ built.content = artifactBytes built.loaded ∧
      built.content.size ≤ maxArtifactBytes ∧ ∃ indexer, validateAllowlist allowlist = .ok indexer := by
  obtain ⟨⟨loaded, stats⟩, hassembled, h⟩ := bind_eq_ok.mp h
  obtain ⟨hsize, h⟩ := seq_eq_ok.mp h
  rw [← Except.ok.inj h]
  obtain ⟨indexer, hindexer, hassembled⟩ := bind_eq_ok.mp hassembled
  obtain ⟨⟨result, cache⟩, hbuild, hassembled⟩ := bind_eq_ok.mp hassembled
  obtain ⟨-, hassembled⟩ := seq_eq_ok.mp hassembled
  obtain ⟨libraries, hlibraries, hassembled⟩ := bind_eq_ok.mp hassembled
  obtain ⟨manifest, hmanifest, hassembled⟩ := bind_eq_ok.mp hassembled
  refine ⟨?_, rfl, require_eq_ok.mp hsize, indexer, hindexer⟩
  rw [← (Prod.mk.inj (Except.ok.inj hassembled)).1]
  obtain ⟨hkept, hindex⟩ := build_spec hbuild
  obtain ⟨hvalid, hrevisions, hdistinct, hmade⟩ := SymbolIndex.make_eq_ok.mp hindex
  obtain ⟨hrevision, hsha, hcount, hlisted⟩ := ManifestArguments.make_spec hmanifest
  dsimp only at hrevision hsha hcount hlisted
  obtain ⟨hpaths, hlibrary, hitems⟩ := libraries_of_cache hlibraries
  have hnames : (cache.libraries.map fun item => item.name).Nodup := by
    rw [← hpaths, ← hlisted]
    exact manifest.canonical.1
  have hsource : manifest.sourceRevision.1 = snapshot.revision := by
    rw [hmade, commitRevision_self hcasefold ⟨snapshot.revision, hvalid⟩] at hrevision
    rw [← Except.ok.inj hrevision]
  have hrecord : ∀ record ∈ result.index.records, ∃ item ∈ cache.libraries, record ∈ item.result.1 := by
    intro record hmem
    rw [hmade] at hmem
    exact List.mem_flatMap.mp (mem_sortBy.mp hmem)
  have hspec : ∀ item ∈ cache.libraries, ∀ record ∈ item.result.1,
      record.library.1 = String.ofList (Imports.libraryName item.name) ∧
      record.sourcePath.1 = item.name ∧ record.parserVersion = parserVersion ∧
      record.sourceContentSha256 = item.fingerprint := by
    intro item hitem record hmem
    obtain ⟨-, content, hdigest, hrecords⟩ := hkept item hitem
    rw [hrecords] at hmem
    obtain ⟨hlib, hpath, hparser, hcontent⟩ := readLibrary_spec hmem
    exact ⟨hlib, hpath, hparser, hcontent.trans hdigest.symm⟩
  exact {
    revision := by rw [hsource, hmade]
    revisions := fun record hmem => by
      rw [hmade] at hmem
      rw [hsource]
      exact hrevisions record hmem
    distinct := by rw [hmade]; exact hdistinct
    ordered := by rw [hmade]; exact map_key_sortBy ..
    count := by rw [hcount, Int.toNat_natCast]
    digest := hsha.symm
    digests := fun record hmem => by
      obtain ⟨item, hitem, hin⟩ := hrecord record hmem
      obtain ⟨-, content, hdigest, -⟩ := hkept item hitem
      rw [(hspec item hitem record hin).2.2.2, hdigest]
      exact hhex content
    library := fun record hmem => by
      obtain ⟨item, hitem, hin⟩ := hrecord record hmem
      obtain ⟨-, hpath, -, hdigest⟩ := hspec item hitem record hin
      obtain ⟨library, hmem', hpath', hdigest'⟩ := hitems item hitem
      rw [← hlisted] at hmem'
      exact ⟨library, hmem', hpath'.trans hpath.symm, hdigest'.trans hdigest.symm⟩
    parser := fun record hmem => by
      obtain ⟨item, hitem, hin⟩ := hrecord record hmem
      rw [(hspec item hitem record hin).2.2.1]
      exact manifest.parser.symm
    counts := fun library hmem => by
      rw [hlisted] at hmem
      obtain ⟨item, hitem, hpath, hlength⟩ := hlibrary library hmem
      rw [hpath, hlength, hmade]
      refine (tally_perm (sortBy_perm ..) _).trans (tally_flatMap hnames ?_ hitem)
      exact fun item hitem record hin => (hspec item hitem record hin).2.1
    allowed := fun record hmem => by
      obtain ⟨item, hitem, hin⟩ := hrecord record hmem
      have hreads := (Bool.and_eq_true_iff.mp (hkept item hitem).1).2
      rw [(hspec item hitem record hin).1, ← validateAllowlist_eq_ok hindexer]
      obtain ⟨start, hstart, hprefix⟩ := List.any_eq_true.mp hreads
      exact ⟨start, hstart, by rw [String.toList_ofList]; exact List.isPrefixOf_iff_prefix.mp hprefix⟩ }

end Build

/-! ## The artifact as bytes -/

theorem regular_texts {maximum : Nat} (values : List (BoundedText maximum)) :
    Regular (textsJson values) := by
  refine .list fun item hitem => ?_
  obtain ⟨value, -, rfl⟩ := List.mem_map.mp hitem
  exact .str _

theorem regular_option {maximum : Nat} (value : Option (BoundedText maximum)) :
    Regular (optionJson value) := by
  cases value with
  | none => exact .null
  | some value => exact .str _

theorem regular_count {n : Nat} (h : n ≤ maxSymbols) : Regular (.int n) :=
  regular_natural (Nat.lt_of_le_of_lt h (by decide))

theorem regular_record (record : SymbolRecord) : Regular (.dict (recordDict record)) := by
  have hpins : Regular (.list (record.pins.map fun pin => .dict (pinDict pin))) := by
    refine .list fun item hitem => ?_
    obtain ⟨pin, -, rfl⟩ := List.mem_map.mp hitem
    have hunit : Regular (.int pin.unit) := regular_count (pin.unitValid.2.trans (by decide))
    refine .dict (by simp [pinDict]) ?_
    simp [pinDict, hunit, Regular.str]
  refine .dict (by simp [recordDict]) ?_
  simp [recordDict, hpins, regular_texts, regular_option, Regular.str, Regular.bool]

theorem regular_payload (loaded : Loaded) : Regular (payload loaded) := by
  have hlibraries : Regular (.list (loaded.manifest.libraries.map fun item => .dict item.dict)) := by
    refine .list fun item hitem => ?_
    obtain ⟨library, -, rfl⟩ := List.mem_map.mp hitem
    refine .dict (by simp [LibraryManifest.dict]) ?_
    simp [LibraryManifest.dict, regular_count library.counted, Regular.str]
  have hmanifest : Regular (.dict loaded.manifest.dict) := by
    refine .dict (by simp [Manifest.dict]) ?_
    simp [Manifest.dict, hlibraries, regular_count loaded.manifest.counted.2, Regular.str]
  have hrecords : Regular (recordsJson loaded.index.records) := by
    refine .list fun item hitem => ?_
    obtain ⟨record, -, rfl⟩ := List.mem_map.mp hitem
    exact regular_record record
  refine .dict (by simp) ?_
  simp [hmanifest, hrecords]

/-- Different values have different texts. -/
theorem canonicalJson_injective : Function.Injective canonicalJson := by
  intro v w h
  have htext : dumps v = dumps w := by
    rw [canonicalJson, canonicalJson, String.toUTF8_eq_toByteArray,
      String.toUTF8_eq_toByteArray] at h
    exact String.ofList_injective (String.toByteArray_inj.mp h)
  have hstops : Stops [] := fun _ hc => by cases hc
  have hv := loads_dumps v hstops rfl
  rw [htext, loads_dumps w hstops rfl] at hv
  exact (Option.some.inj hv).symm

/-- Different records have different texts. -/
theorem records_of_json {records records' : List SymbolRecord}
    (hdigests : ∀ record ∈ records, isSha256 record.sourceContentSha256 = true)
    (hdigests' : ∀ record ∈ records', isSha256 record.sourceContentSha256 = true)
    (h : recordsJson records = recordsJson records') : records = records' := by
  let read : Json → Except String SymbolRecord := fun value => asMapping "" value >>= recordOf
  have hread : ∀ rs : List SymbolRecord,
      (∀ record ∈ rs, isSha256 record.sourceContentSha256 = true) →
      (rs.map fun record => Json.dict (recordDict record)).mapM read = .ok rs := by
    intro rs hrs
    have hone : ∀ record ∈ rs, read (.dict (recordDict record)) = .ok (id record) :=
      fun record hrecord => bind_eq_ok.mpr
        ⟨recordDict record, asMapping_eq_ok.mpr rfl, recordOf_dict (hrs record hrecord)⟩
    have hall := mapM_map_ok hone
    rwa [List.map_id] at hall
  have hlist := Json.list.inj h
  have hread' := hread records hdigests
  rw [hlist, hread records' hdigests'] at hread'
  exact (Except.ok.inj hread').symm

section Bytes

variable {u : Unicode} {sha256 : ByteArray → String} {loads : ByteArray → Option Json}
  {allowlist : List String} {loaded loaded' : Loaded}

/-- **An artifact that matches is read back.** -/
theorem deserialize_artifact (hcasefold : ∀ s, isRevision s = true → u.casefold s = s)
    (hloads : ∀ v, Regular v → loads (canonicalJson v ++ "\n".toUTF8) = some v)
    (h : Matches sha256 allowlist loaded) {indexer : Indexer}
    (hindexer : validateAllowlist allowlist = .ok indexer)
    (hsize : (artifactBytes loaded).size ≤ maxArtifactBytes) :
    deserialize u sha256 loads (artifactBytes loaded) loaded.manifest.sourceRevision.1
      loaded.manifest.indexSha256 allowlist = .ok loaded := by
  have hne : (artifactBytes loaded).size ≠ 0 := by
    have hline : ("\n".toUTF8).size = 1 := by decide
    rw [artifactBytes, ByteArray.size_append, hline]
    omega
  have hdecoded : loads (artifactBytes loaded) = some (payload loaded) :=
    hloads _ (regular_payload loaded)
  unfold deserialize
  refine seq_eq_ok.mpr ⟨require_eq_ok.mpr ⟨hne, hsize⟩, ?_⟩
  refine bind_eq_ok.mpr ⟨_, fromSome_eq_ok.mpr hdecoded, ?_⟩
  exact readArtifact_payload hcasefold h hindexer

/-- What a content is accepted as. -/
theorem accepted_of_deserialize {content : ByteArray} {expectedRevision expectedSha256 : String}
    (h : deserialize u sha256 loads content expectedRevision expectedSha256 allowlist =
      .ok loaded) : ∃ root, loads content = some (.dict root) ∧
        Accepted u sha256 root expectedRevision expectedSha256 allowlist loaded := by
  unfold deserialize at h
  obtain ⟨-, h⟩ := seq_eq_ok.mp h
  obtain ⟨decoded, hdecoded, h⟩ := bind_eq_ok.mp h
  obtain ⟨root, rfl, haccepted⟩ := accepted_of_readArtifact h
  exact ⟨root, fromSome_eq_ok.mp hdecoded, haccepted⟩

/-- The libraries of a manifest that have no symbols. -/
def emptyLibraries (manifest : Manifest) : List LibraryManifest :=
  manifest.libraries.filter fun library => library.symbolCount = 0

/-- The manifest that a content has. -/
def declaredManifest (u : Unicode) (loads : ByteArray → Option Json) (content : ByteArray) :
    Option Manifest := do
  let decoded ← loads content
  let root ← (asMapping "kicad_index_artifact_shape_invalid" decoded).toOption
  (manifestIn u root).toOption

theorem declaredManifest_accepted {content : ByteArray} {expectedRevision expectedSha256 : String}
    (h : deserialize u sha256 loads content expectedRevision expectedSha256 allowlist =
      .ok loaded) : declaredManifest u loads content = some loaded.manifest := by
  obtain ⟨root, hroot, haccepted⟩ := accepted_of_deserialize h
  unfold declaredManifest
  rw [hroot]
  change (manifestIn u root).toOption = _
  rw [haccepted.manifest]
  rfl

/-- A library is listed by every manifest that matches the same records and has the same empty
libraries. -/
theorem mem_libraries {allowlist' : List String} (h : Matches sha256 allowlist loaded)
    (h' : Matches sha256 allowlist' loaded') (hindex : loaded.index = loaded'.index)
    (hempty : emptyLibraries loaded.manifest = emptyLibraries loaded'.manifest)
    {library : LibraryManifest} (hmem : library ∈ loaded.manifest.libraries) :
    library ∈ loaded'.manifest.libraries := by
  by_cases hcount : library.symbolCount = 0
  · have hin : library ∈ emptyLibraries loaded'.manifest :=
      hempty ▸ List.mem_filter.mpr ⟨hmem, decide_eq_true hcount⟩
    exact (List.mem_filter.mp hin).1
  · -- a record of the library gives its digest
    have hsymbols := h.counts library hmem
    have hsome : (loaded.index.records.filter fun record : SymbolRecord =>
        record.sourcePath.1 = library.sourcePath) ≠ [] := by
      intro hnone
      rw [symbolsAt, tally, hnone, List.length_nil] at hsymbols
      exact hcount hsymbols.symm
    obtain ⟨record, hfiltered⟩ := List.exists_mem_of_ne_nil _ hsome
    obtain ⟨hrecord, hdecided⟩ := List.mem_filter.mp hfiltered
    have hpath := of_decide_eq_true hdecided
    obtain ⟨own, hown, hownPath, hownDigest⟩ := h.library record hrecord
    obtain rfl : own = library := List.inj_on_of_nodup_map loaded.manifest.canonical.1 hown hmem
      (hownPath.trans hpath)
    obtain ⟨other, hother, hotherPath, hotherDigest⟩ := h'.library record (hindex ▸ hrecord)
    have hsame : other.sourcePath = own.sourcePath := hotherPath.trans hpath
    have hotherCount := h'.counts other hother
    rw [← hindex, hsame, hsymbols] at hotherCount
    have heq : own = other := LibraryManifest.ext hsame.symm
      (hownDigest.trans hotherDigest.symm) hotherCount
    exact heq ▸ hother

/-- **The records and the empty libraries determine what matches.** -/
theorem loaded_eq {allowlist' : List String} (h : Matches sha256 allowlist loaded)
    (h' : Matches sha256 allowlist' loaded') (hindex : loaded.index = loaded'.index)
    (hempty : emptyLibraries loaded.manifest = emptyLibraries loaded'.manifest) :
    loaded = loaded' := by
  have hlibraries : loaded.manifest.libraries = loaded'.manifest.libraries :=
    eq_of_sorted loaded.manifest.canonical.1 loaded'.manifest.canonical.1
      loaded.manifest.canonical.2 loaded'.manifest.canonical.2 fun library =>
        ⟨mem_libraries h h' hindex hempty, mem_libraries h' h hindex.symm hempty.symm⟩
  have hmanifest : loaded.manifest = loaded'.manifest := by
    refine Manifest.ext ?_ ?_ ?_ ?_ ?_ ?_ hlibraries
    · rw [loaded.manifest.schema, loaded'.manifest.schema]
    · rw [loaded.manifest.url, loaded'.manifest.url]
    · exact Subtype.ext (by rw [← h.revision, ← h'.revision, hindex])
    · rw [loaded.manifest.parser, loaded'.manifest.parser]
    · rw [← h.digest, ← h'.digest, hindex]
    · rw [← h.count, ← h'.count, hindex]
  cases loaded
  cases loaded'
  dsimp only at hmanifest hindex
  rw [hmanifest, hindex]

end Bytes

theorem artifactBytes_size (loaded : Loaded) :
    (artifactBytes loaded).size ≤ 4 * (dumps (payload loaded)).length + 1 := by
  have hencoded : ∀ text : List Char, (utf8Bytes text).length ≤ 4 * text.length := by
    intro text
    induction text with
    | nil => exact Nat.le_refl 0
    | cons c text ih =>
      have hone : (String.utf8EncodeChar c).length ≤ 4 := by
        rw [String.length_utf8EncodeChar]
        exact Char.utf8Size_le_four c
      rw [utf8Bytes_cons, List.length_append, List.length_cons]
      omega
  have hline : ("\n".toUTF8).size = 1 := by decide
  have hsize : (canonicalJson (payload loaded)).size =
      (utf8Bytes (dumps (payload loaded))).length := by
    rw [canonicalJson, ← toList_toUTF8, toList_eq, Array.length_toList, ByteArray.size_data]
  have hbound := hencoded (dumps (payload loaded))
  rw [artifactBytes, ByteArray.size_append, hline, hsize]
  omega

/-- **A library without symbols may be added to the manifest of any artifact.** -/
theorem Matches.padded {u : Unicode} (hcasefold : ∀ s, isRevision s = true → u.casefold s = s)
    {sha256 : ByteArray → String} {allowlist : List String} {loaded : Loaded}
    (h : Matches sha256 allowlist loaded) {void : LibraryManifest} (hvoid : void.symbolCount = 0)
    (hnone : ∀ record ∈ loaded.index.records, record.sourcePath.1 ≠ void.sourcePath)
    {manifest : Manifest} (hmanifest : ManifestArguments.make u ⟨artifactSchema, kicadRepository,
      loaded.manifest.sourceRevision.1, parserVersion.1, loaded.manifest.indexSha256,
      loaded.manifest.symbolCount, loaded.manifest.libraries ++ [void]⟩ = .ok manifest) :
    manifest.sourceRevision = loaded.manifest.sourceRevision ∧
      manifest.indexSha256 = loaded.manifest.indexSha256 ∧
      Matches sha256 allowlist ⟨manifest, loaded.index⟩ ∧
      manifest.libraries = loaded.manifest.libraries ++ [void] := by
  obtain ⟨hrevision, hsha, hcount, hlibraries⟩ := ManifestArguments.make_spec hmanifest
  dsimp only at hrevision hsha hcount hlibraries
  rw [commitRevision_self hcasefold] at hrevision
  have hsource := (Except.ok.inj hrevision).symm
  refine ⟨hsource, hsha, ?_, hlibraries⟩
  exact {
    revision := by rw [hsource, h.revision]
    revisions := by rw [hsource]; exact h.revisions
    distinct := h.distinct
    ordered := h.ordered
    count := by rw [hcount, Int.toNat_natCast]; exact h.count
    digest := by rw [hsha]; exact h.digest
    digests := h.digests
    library := fun record hrecord => by
      obtain ⟨library, hmem, hfound⟩ := h.library record hrecord
      exact ⟨library, hlibraries ▸ List.mem_append_left _ hmem, hfound⟩
    parser := fun record hrecord => by
      rw [h.parser record hrecord, manifest.parser, loaded.manifest.parser]
    counts := fun library hmem => by
      rw [hlibraries] at hmem
      rcases List.mem_append.mp hmem with hmem | hmem
      · exact h.counts library hmem
      · obtain rfl := List.mem_singleton.mp hmem
        rw [hvoid, symbolsAt, tally, List.length_eq_zero_iff, List.filter_eq_nil_iff]
        intro record hrecord
        simpa using hnone record hrecord
    allowed := h.allowed }

/-! ## Round trips and alterations -/

/-- What is promised of a built artifact and of a content that is read under its pins. -/
structure Faithful (u : Unicode) (sha256 : ByteArray → String) (loads : ByteArray → Option Json)
    (allowlist : List String) (built : Built) (content : ByteArray) : Prop where
  returned : deserialize u sha256 loads built.content built.loaded.manifest.sourceRevision.1
    built.loaded.manifest.indexSha256 allowlist = .ok built.loaded
  matched : ∀ revision digest allowlist loaded,
    deserialize u sha256 loads content revision digest allowlist = .ok loaded →
      Matches sha256 allowlist loaded
  unaltered : ∀ loaded, deserialize u sha256 loads content
    built.loaded.manifest.sourceRevision.1 built.loaded.manifest.indexSha256 allowlist =
      .ok loaded → loaded = built.loaded

/-- **What is accepted under the pins of a built artifact is that artifact iff its manifest lists
the same libraries without symbols.** The digests of the two lists of records do not collide. -/
theorem faithful_iff {u : Unicode} (hcasefold : ∀ s, isRevision s = true → u.casefold s = s)
    {sha256 : ByteArray → String} (hhex : ∀ content, isSha256 (sha256 content) = true)
    {loads : ByteArray → Option Json}
    (hloads : ∀ v, Regular v → loads (canonicalJson v ++ "\n".toUTF8) = some v)
    {snapshot : Snapshot} {allowlist : List String} {built : Built}
    (hbuilt : buildArtifact u sha256 snapshot allowlist = .ok built) {content : ByteArray}
    {loaded : Loaded} (hloaded : deserialize u sha256 loads content
      built.loaded.manifest.sourceRevision.1 built.loaded.manifest.indexSha256 allowlist =
        .ok loaded)
    (hfree : sha256 (canonicalJson (recordsJson loaded.index.records)) =
        sha256 (canonicalJson (recordsJson built.loaded.index.records)) →
      canonicalJson (recordsJson loaded.index.records) =
        canonicalJson (recordsJson built.loaded.index.records)) :
    Faithful u sha256 loads allowlist built content ↔
      (declaredManifest u loads content).map emptyLibraries =
        some (emptyLibraries built.loaded.manifest) := by
  obtain ⟨hmatches, hcontent, hsize, indexer, hindexer⟩ := matches_of_build hcasefold hhex hbuilt
  obtain ⟨root, -, haccepted⟩ := accepted_of_deserialize hloaded
  have hdeclared : (declaredManifest u loads content).map emptyLibraries =
      some (emptyLibraries loaded.manifest) := by
    rw [declaredManifest_accepted hloaded]
    rfl
  rw [hdeclared, Option.some.injEq]
  constructor
  · intro h
    rw [h.unaltered loaded hloaded]
  · intro hempty
    refine ⟨?_, ?_, ?_⟩
    · rw [hcontent] at hsize ⊢
      exact deserialize_artifact hcasefold hloads hmatches hindexer hsize
    · intro revision digest allowlist loaded h
      obtain ⟨root, -, haccepted⟩ := accepted_of_deserialize h
      exact haccepted.records
    · intro loaded' hloaded'
      obtain rfl : loaded' = loaded := Except.ok.inj (hloaded'.symm.trans hloaded)
      have hsha : indexSha256 sha256 loaded'.index.records =
          indexSha256 sha256 built.loaded.index.records := by
        rw [haccepted.records.digest, hmatches.digest, haccepted.digest]
      have hrecords : loaded'.index.records = built.loaded.index.records :=
        records_of_json haccepted.records.digests hmatches.digests
          (canonicalJson_injective (hfree hsha))
      have hrevision : loaded'.manifest.sourceRevision = built.loaded.manifest.sourceRevision := by
        have hpinned := haccepted.revision
        rw [commitRevision_self hcasefold] at hpinned
        exact (Except.ok.inj hpinned).symm
      have hindex : loaded'.index = built.loaded.index := by
        have hsource : loaded'.index.sourceRevision = built.loaded.index.sourceRevision := by
          rw [haccepted.records.revision, hmatches.revision, hrevision]
        revert hrecords hsource
        cases loaded'.index
        cases built.loaded.index
        rintro rfl rfl
        rfl
      exact loaded_eq haccepted.records hmatches hindex hempty

/-- The digests of a library, of the records of its index and of nothing. -/
def touchDigest (content : ByteArray) : String :=
  match content.data.toList.head? with
  | some 40 => "5aa5c7a6a4e5cd3ba608fab442fa5c6281cae3b5c9a520c7fe6b41784dc73702"
  | some 91 => "d235a4b52d7a6c23f6a87fde2ca4cf2a6f04463313c0b6b615c6fb1a0b08dca0"
  | _ => "e3b0c44298fc1c149afbf4c8996fb92427ae41e4649b934ca495991b7852b855"

theorem touchDigest_valid (content : ByteArray) : isSha256 (touchDigest content) = true := by
  unfold touchDigest
  split <;> decide +kernel

/-- `json.loads` of bytes. -/
def loadsBytes (content : ByteArray) : Option Json :=
  (String.fromUTF8? content).bind fun text => JsonText.loads text.toList

theorem loadsBytes_canonical (v : Json) :
    loadsBytes (canonicalJson v ++ "\n".toUTF8) = some v := by
  have hline : "\n" = String.ofList ['\n'] := by decide
  have hbytes : canonicalJson v ++ "\n".toUTF8 =
      (String.ofList (dumps v ++ ['\n'])).toByteArray := by
    rw [canonicalJson, String.toUTF8_eq_toByteArray, String.toUTF8_eq_toByteArray, hline,
      ← String.toByteArray_append, ← String.ofList_append]
  have htext : ∀ text : String, String.fromUTF8? text.toByteArray = some text := by
    intro text
    unfold String.fromUTF8?
    rw [dif_pos text.isValidUTF8]
    rfl
  have hstops : Stops ['\n'] := stops_cons (by decide)
  rw [loadsBytes, hbytes, htext, Option.bind_some, String.toList_ofList]
  exact loads_dumps v hstops (by decide)

/-- One library with one symbol. -/
def at42Snapshot : Snapshot where
  repositoryUrl := kicadRepository
  revision := "0000000000000000000000000000000000000000"
  files := [("Sensor_Touch.kicad_sym", "(kicad_symbol_lib (symbol \"at42\"))".toUTF8)]
  distinct := by decide

/-- The artifact of the library, and one whose manifest lists a library without symbols too. -/
def at42Loaded : Except String (Loaded × Loaded) := do
  let (loaded, _) ← assemble Catalog.plainUnicode touchDigest at42Snapshot ["Sensor_"]
  let void ← LibraryManifest.make "Sensor_Void.kicad_sym" (touchDigest ByteArray.empty) 0
  let manifest ← ManifestArguments.make Catalog.plainUnicode ⟨artifactSchema, kicadRepository,
    loaded.manifest.sourceRevision.1, parserVersion.1, loaded.manifest.indexSha256,
    loaded.manifest.symbolCount, loaded.manifest.libraries ++ [void]⟩
  require (∀ record ∈ loaded.index.records, record.sourcePath.1 ≠ void.sourcePath) ""
  require ((dumps (payload loaded)).length ≤ 10000) ""
  require ((dumps (payload ⟨manifest, loaded.index⟩)).length ≤ 10000) ""
  return (loaded, ⟨manifest, loaded.index⟩)

theorem at42Loaded_isOk : at42Loaded.isOk = true := by decide +kernel

theorem exists_of_isOk {α : Type} {x : Except String α} (h : x.isOk = true) :
    ∃ a, x = .ok a := by
  cases x with
  | error e => cases h
  | ok a => exact ⟨a, rfl⟩

theorem plainUnicode_casefold (s : String) (_ : isRevision s = true) :
    Catalog.plainUnicode.casefold s = s := rfl

/-- The altered artifact is accepted under the pins of the one that was built. -/
theorem at42_altered : ∃ built padded,
    buildArtifact Catalog.plainUnicode touchDigest at42Snapshot ["Sensor_"] = .ok built ∧
    deserialize Catalog.plainUnicode touchDigest loadsBytes (artifactBytes padded)
      built.loaded.manifest.sourceRevision.1 built.loaded.manifest.indexSha256 ["Sensor_"] =
        .ok padded ∧
    padded.index = built.loaded.index ∧ padded ≠ built.loaded := by
  obtain ⟨pair, h⟩ := exists_of_isOk at42Loaded_isOk
  obtain ⟨⟨loaded, stats⟩, hassembled, h⟩ := bind_eq_ok.mp h
  obtain ⟨void, hvoid, h⟩ := bind_eq_ok.mp h
  obtain ⟨manifest, hmanifest, h⟩ := bind_eq_ok.mp h
  obtain ⟨hnone, h⟩ := seq_eq_ok.mp h
  obtain ⟨hlength, h⟩ := seq_eq_ok.mp h
  obtain ⟨hlength', -⟩ := seq_eq_ok.mp h
  have hsizes : ∀ loaded : Loaded, (dumps (payload loaded)).length ≤ 10000 →
      (artifactBytes loaded).size ≤ maxArtifactBytes := by
    intro loaded hdumps
    have hmax : maxArtifactBytes = 268435456 := by decide
    have hsize := artifactBytes_size loaded
    omega
  have hsize := hsizes _ (require_eq_ok.mp hlength)
  have hbuilt : buildArtifact Catalog.plainUnicode touchDigest at42Snapshot ["Sensor_"] =
      .ok ⟨artifactBytes loaded, loaded, stats⟩ :=
    bind_eq_ok.mpr ⟨_, hassembled, seq_eq_ok.mpr ⟨require_eq_ok.mpr hsize, rfl⟩⟩
  obtain ⟨hmatches, -, -, indexer, hindexer⟩ :=
    matches_of_build plainUnicode_casefold touchDigest_valid hbuilt
  have hempty : void.symbolCount = 0 := (LibraryManifest.make_spec hvoid).2.2
  obtain ⟨hrevision, hsha, hpadded, hlibraries⟩ := Matches.padded plainUnicode_casefold hmatches
    hempty (require_eq_ok.mp hnone) hmanifest
  have hread := deserialize_artifact plainUnicode_casefold
    (fun v (_ : Regular v) => loadsBytes_canonical v) hpadded hindexer
    (hsizes _ (require_eq_ok.mp hlength'))
  rw [hrevision, hsha] at hread
  refine ⟨_, _, hbuilt, hread, rfl, fun hsame => ?_⟩
  have hlist : manifest.libraries = loaded.manifest.libraries :=
    congrArg (fun loaded : Loaded => loaded.manifest.libraries) hsame
  rw [hlibraries] at hlist
  simp at hlist

/-- The artifact of one library, read under its own pins. -/
theorem faithful_iff_at42 : ∃ built,
    buildArtifact Catalog.plainUnicode touchDigest at42Snapshot ["Sensor_"] = .ok built ∧
      (Faithful Catalog.plainUnicode touchDigest loadsBytes ["Sensor_"] built built.content ↔
        (declaredManifest Catalog.plainUnicode loadsBytes built.content).map emptyLibraries =
          some (emptyLibraries built.loaded.manifest)) := by
  obtain ⟨built, -, hbuilt, -⟩ := at42_altered
  obtain ⟨hmatches, hcontent, hsize, indexer, hindexer⟩ :=
    matches_of_build plainUnicode_casefold touchDigest_valid hbuilt
  have hloaded := deserialize_artifact plainUnicode_casefold
    (fun v (_ : Regular v) => loadsBytes_canonical v) hmatches hindexer (hcontent ▸ hsize)
  rw [← hcontent] at hloaded
  exact ⟨built, hbuilt, faithful_iff plainUnicode_casefold touchDigest_valid
    (fun v _ => loadsBytes_canonical v) hbuilt hloaded fun _ => rfl⟩

/-- An artifact whose manifest lists one more library, without symbols, is accepted. -/
theorem empty_library_altered : ¬ ∀ (u : Unicode),
    (∀ s, isRevision s = true → u.casefold s = s) → ∀ sha256 : ByteArray → String,
    (∀ content, isSha256 (sha256 content) = true) → ∀ loads : ByteArray → Option Json,
    (∀ v, Regular v → loads (canonicalJson v ++ "\n".toUTF8) = some v) →
    ∀ snapshot allowlist built, buildArtifact u sha256 snapshot allowlist = .ok built →
    ∀ content, (∀ loaded, deserialize u sha256 loads content
        built.loaded.manifest.sourceRevision.1 built.loaded.manifest.indexSha256 allowlist =
          .ok loaded →
        sha256 (canonicalJson (recordsJson loaded.index.records)) =
          sha256 (canonicalJson (recordsJson built.loaded.index.records)) →
        canonicalJson (recordsJson loaded.index.records) =
          canonicalJson (recordsJson built.loaded.index.records)) →
      Faithful u sha256 loads allowlist built content := by
  intro h
  obtain ⟨built, padded, hbuilt, hread, hindex, hne⟩ := at42_altered
  have hfaithful := h Catalog.plainUnicode plainUnicode_casefold touchDigest touchDigest_valid
    loadsBytes (fun v _ => loadsBytes_canonical v) at42Snapshot ["Sensor_"] built hbuilt
    (artifactBytes padded) (fun loaded hloaded _ => by
      rw [Except.ok.inj (hloaded.symm.trans hread), hindex])
  exact hne (hfaithful.unaltered padded hread)

end ComponentKb.Pipeline.KicadArtifact
