import ComponentKb.Catalog.Effects
import ComponentKb.Imports.Kicad
import ComponentKb.Lib.Incremental
import ComponentKb.Lib.Records
import ComponentKb.Pipeline.Enrichment
import ComponentKb.Pipeline.Resolver

/-!
# The index of the KiCad symbols

`KicadSymbolIndexer` (`enrichment/kicad_index.py`): the records of the libraries of a snapshot, and
the cache that one build leaves to the next. An error is the text that its exception has; the digest
of a file and the digest of the records are parameters, and the duration of a build is left out.

* `parseLibrary_at`: a library of another revision has the same records, in that revision.
* `build_left`: with a cache that a fresh build left, a build is a fresh one.
* **`build_eq_rebuild`**: after any builds, a build gives what a fresh indexer gives.
-/

namespace ComponentKb.Pipeline.KicadIndex

open ComponentKb.Catalog (Unicode isBlank isSlugChar isSpace joined strip)
open ComponentKb.Imports (SExpression KicadSymbolsAdapter atom childLists childValue children
  electricalOf electricalTypes head kicadRepository libraryName listAtom normalizeRepositoryUrl orText
  parseSexpression symbolPins symbolProperties)
open ComponentKb.Lib.Batch (get)
open ComponentKb.Lib ComponentKb.Lib.Incremental ComponentKb.Lib.Sorting

/-! ## Records -/

/-- A `KicadSymbolRecord` with the digest of its file. -/
structure SymbolRecord extends KicadSymbolRecord where
  sourceContentSha256 : String
  deriving DecidableEq

def makePin (number name electricalType : String) (unit : Nat) : Except String KicadPin := do
  let ⟨hnumber⟩ ← demand (Bounded 160 number) "kicad_pin_number_invalid"
  let ⟨hname⟩ ← demand (Bounded 300 name) "kicad_pin_name_invalid"
  let ⟨htype⟩ ← demand (Bounded 80 electricalType) "kicad_pin_electrical_type_invalid"
  let ⟨hunit⟩ ← demand (1 ≤ unit ∧ unit ≤ 1000) "kicad_pin_unit_invalid"
  return ⟨⟨number, hnumber⟩, ⟨name, hname⟩, ⟨electricalType, htype⟩, unit, hunit⟩

/-- The check of an optional text. -/
def boundedOption (maximum : Nat) (value : Option String) (code : String) :
    Except String (Option (BoundedText maximum)) :=
  match value with
  | none => return none
  | some value => do
    let ⟨h⟩ ← demand (Bounded maximum value) code
    return some ⟨value, h⟩

/-- The checks of a tuple of texts. -/
def boundedTexts (maximum : Nat) (values : List String) (code : String) :
    Except String { texts : List (BoundedText maximum) // texts.Nodup } := do
  let ⟨hvalues⟩ ← demand (∀ value ∈ values, Bounded maximum value) code
  let ⟨hnodup⟩ ← demand values.Nodup (code ++ "_duplicate")
  return ⟨values.attachWith _ hvalues,
    List.Nodup.of_map Subtype.val (by rwa [List.attachWith_map_subtype_val])⟩

/-- The arguments of a record that its file gives. -/
structure RecordArguments where
  library : String
  symbolName : String
  aliases : List String
  normalizedNames : List String
  description : Option String
  keywords : List String
  manufacturerHints : List String
  datasheet : Option String
  pins : List KicadPin
  footprintFilters : List String
  sourcePath : String
  isGeneric : Bool

/-- `parser_version`. -/
def parserVersion : BoundedText 40 := ⟨"kicad-index-v1.0.0", by decide +kernel⟩

/-- The constructor of a record. -/
def RecordArguments.make (a : RecordArguments) (revision digest : String) :
    Except String SymbolRecord := do
  let ⟨hlibrary⟩ ← demand (Bounded 300 a.library) "kicad_record_library_invalid"
  let ⟨hsymbol⟩ ← demand (Bounded 500 a.symbolName) "kicad_record_symbol_invalid"
  let ⟨hpath⟩ ← demand (Bounded 1000 a.sourcePath) "kicad_record_source_path_invalid"
  let ⟨hrevision⟩ ← demand (isRevision revision = true) "kicad_record_revision_invalid"
  let description ← boundedOption 10000 a.description "kicad_record_description_invalid"
  let datasheet ← boundedOption 2000 a.datasheet "kicad_record_datasheet_invalid"
  let aliases ← boundedTexts 500 a.aliases "kicad_record_alias_invalid"
  let normalizedNames ← boundedTexts 500 a.normalizedNames "kicad_record_normalized_name_invalid"
  let keywords ← boundedTexts 200 a.keywords "kicad_record_keyword_invalid"
  let manufacturerHints ← boundedTexts 300 a.manufacturerHints "kicad_record_manufacturer_invalid"
  let footprintFilters ← boundedTexts 500 a.footprintFilters "kicad_record_footprint_filter_invalid"
  let ⟨hnamed⟩ ← demand (normalizedNames.1 ≠ []) "kicad_record_normalized_names_missing"
  return {
    library := ⟨a.library, hlibrary⟩
    symbolName := ⟨a.symbolName, hsymbol⟩
    aliases := aliases.1
    normalizedNames := normalizedNames.1
    description := description
    keywords := keywords.1
    manufacturerHints := manufacturerHints.1
    datasheet := datasheet
    pins := a.pins
    footprintFilters := footprintFilters.1
    sourcePath := ⟨a.sourcePath, hpath⟩
    sourceRevision := revision
    parserVersion := parserVersion
    isGeneric := a.isGeneric
    revised := hrevision
    aliasesUnique := aliases.2
    namesUnique := normalizedNames.2
    keywordsUnique := keywords.2
    hintsUnique := manufacturerHints.2
    filtersUnique := footprintFilters.2
    named := hnamed
    sourceContentSha256 := digest }

def SymbolRecord.at (record : SymbolRecord) (revision : String) (h : isRevision revision = true) :
    SymbolRecord :=
  { record with toKicadSymbolRecord := record.toKicadSymbolRecord.at revision h }

/-- `replace(item, source_revision=revision)`: the other checks passed already. -/
def replaceRevision (revision : String) (record : SymbolRecord) : Except String SymbolRecord := do
  let ⟨h⟩ ← demand (isRevision revision = true) "kicad_record_revision_invalid"
  return record.at revision h

/-! ## The symbols of a library -/

section

variable (u : Unicode)

/-- `_split_values`, where `separates` is the class of the separators. -/
def splitValues (separates : Char → Bool) (value : String) : List String :=
  uniqueBy id ((((value.toList.splitOnP separates).map String.ofList).map strip).filter (· ≠ ""))

def isComma (c : Char) : Bool := c = ',' || c = ';' || c = '|'

/-- `_aliases`. -/
def symbolAliases (symbol : SExpression) (properties : List (String × String))
    (symbolName : String) : List String :=
  let value := orText (get properties "Value") ""
  let extended := orText (childValue symbol "extends") ""
  let candidates := (if value ≠ "" ∧ value ≠ symbolName then [value] else []) ++
    (["Aliases", "ki_aliases"].flatMap fun key =>
      splitValues isComma (orText (get properties key) "")) ++
    (if extended ≠ "" then [extended] else [])
  uniqueBy id (candidates.filter fun item => ¬ isBlank item)

/-- The loop of `_pins` over what it collected. -/
def readPin (pin : SExpression × Nat) : Except String (Option KicadPin × List String) :=
  let electrical := electricalOf pin.1
  let number := orText (childValue pin.1 "number") ""
  let name := orText (childValue pin.1 "name") ""
  let unknown := if electrical ∈ electricalTypes then []
    else ["unknown_electrical_type:" ++ truncate 80 electrical]
  if number = "" ∨ name = "" then return (none, unknown ++ ["pin_identity_missing"])
  else do
    let made ← makePin number name electrical pin.2
    return (some made, unknown)

/-- `_pins`; a unit that `int` does not read has the text of that exception. -/
def readPins (symbol : SExpression) (symbolName : String) :
    Except String (List KicadPin × List String) := do
  let collected ← (symbolPins symbol symbolName).mapError fun _ =>
    "Exceeds the limit (4300 digits) for integer string conversion"
  let read ← collected.mapM readPin
  return (read.filterMap Prod.fst, uniqueBy id (read.flatMap Prod.snd))

/-- `_GENERIC_NAMES`. -/
def genericNames : List String :=
  ["c", "capacitor", "connector", "crystal", "jumper", "l", "led", "r", "resistor"]

/-- `\d+x\d+` of `_is_generic`, for a word of lower-case letters and digits. -/
def isGrid (word : List Char) : Bool :=
  match word.splitOn 'x' with
  | [rows, columns] => rows ≠ [] && columns ≠ [] && rows.all Char.isDigit && columns.all Char.isDigit
  | _ => false

/-- `_is_generic`. -/
def isGenericName (value : String) : Bool :=
  let normalized := normalizedName u value
  let words := normalized.toList.splitOn ' '
  normalized ∈ genericNames || String.ofList (words.headD []) ∈ genericNames ||
    "connector generic".toList.isPrefixOf normalized.toList ||
    (match words with
      | [first, grid] => (first = "conn".toList || first = "connector".toList) && isGrid grid
      | _ => false)

/-- A property that is not empty. -/
def property (properties : List (String × String)) (key : String) : Option String :=
  (get properties key).filter (· ≠ "")

/-- What a symbol gives to its record. -/
def symbolArguments (path name : String) (symbol : SExpression) (pins : List KicadPin) :
    RecordArguments :=
  let properties := symbolProperties symbol
  let aliases := symbolAliases symbol properties name
  { library := String.ofList (libraryName path)
    symbolName := name
    aliases
    normalizedNames := uniqueBy id (((name :: aliases).map (normalizedName u)).filter (· ≠ ""))
    description := property properties "Description"
    keywords := splitValues (fun c => isSpace c || isComma c)
      (orText (get properties "ki_keywords") "")
    manufacturerHints := uniqueBy id
      (["Manufacturer", "Manufacturer_Name", "ki_manufacturer"].filterMap fun key =>
        (get properties key).filter fun value => ¬ isBlank value)
    datasheet := (property properties "Datasheet").filter fun value => value ≠ "~" ∧ value ≠ "-"
    pins
    footprintFilters := uniqueBy id (((childLists symbol "footprint_filters").flatMap fun group =>
      (children group).tail.filterMap atom).filter fun value => ¬ isBlank value)
    sourcePath := path
    isGeneric := isGenericName u name }

/-- The loop of `_parse_library`. -/
def readSymbol (path revision digest : String) (symbol : SExpression) :
    Except String (Option SymbolRecord × List String) :=
  match listAtom symbol 1 with
  | none => return (none, [path ++ ":symbol_name_missing"])
  | some name => do
    let (pins, warnings) ← readPins symbol name
    let record ← (symbolArguments u path name symbol pins).make revision digest
    return (some record, warnings.map fun warning => path ++ ":" ++ name ++ ":" ++ warning)

/-- `_parse_library`. -/
def parseLibrary (path : String) (content : ByteArray) (revision digest : String) :
    Except String (List SymbolRecord × List String) := do
  let root ← parseSexpression content
  require (head root = some "kicad_symbol_lib") "kicad_root_missing"
  let read ← (childLists root "symbol").mapM (readSymbol u path revision digest)
  return (read.filterMap Prod.fst, read.flatMap Prod.snd)

/-- `_safe_code`. -/
def safeCode (error : String) : String :=
  if isSourceKey error then error else "kicad_parse_failed"

/-! ## The index -/

structure SymbolIndex where
  records : List SymbolRecord
  sourceRevision : String
  deriving DecidableEq

/-- The constructor of `KicadSymbolIndex`. -/
def SymbolIndex.make (records : List SymbolRecord) (revision : String) :
    Except String SymbolIndex := do
  require (isRevision revision = true) "kicad_index_revision_invalid"
  require (∀ record ∈ records, record.sourceRevision = revision)
    "kicad_index_record_revision_mismatch"
  require (records.map fun record => record.recordId).Nodup "kicad_index_record_duplicate"
  return ⟨records, revision⟩

/-- `KicadIndexSnapshot`. -/
structure Snapshot where
  repositoryUrl : String
  revision : String
  files : List (String × ByteArray)
  distinct : (files.map Prod.fst).Nodup

/-- The records and the warnings that a build keeps of a library. -/
abbrev Library := List SymbolRecord × List String

/-- `CachedKicadLibrary`. -/
abbrev CachedLibrary := Kept String String Library

/-- `KicadIndexCache`. -/
structure Cache where
  sourceRevision : String
  libraries : List CachedLibrary
  index : SymbolIndex
  warnings : List String

/-- `KicadIndexBuildStats`. -/
structure Stats where
  parsedFiles : Nat
  reusedFiles : Nat
  removedFiles : Nat
  symbolCount : Nat
  cacheHit : Bool
  warnings : List String
  deriving DecidableEq

structure BuildResult where
  index : SymbolIndex
  stats : Stats
  deriving DecidableEq

/-- `KicadSymbolIndexer`: its constructor makes the checks of the adapter. -/
abbrev Indexer := KicadSymbolsAdapter

variable (sha256 : ByteArray → String)

/-- `source_files`, sorted by path. -/
def Snapshot.sourceFiles (indexer : Indexer) (snapshot : Snapshot) : List (String × ByteArray) :=
  sortBy Prod.fst (snapshot.files.filter fun file => indexer.reads file.1)

/-- The records and the warnings of a library that is parsed. -/
def readLibrary (revision path : String) (content : ByteArray) : Library :=
  match parseLibrary u path content revision (sha256 content) with
  | .ok library => library
  | .error error => ([], [path ++ ":" ++ safeCode error])

/-- The library that was kept, if its file did not change. -/
def unchanged (previous : List CachedLibrary) (file : String × ByteArray) : Option CachedLibrary :=
  (lookup previous file.1).filter fun item => item.fingerprint = sha256 file.2

/-- The loop of `build` for one file. -/
def keepLibrary (previous : List CachedLibrary) (revision : String) (file : String × ByteArray) :
    Except String CachedLibrary :=
  match unchanged sha256 previous file with
  | some cached => do
    let records ← cached.result.1.mapM (replaceRevision revision)
    return { cached with result := (records, cached.result.2) }
  | none => return ⟨file.1, sha256 file.2, readLibrary u sha256 revision file.1 file.2⟩

/-- `build` when the cache is not the answer. -/
def rebuild (previous : List CachedLibrary) (revision : String)
    (files : List (String × ByteArray)) : Except String (BuildResult × Cache) := do
  let libraries ← files.mapM (keepLibrary u sha256 previous revision)
  let index ← SymbolIndex.make
    (sortBy (fun record : SymbolRecord => record.recordId)
      (libraries.flatMap fun library => library.result.1)) revision
  let warnings := uniqueBy id (libraries.flatMap fun library => library.result.2)
  let reused := (files.filter fun file => (unchanged sha256 previous file).isSome).length
  let removed := (previous.filter fun item => item.name ∉ files.map Prod.fst).length
  return (⟨index, ⟨files.length - reused, reused, removed, index.records.length, false, warnings⟩⟩,
    ⟨revision, libraries, index, warnings⟩)

/-- The cache is of the revision and of the files. -/
def Cache.Hits (cache : Cache) (revision : String) (files : List (String × ByteArray)) : Prop :=
  cache.sourceRevision = revision ∧
    (cache.libraries.map fun item => (item.name, item.fingerprint)).Perm
      (files.map fun file => (file.1, sha256 file.2))

instance (cache : Cache) (revision : String) (files : List (String × ByteArray)) :
    Decidable (cache.Hits sha256 revision files) :=
  inferInstanceAs (Decidable (_ ∧ _))

/-- `build`: the result, and the cache that it leaves. -/
def build (indexer : Indexer) (cache : Option Cache) (snapshot : Snapshot) :
    Except String (BuildResult × Cache) := do
  let url ← normalizeRepositoryUrl snapshot.repositoryUrl
  require (url = kicadRepository) "kicad_index_repository_invalid"
  let files := snapshot.sourceFiles indexer
  match cache with
  | none => rebuild u sha256 [] snapshot.revision files
  | some cache =>
    if cache.Hits sha256 snapshot.revision files then
      return (⟨cache.index, ⟨0, files.length, 0, cache.index.records.length, true, cache.warnings⟩⟩,
        cache)
    else rebuild u sha256 cache.libraries snapshot.revision files

/-- The cache after a build; one that fails leaves it. -/
def after (indexer : Indexer) (cache : Option Cache) (snapshot : Snapshot) : Option Cache :=
  match build u sha256 indexer cache snapshot with
  | .ok (_, left) => some left
  | .error _ => cache

end

/-! ## Another revision -/

section Revisions

variable {u : Unicode} {revision revision' : String}

theorem map_bind_except {ε α β γ : Type} (x : Except ε α) (g : α → Except ε β) (f : β → γ) :
    (x >>= g).map f = x >>= fun a => (g a).map f := by
  cases x <;> rfl

theorem mapM_map_except {ε α β γ : Type} {f : α → Except ε β} {f' : α → Except ε γ} {g : β → γ}
    (h : ∀ a, f' a = (f a).map g) (xs : List α) : xs.mapM f' = (xs.mapM f).map (List.map g) := by
  induction xs with
  | nil => rfl
  | cons x xs ih =>
    rw [List.mapM_cons, List.mapM_cons, h, ih]
    cases f x with
    | error e => rfl
    | ok y => cases xs.mapM f <;> rfl

theorem demand_met {p : Prop} [Decidable p] (h : p) (e : String) : demand p e = .ok ⟨h⟩ := dif_pos h

theorem RecordArguments.make_at (a : RecordArguments) (digest : String)
    (h : isRevision revision = true) (h' : isRevision revision' = true) :
    a.make revision' digest = (a.make revision digest).map fun record => record.at revision' h' := by
  unfold RecordArguments.make
  rw [demand_met h, demand_met h']
  simp only [map_bind_except, Records.ok_bind]
  rfl

theorem readSymbol_at (path digest : String) (h : isRevision revision = true)
    (h' : isRevision revision' = true) (symbol : SExpression) :
    readSymbol u path revision' digest symbol = (readSymbol u path revision digest symbol).map
      fun read => (read.1.map fun record => record.at revision' h', read.2) := by
  unfold readSymbol
  split
  · rfl
  · rename_i name _
    cases readPins symbol name with
    | error e => rfl
    | ok pins =>
      simp only [Records.ok_bind]
      rw [RecordArguments.make_at _ digest h h']
      cases (symbolArguments u path name symbol pins.1).make revision digest with
      | error e => rfl
      | ok record => rfl

/-- **The revision is all that another revision changes in a library.** -/
theorem parseLibrary_at (path digest : String) (content : ByteArray)
    (h : isRevision revision = true) (h' : isRevision revision' = true) :
    parseLibrary u path content revision' digest =
      (parseLibrary u path content revision digest).map fun library =>
        (library.1.map fun record => record.at revision' h', library.2) := by
  unfold parseLibrary
  cases parseSexpression content with
  | error e => rfl
  | ok root =>
    simp only [Records.ok_bind]
    cases require (head root = some "kicad_symbol_lib") "kicad_root_missing" with
    | error e => rfl
    | ok found =>
      simp only [Records.ok_bind]
      rw [mapM_map_except (readSymbol_at path digest h h') _]
      cases (childLists root "symbol").mapM (readSymbol u path revision digest) with
      | error e => rfl
      | ok read =>
        have hrecords : (read.map fun item =>
            (item.1.map fun record => record.at revision' h', item.2)).filterMap Prod.fst =
            (read.filterMap Prod.fst).map fun record => record.at revision' h' := by
          rw [List.filterMap_map, List.map_filterMap]
          rfl
        have hwarnings : (read.map fun item =>
            (item.1.map fun record => record.at revision' h', item.2)).flatMap Prod.snd =
            read.flatMap Prod.snd := by
          rw [List.flatMap_map]
        simp only [Except.map, Records.ok_bind, hrecords, hwarnings]
        rfl

end Revisions

/-! ## Builds -/

section Builds

variable {u : Unicode} {sha256 : ByteArray → String} {indexer : Indexer}

/-- A revision that records may have. -/
abbrev Revision := { revision : String // isRevision revision = true }

/-- A library in another revision. -/
def moved (revision : Revision) (library : Library) : Library :=
  (library.1.map fun record => record.at revision.1 revision.2, library.2)

variable (u sha256) in
/-- `readLibrary` in a valid revision. -/
def readIn (revision : Revision) (path : String) (content : ByteArray) : Library :=
  readLibrary u sha256 revision.1 path content

theorem moved_readIn (revision revision' : Revision) (path : String) (content : ByteArray) :
    moved revision' (readIn u sha256 revision path content) =
      readIn u sha256 revision' path content := by
  unfold readIn readLibrary
  rw [parseLibrary_at path (sha256 content) content revision.2 revision'.2]
  cases parseLibrary u path content revision.1 (sha256 content) with
  | error e => rfl
  | ok library => rfl

theorem mapM_replaceRevision (revision : Revision) (records : List SymbolRecord) :
    records.mapM (replaceRevision revision.1) =
      .ok (records.map fun record => record.at revision.1 revision.2) := by
  induction records with
  | nil => rfl
  | cons record records ih =>
    have hone : replaceRevision revision.1 record = .ok (record.at revision.1 revision.2) := by
      unfold replaceRevision
      rw [demand_met revision.2]
      rfl
    rw [List.mapM_cons, hone, ih]
    rfl

/-- In a valid revision, the loop takes over what did not change. -/
theorem mapM_keepLibrary (previous : List CachedLibrary) (revision : Revision)
    (files : List (String × ByteArray)) :
    files.mapM (keepLibrary u sha256 previous revision.1) =
      .ok (files.map (refreshed (readIn u sha256) moved sha256 previous revision)) := by
  have hone : ∀ file, keepLibrary u sha256 previous revision.1 file =
      .ok (refreshed (readIn u sha256) moved sha256 previous revision file) := by
    intro file
    unfold keepLibrary refreshed unchanged
    cases (lookup previous file.1).filter fun item => item.fingerprint = sha256 file.2 with
    | none => rfl
    | some cached =>
      simp only [mapM_replaceRevision]
      rfl
  induction files with
  | nil => rfl
  | cons file files ih =>
    rw [List.mapM_cons, hone, ih]
    rfl

/-- What is seen of a build: its index, its warnings and the cache it leaves. -/
def observed (built : BuildResult × Cache) : SymbolIndex × List String × Cache :=
  (built.1.index, built.1.stats.warnings, built.2)

/-- A build of libraries. -/
def builtOf (libraries : List CachedLibrary) (revision : String) :
    Except String (SymbolIndex × List String × Cache) := do
  let index ← SymbolIndex.make
    (sortBy (fun record : SymbolRecord => record.recordId)
      (libraries.flatMap fun library => library.result.1)) revision
  let warnings := uniqueBy id (libraries.flatMap fun library => library.result.2)
  return (index, warnings, ⟨revision, libraries, index, warnings⟩)

theorem rebuild_observed (previous : List CachedLibrary) (revision : Revision)
    (files : List (String × ByteArray)) :
    (rebuild u sha256 previous revision.1 files).map observed =
      builtOf (files.map (refreshed (readIn u sha256) moved sha256 previous revision))
        revision.1 := by
  unfold rebuild builtOf
  rw [mapM_keepLibrary]
  simp only [Records.ok_bind, map_bind_except]
  rfl

theorem rebuild_revision {previous : List CachedLibrary} {revision : String}
    {files : List (String × ByteArray)} {built : BuildResult × Cache}
    (h : rebuild u sha256 previous revision files = .ok built) : isRevision revision = true := by
  obtain ⟨libraries, -, h⟩ := bind_eq_ok.mp h
  obtain ⟨index, hindex, -⟩ := bind_eq_ok.mp h
  exact require_eq_ok.mp (seq_eq_ok.mp hindex).1

theorem fresh_observed (revision : Revision) (files : List (String × ByteArray)) :
    (rebuild u sha256 [] revision.1 files).map observed =
      builtOf (fresh (readIn u sha256) sha256 revision files) revision.1 := by
  rw [rebuild_observed, map_refreshed_nil]

theorem builtOf_cache {libraries : List CachedLibrary} {revision : String} {index : SymbolIndex}
    {warnings : List String} {cache : Cache}
    (h : builtOf libraries revision = .ok (index, warnings, cache)) :
    cache = ⟨revision, libraries, index, warnings⟩ := by
  obtain ⟨made, -, h⟩ := bind_eq_ok.mp h
  obtain ⟨hindex, hrest⟩ := Prod.mk.inj (Except.ok.inj h)
  obtain ⟨hwarnings, hcache⟩ := Prod.mk.inj hrest
  rw [← hcache, hindex, hwarnings]

/-- A cache that a fresh build leaves. -/
def Left (u : Unicode) (sha256 : ByteArray → String) (indexer : Indexer) (cache : Cache) : Prop :=
  ∃ snapshot result, build u sha256 indexer none snapshot = .ok (result, cache)

/-- What a fresh build of a snapshot leaves. -/
structure Left.Of (u : Unicode) (sha256 : ByteArray → String) (indexer : Indexer) (cache : Cache)
    (snapshot : Snapshot) (revision : Revision) : Prop where
  sourceRevision : cache.sourceRevision = revision.1
  libraries : cache.libraries =
    fresh (readIn u sha256) sha256 revision (snapshot.sourceFiles indexer)
  built : builtOf cache.libraries revision.1 = .ok (cache.index, cache.warnings, cache)

theorem Left.of {cache : Cache} (h : Left u sha256 indexer cache) :
    ∃ snapshot revision, Left.Of u sha256 indexer cache snapshot revision := by
  obtain ⟨snapshot, result, h⟩ := h
  obtain ⟨url, -, h⟩ := bind_eq_ok.mp h
  have hrebuild : rebuild u sha256 [] snapshot.revision (snapshot.sourceFiles indexer) =
      .ok (result, cache) := (seq_eq_ok.mp h).2
  let revision : Revision := ⟨snapshot.revision, rebuild_revision hrebuild⟩
  have hbuilt : builtOf (fresh (readIn u sha256) sha256 revision (snapshot.sourceFiles indexer))
      revision.1 = .ok (observed (result, cache)) := by
    rw [← fresh_observed, hrebuild]
    rfl
  have hcache : cache = ⟨revision.1,
      fresh (readIn u sha256) sha256 revision (snapshot.sourceFiles indexer), result.index,
      result.stats.warnings⟩ := builtOf_cache hbuilt
  refine ⟨snapshot, revision, by rw [hcache], by rw [hcache], ?_⟩
  rw [show cache.libraries = _ from by rw [hcache], hbuilt, observed]
  rw [show cache.index = result.index from by rw [hcache],
    show cache.warnings = result.stats.warnings from by rw [hcache]]

theorem toOption_map {ε α β : Type} (x : Except ε α) (f : α → β) :
    (x.map f).toOption = x.toOption.map f := by
  cases x <;> rfl

theorem sourceFiles_nodup (snapshot : Snapshot) :
    ((snapshot.files.filter fun file => indexer.reads file.1).map Prod.fst).Nodup :=
  snapshot.distinct.sublist (List.filter_sublist.map Prod.fst)

/-- A cache that hits is of the same files. -/
theorem Left.Of.sourceFiles {cache : Cache} {old snapshot : Snapshot} {revision : Revision}
    (h : Left.Of u sha256 indexer cache old revision) (hsha : Function.Injective sha256)
    (hhits : cache.Hits sha256 snapshot.revision (snapshot.sourceFiles indexer)) :
    old.sourceFiles indexer = snapshot.sourceFiles indexer := by
  have hperm : ((old.sourceFiles indexer).map fun file => (file.1, sha256 file.2)).Perm
      ((snapshot.sourceFiles indexer).map fun file => (file.1, sha256 file.2)) := by
    have hkept := hhits.2
    rw [h.libraries, fresh, List.map_map] at hkept
    exact hkept
  have hsorted := fun s : Snapshot =>
    (sortBy_perm Prod.fst (s.files.filter fun file => indexer.reads file.1)).map
      fun file => (file.1, sha256 file.2)
  exact sortBy_fingerprints hsha (sourceFiles_nodup old)
    (((hsorted old).symm.trans hperm).trans (hsorted snapshot))

/-- **A build with a cache that a fresh build left is a fresh build.** -/
theorem build_left {cache : Cache} (h : Left u sha256 indexer cache)
    (hsha : Function.Injective sha256) (snapshot : Snapshot) :
    (build u sha256 indexer (some cache) snapshot).toOption.map observed =
      (build u sha256 indexer none snapshot).toOption.map observed := by
  obtain ⟨old, revision, hleft⟩ := h.of
  unfold build
  cases normalizeRepositoryUrl snapshot.repositoryUrl with
  | error e => rfl
  | ok url =>
    simp only [Records.ok_bind]
    cases require (url = kicadRepository) "kicad_index_repository_invalid" with
    | error e => rfl
    | ok found =>
      simp only [Records.ok_bind]
      by_cases hhits : cache.Hits sha256 snapshot.revision (snapshot.sourceFiles indexer)
      · -- the cache is what the fresh build would leave
        have hrevision : snapshot.revision = revision.1 := hhits.1.symm.trans hleft.sourceRevision
        have hbuilt := hleft.built
        rw [hleft.libraries, hleft.sourceFiles hsha hhits, ← fresh_observed, ← hrevision] at hbuilt
        rw [if_pos hhits, ← toOption_map _ observed, ← toOption_map _ observed, hbuilt]
        rfl
      · rw [if_neg hhits]
        by_cases hrevision : isRevision snapshot.revision = true
        · have hrebuild := @rebuild_observed u sha256 cache.libraries
            ⟨snapshot.revision, hrevision⟩ (snapshot.sourceFiles indexer)
          rw [hleft.libraries, refresh_fresh hsha (moved_readIn revision ⟨_, hrevision⟩),
            ← fresh_observed] at hrebuild
          rw [← toOption_map, ← toOption_map, hleft.libraries, hrebuild]
        · have hnone : ∀ previous, (rebuild u sha256 previous snapshot.revision
              (snapshot.sourceFiles indexer)).toOption = none := by
            intro previous
            cases hbuilt : rebuild u sha256 previous snapshot.revision
              (snapshot.sourceFiles indexer) with
            | error e => rfl
            | ok built => exact absurd (rebuild_revision hbuilt) hrevision
          rw [hnone, hnone]

/-- A build leaves a cache that a fresh build leaves. -/
theorem after_left (hsha : Function.Injective sha256) {cache : Option Cache}
    (h : ∀ kept ∈ cache, Left u sha256 indexer kept) (snapshot : Snapshot) :
    ∀ kept ∈ after u sha256 indexer cache snapshot, Left u sha256 indexer kept := by
  unfold after
  cases hbuild : build u sha256 indexer cache snapshot with
  | error e => exact h
  | ok built =>
    rintro kept ⟨⟩
    cases cache with
    | none => exact ⟨snapshot, built.1, hbuild⟩
    | some cache =>
      have hleft := build_left (h cache rfl) hsha snapshot
      rw [hbuild] at hleft
      obtain ⟨⟨result, left⟩, hfresh, hsame⟩ := Option.map_eq_some_iff.mp hleft.symm
      have hkept : left = built.2 := congrArg (fun seen => seen.2.2) hsame
      exact ⟨snapshot, result, hkept ▸ Catalog.toOption_eq_some.mp hfresh⟩

theorem run_left (hsha : Function.Injective sha256) (snapshots : List Snapshot)
    {cache : Option Cache} (h : ∀ kept ∈ cache, Left u sha256 indexer kept) :
    ∀ kept ∈ snapshots.foldl (after u sha256 indexer) cache, Left u sha256 indexer kept := by
  induction snapshots generalizing cache with
  | nil => exact h
  | cons snapshot snapshots ih =>
    have hafter := after_left hsha h snapshot
    rw [List.foldl_cons]
    exact ih hafter

end Builds

/-! ## The index after builds -/

/-- What a caller gets, but for the statistics. -/
structure Seen where
  records : List SymbolRecord
  sourceRevision : String
  indexSha256 : String
  warnings : List String
  deriving DecidableEq

/-- `digest` is the SHA-256 of the records as JSON. -/
def BuildResult.seen (digest : List SymbolRecord → String) (result : BuildResult) : Seen where
  records := result.index.records
  sourceRevision := result.index.sourceRevision
  indexSha256 := digest result.index.records
  warnings := result.stats.warnings

/-- **After any builds, a build gives what a fresh indexer gives.** -/
theorem build_eq_rebuild (u : Unicode) {sha256 : ByteArray → String}
    (hsha : Function.Injective sha256) (digest : List SymbolRecord → String) (indexer : Indexer)
    (snapshots : List Snapshot) (last : Snapshot) :
    (build u sha256 indexer (snapshots.foldl (after u sha256 indexer) none) last).toOption.map
        (fun built => built.1.seen digest) =
      (build u sha256 indexer none last).toOption.map fun built => built.1.seen digest := by
  cases hcache : snapshots.foldl (after u sha256 indexer) none with
  | none => rfl
  | some cache =>
    have hleft : Left u sha256 indexer cache :=
      run_left hsha snapshots (by rintro _ ⟨⟩) cache hcache
    have hsame := build_left hleft hsha last
    let seen : SymbolIndex × List String × Cache → Seen := fun o =>
      ⟨o.1.records, o.1.sourceRevision, digest o.1.records, o.2.1⟩
    have hseen : (fun built : BuildResult × Cache => built.1.seen digest) = seen ∘ observed := rfl
    rw [hseen, ← Option.map_map, ← Option.map_map, hsame]

/-- Bytes as the characters of their numbers. -/
def byteText (content : ByteArray) : String :=
  String.ofList (content.data.toList.map fun byte => Char.ofNat byte.toNat)

theorem byteText_injective : Function.Injective byteText := by
  have hchar : Function.Injective fun byte : UInt8 => Char.ofNat byte.toNat := by
    have hall : ∀ n : Fin 256, (Char.ofNat n).toNat = n := by decide +kernel
    intro a b h
    have hnat := congrArg Char.toNat h
    simp only [hall ⟨a.toNat, a.toNat_lt⟩, hall ⟨b.toNat, b.toNat_lt⟩] at hnat
    exact UInt8.toNat_inj.mp hnat
  intro content content' h
  have hlist := List.map_injective_iff.mpr hchar (String.ofList_injective h)
  exact ByteArray.ext (Array.toList_inj.mp hlist)

/-- One library. -/
def touchSnapshot : Snapshot where
  repositoryUrl := kicadRepository
  revision := "0000000000000000000000000000000000000000"
  files := [("Sensor_Touch.kicad_sym",
    "(kicad_symbol_lib (symbol \"AT42\" (property \"Value\" \"AT42\")))".toUTF8)]
  distinct := by decide

theorem build_eq_rebuild_touch :
    (build Catalog.plainUnicode byteText Imports.sensorAdapter
        ([touchSnapshot].foldl (after Catalog.plainUnicode byteText Imports.sensorAdapter) none)
        touchSnapshot).toOption.map (fun built => built.1.seen fun _ => "") =
      (build Catalog.plainUnicode byteText Imports.sensorAdapter none touchSnapshot).toOption.map
        fun built => built.1.seen fun _ => "" :=
  build_eq_rebuild Catalog.plainUnicode byteText_injective (fun _ => "") Imports.sensorAdapter
    [touchSnapshot] touchSnapshot

end ComponentKb.Pipeline.KicadIndex
