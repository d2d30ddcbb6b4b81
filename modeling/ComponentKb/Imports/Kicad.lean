import ComponentKb.Catalog.World
import ComponentKb.Imports.Job
import ComponentKb.Imports.Sexpr
import ComponentKb.Imports.Urls
import ComponentKb.Lib.Batch
import Mathlib

/-!
# KiCad symbols, as they are listed and as they are parsed

`KicadSymbolsAdapter` (`imports/adapters/kicad_symbols.py`) over one snapshot of a repository
(`imports/repository_domain.py`). `discover` walks all files and makes a `RepositoryEntry` of each
named symbol; `parse_entry` takes one entry, reads its file again and looks its symbol up by name.

* `discover_eq`: `discover` goes through the symbols that are asked for, file by file.
* `discover_ok_iff`, `discover_keys`: when it returns, and what.
* `parses_iff`: which entries `parse_entry` accepts.
* **`agrees_iff`**: the two agree on a snapshot iff it is regular: no name among the first 500
  symbols is blank or comes twice in its file, and the unit numbers can be read.
-/

namespace ComponentKb.Imports

open Catalog Lib Lib.Batch Lib.Brackets

/-! ## Snapshots and entries -/

/-- `_COMMIT_SHA` of the normalised text. -/
def requireCommitSha (u : Unicode) (value : String) : Except String String :=
  let normalized := u.casefold (strip value)
  if normalized.length = 40 ∧
      normalized.toList.all (fun c => c.isDigit || ('a' ≤ c && c ≤ 'f')) then
    .ok normalized
  else .error "source_revision_must_be_full_commit_sha"

/-- `normalize_repository_url`. -/
def normalizeRepositoryUrl (value : String) : Except String String :=
  let normalized := (strip value).toList.reverse.dropWhile (· = '/') |>.reverse
  let normalized :=
    if ".git".toList.isSuffixOf normalized then normalized.take (normalized.length - 4)
    else normalized
  if "https://".toList.isPrefixOf normalized then .ok (String.ofList normalized)
  else .error "repository_url_must_use_https"

/-- `normalize_repository_path`. A path without empty, `.` and `..` parts is left as it is by
`posixpath.normpath`. -/
def normalizeRepositoryPath (value : String) : Except String String := do
  require (value ≠ "" ∧ value.length ≤ 1000 ∧ '\\' ∉ value.toList ∧ value.toList.head? ≠ some '/' ∧
    ∀ c ∈ value.toList, 32 ≤ c.toNat ∧ c.toNat ≠ 127) "repository_path_invalid"
  let parts := value.toList.splitOn '/'
  require ("..".toList ∉ parts) "repository_path_outside_snapshot"
  require ([] ∉ parts ∧ ".".toList ∉ parts) "repository_path_invalid"
  return value

/-- `RepositorySnapshot`: its URL, its revision and its paths are normalised, and its files are
bounded. -/
structure RepositorySnapshot (u : Unicode) where
  repositoryUrl : String
  revision : String
  files : List (String × ByteArray)
  url : ∃ value, normalizeRepositoryUrl value = .ok repositoryUrl
  sha : requireCommitSha u revision = .ok revision
  paths : (files.map Prod.fst).Nodup
  normalized : ∀ file ∈ files, normalizeRepositoryPath file.1 = .ok file.1
  sizes : ∀ file ∈ files, file.2.size ≤ 2 * 1024 * 1024
  count : files.length ≤ 10000

variable {u : Unicode}

/-- `RepositorySnapshot.read`. -/
def RepositorySnapshot.read (snapshot : RepositorySnapshot u) (path : String) :
    Except String ByteArray := do
  let path ← normalizeRepositoryPath path
  fromSome (get snapshot.files path) "repository_file_not_found"

/-- `RepositoryEntry`: its path is normalised and its name is not blank. -/
structure RepositoryEntry where
  filePath : String
  entryName : Option String
  title : Option String
  normalized : normalizeRepositoryPath filePath = .ok filePath
  named : ∀ name ∈ entryName, ¬ isBlank name

theorem normalizeRepositoryPath_eq {value path : String}
    (h : normalizeRepositoryPath value = .ok path) : path = value := by
  unfold normalizeRepositoryPath at h
  obtain ⟨-, h⟩ := seq_eq_ok.mp h
  obtain ⟨-, h⟩ := seq_eq_ok.mp h
  obtain ⟨-, h⟩ := seq_eq_ok.mp h
  exact (Except.ok.inj h).symm

/-- The constructor of `RepositoryEntry`. -/
def RepositoryEntry.make (filePath : String) (entryName title : Option String) :
    Except String RepositoryEntry :=
  match hpath : normalizeRepositoryPath filePath with
  | .error error => .error error
  | .ok path =>
    if hname : ∀ name ∈ entryName, ¬ isBlank name then
      .ok ⟨path, entryName, title, (normalizeRepositoryPath_eq hpath).symm ▸ hpath, hname⟩
    else .error "repository_entry_name_blank"

/-! ## S-expressions -/

/-- `SExpression.atom`. -/
def atom : SExpression → Option String
  | .atom value => some value
  | .list _ => none

/-- `SExpression.children`. -/
def children : SExpression → List SExpression
  | .atom _ => []
  | .list items => items

/-- `head`. -/
def head (expression : SExpression) : Option String := (children expression).head?.bind atom

/-- `child_lists`. -/
def childLists (expression : SExpression) (name : String) : List SExpression :=
  (children expression).tail.filter fun child => head child = some name

/-- `_list_atom`. -/
def listAtom (expression : SExpression) (index : Nat) : Option String :=
  (children expression)[index]?.bind atom

/-- `child_value`. -/
def childValue (expression : SExpression) (name : String) : Option String :=
  (childLists expression name).head?.bind fun found => listAtom found 1

/-! ## The adapter -/

def kicadRepository : String := "https://gitlab.com/kicad/libraries/kicad-symbols"

/-- `_ELECTRICAL_TYPES`. -/
def electricalTypes : List String :=
  ["input", "output", "bidirectional", "tri_state", "passive", "free", "unspecified", "power_in",
   "power_out", "open_collector", "open_emitter", "no_connect"]

/-- `KicadSymbolsAdapter`, with the allowlist that its constructor accepts. -/
structure KicadSymbolsAdapter where
  libraryAllowlist : List String
  allowlist_ne : libraryAllowlist ≠ []
  allowlist_count : libraryAllowlist.length ≤ 50
  allowlist_valid : ∀ value ∈ libraryAllowlist, value ≠ "" ∧ value.length ≤ 80 ∧
    '/' ∉ value.toList ∧ '\\' ∉ value.toList

/-- `value.endswith(suffix)`. -/
def endsWith (suffix : String) (value : List Char) : Bool := suffix.toList.isSuffixOf value

/-- `PurePosixPath.stem` of the last part. -/
def stem (name : List Char) : List Char :=
  let tail := name.reverse.takeWhile (· ≠ '.')
  let i := name.length - tail.length - 1
  if tail ≠ [] ∧ tail.length < name.length ∧ 0 < i then name.take i else name

/-- `_library_name`. -/
def libraryName (path : String) : List Char :=
  let parts := path.toList.splitOn '/'
  let directory := (parts.find? (endsWith ".kicad_symdir")).map fun part =>
    part.take (part.length - 13)
  match directory with
  | some (c :: cs) => c :: cs
  | _ => stem (parts.getLast?.getD [])

/-- `_library_allowed`. -/
def KicadSymbolsAdapter.libraryAllowed (a : KicadSymbolsAdapter) (path : String) : Bool :=
  a.libraryAllowlist.any fun allowed => allowed.toList.isPrefixOf (libraryName path)

/-- `_category`. -/
def kicadCategory (library : List Char) : String :=
  let table : List (List String × String) :=
    [(["Sensor_"], "sensors"), (["Display_", "LED"], "displays"),
     (["Relay", "Motor", "Driver_Motor"], "actuators"), (["Switch"], "input"),
     (["Regulator_"], "power"), (["Interface_"], "communication"), (["Connector"], "prototyping"),
     (["MCU_", "74xx", "Timer", "Memory"], "integrated-circuits"),
     (["Transistor_", "Transistor_Array", "Diode"], "semiconductors")]
  ((table.find? fun row => row.1.any fun start => start.toList.isPrefixOf library).map
    Prod.snd).getD "other"

/-- `_validate_snapshot`. -/
def validateSnapshot (snapshot : RepositorySnapshot u) : Except String Unit := do
  let url ← normalizeRepositoryUrl snapshot.repositoryUrl
  require (url = kicadRepository) "repository_not_registered"
  let _ ← requireCommitSha u snapshot.revision

/-- The files that an adapter reads. -/
def KicadSymbolsAdapter.reads (a : KicadSymbolsAdapter) (path : String) : Bool :=
  endsWith ".kicad_sym" path.toList && a.libraryAllowed path

/-- The root of a file. -/
def readRoot (snapshot : RepositorySnapshot u) (path : String) : Except String SExpression :=
  snapshot.read path >>= parseSexpression

/-! ## `discover` -/

/-- `needle in text`. -/
def contains (needle text : String) : Bool := decide (needle.toList <:+: text.toList)

/-- `min(max(limit, 1), 500)`. -/
def cap (limit : Int) : Nat := (min (max limit 1) 500).toNat

/-- `(query or "").strip().casefold()`. -/
def needle (u : Unicode) (query : Option String) : String :=
  let text := strip (query.getD "")
  if text = "" then "" else u.casefold text

/-- A symbol is asked for. -/
def wanted (u : Unicode) (needle path name : String) : Bool :=
  needle = "" || contains needle (u.casefold (path ++ " " ++ name))

/-- The loop of `discover` over the symbols of one file, and whether it returned. -/
def listSymbols (u : Unicode) (needle path : String) (cap : Nat) (entries : List RepositoryEntry) :
    List SExpression → Except String (Bool × List RepositoryEntry)
  | [] => .ok (false, entries)
  | symbol :: rest =>
    match listAtom symbol 1 with
    | none => listSymbols u needle path cap entries rest
    | some name =>
      if ¬ wanted u needle path name then listSymbols u needle path cap entries rest
      else do
        let entry ← RepositoryEntry.make path (some name) (some name)
        if cap ≤ entries.length + 1 then return (true, entries ++ [entry])
        else listSymbols u needle path cap (entries ++ [entry]) rest

/-- The loop of `discover` over the files. -/
def listFiles (a : KicadSymbolsAdapter) (snapshot : RepositorySnapshot u)
    (needle : String) (cap : Nat) (entries : List RepositoryEntry) :
    List String → Except String (List RepositoryEntry)
  | [] => .ok entries
  | path :: rest =>
    if ¬ a.reads path then listFiles a snapshot needle cap entries rest
    else
      match readRoot snapshot path with
      | .error _ => listFiles a snapshot needle cap entries rest
      | .ok root =>
        if head root ≠ some "kicad_symbol_lib" then listFiles a snapshot needle cap entries rest
        else do
          let (returned, entries) ←
            listSymbols u needle path cap entries (childLists root "symbol")
          if returned then return entries
          else listFiles a snapshot needle cap entries rest

/-- `sorted(snapshot.files)`. -/
def sortedPaths (snapshot : RepositorySnapshot u) : List String :=
  (snapshot.files.map Prod.fst).insertionSort fun a b => a.toList ≤ b.toList

/-- `discover`. -/
def discover (a : KicadSymbolsAdapter) (snapshot : RepositorySnapshot u)
    (query : Option String) (limit : Int) : Except String (List RepositoryEntry) := do
  validateSnapshot snapshot
  listFiles a snapshot (needle u query) (cap limit) [] (sortedPaths snapshot)

/-! ## `parse_entry` -/

structure Pin where
  number : String
  name : String
  electricalType : String
  unit : Nat
  deriving DecidableEq, Repr

/-- A value of `normalized_fields`. -/
inductive FieldValue where
  | text (s : String)
  | texts (items : List String)
  | pins (pins : List Pin)
  deriving DecidableEq, Repr

inductive Confidence where
  | high | medium | low
  deriving DecidableEq, Repr

structure FieldProvenance where
  repositoryUrl : String
  sourceRevision : String
  sourceFilePath : String
  sectionOrProperty : String
  confidence : Confidence
  transformation : String
  deriving DecidableEq, Repr

/-- `ParsedRepositoryComponent`; the source, the parser, the licence and the notice are the
adapter's own. -/
structure ParsedRepositoryComponent where
  sourceRevision : String
  sourceTag : Option String
  sourceFilePath : String
  sourceEntryName : Option String
  originalUrl : String
  parsedAt : Time
  status : ParseStatus
  normalizedFields : List (String × FieldValue)
  provenance : List (String × List FieldProvenance)
  attribution : String
  warnings : List String
  deriving DecidableEq, Repr

/-- `PARSED` and `PARSED_WITH_WARNINGS`. -/
def ParseStatus.isParsed : ParseStatus → Bool
  | .parsed | .parsedWithWarnings => true
  | _ => false

/-- The constructor of `ParsedRepositoryComponent`. -/
def ParsedRepositoryComponent.check (u : Unicode) (component : ParsedRepositoryComponent) :
    Except String ParsedRepositoryComponent := do
  let revision ← requireCommitSha u component.sourceRevision
  let path ← normalizeRepositoryPath component.sourceFilePath
  require (component.status.isParsed →
    (∀ field ∈ component.normalizedFields, ∃ row ∈ component.provenance, row.1 = field.1) ∧
      ∀ row ∈ component.provenance, row.2 ≠ []) "parsed_field_provenance_missing"
  require (component.status = .parsed → component.warnings = [])
    "parsed_status_cannot_contain_warnings"
  require (component.status = .parsedWithWarnings → component.warnings ≠ [])
    "warning_status_requires_warning"
  return { component with sourceRevision := revision, sourceFilePath := path }

/-- `quote(text)`. -/
def quotedUrl (text : String) : String := String.ofList (quote ['/'] text.toList)

/-- `_result`. -/
def kicadResult (snapshot : RepositorySnapshot u) (entry : RepositoryEntry)
    (parsedAt : Time) (sourceTag : Option String) (status : ParseStatus)
    (fields : List (String × FieldValue)) (provenance : List (String × List FieldProvenance))
    (warnings : List String) : Except String ParsedRepositoryComponent :=
  let original := kicadRepository ++ "/-/blob/" ++ snapshot.revision ++ "/" ++ quotedUrl entry.filePath
  ParsedRepositoryComponent.check u {
    sourceRevision := snapshot.revision
    sourceTag
    sourceFilePath := entry.filePath
    sourceEntryName := entry.entryName
    originalUrl := match entry.entryName with
      | some name => original ++ "#" ++ quotedUrl name
      | none => original
    parsedAt
    status
    normalizedFields := fields
    provenance
    attribution := "Official KiCad Libraries, " ++ entry.filePath ++ ":" ++
      entry.entryName.getD "" ++ ", revision " ++ snapshot.revision
    warnings }

/-- The unit in a name by `_UNIT_SUFFIX`: a number without a leading zero between underscores,
before digits at the end or before a line break there. -/
def unitSuffix (name : String) : List Char :=
  let text := name.toList.reverse
  let text := if text.head? = some '\n' then text.tail else text
  let convert := text.takeWhile Char.isDigit
  match convert, text.drop convert.length with
  | _ :: _, '_' :: rest =>
    let unit := (rest.takeWhile Char.isDigit).reverse
    match unit.head?, rest.drop unit.length with
    | some first, '_' :: _ => if first = '0' then [] else unit
    | _, _ => []
  | _, _ => []

/-- The unit of a nested symbol; `int` reads at most 4300 digits. -/
def unitOf (name : String) : Except String Nat := do
  let unit := unitSuffix name
  require (unit.length ≤ 4300) "int_max_str_digits"
  return if unit = [] then 1 else unit.foldl (fun n c => 10 * n + (c.toNat - '0'.toNat)) 0

/-- The name of a nested symbol. -/
def nestedName (symbolName : String) (nested : SExpression) : String :=
  match listAtom nested 1 with
  | some name => if name = "" then symbolName else name
  | none => symbolName

/-- The pins of a nested symbol. -/
def nestedPins (name : String) (nested : SExpression) :
    Except String (List (SExpression × Nat)) := do
  let unit ← unitOf (nestedName name nested)
  return (childLists nested "pin").map fun pin => (pin, unit)

/-- `_pins`. -/
def symbolPins (symbol : SExpression) (symbolName : String) :
    Except String (List (SExpression × Nat)) := do
  let nested ← (childLists symbol "symbol").mapM (nestedPins symbolName)
  return (childLists symbol "pin").map (fun pin => (pin, 1)) ++ nested.flatten

/-- `value or default`. -/
def orText (value : Option String) (default : String) : String :=
  match value with
  | some s => if s = "" then default else s
  | none => default

/-- The electrical type of a pin. -/
def electricalOf (pin : SExpression) : String := orText (listAtom pin 1) "unspecified"

def pinOf (pin : SExpression × Nat) : Pin :=
  { number := orText (childValue pin.1 "number") ""
    name := orText (childValue pin.1 "name") ""
    electricalType := electricalOf pin.1
    unit := pin.2 }

/-- The warnings of the pins, each once. -/
def pinWarnings (pins : List (SExpression × Nat)) : List String :=
  (pins.filterMap fun pin =>
    if electricalOf pin.1 ∈ electricalTypes then none
    else some ("unknown_electrical_type:" ++
      truncate 80 (electricalOf pin.1))).reverse.dedup.reverse

/-- `properties`: of two with one key the last counts. -/
def symbolProperties (symbol : SExpression) : List (String × String) :=
  dictionary ((childLists symbol "property").filterMap fun property =>
    match listAtom property 1, listAtom property 2 with
    | some key, some value => some (key, value)
    | _, _ => none)

/-- `symbols`: of two with one name the last counts. -/
def symbolsByName (root : SExpression) : List (String × SExpression) :=
  dictionary ((childLists root "symbol").filterMap fun symbol =>
    (listAtom symbol 1).map fun name => (name, symbol))

/-- `fields`. -/
def symbolFields (path entryName : String) (root symbol : SExpression)
    (pins : List (SExpression × Nat)) : List (String × FieldValue) :=
  let properties := symbolProperties symbol
  let library := libraryName path
  [("library_name", .text (String.ofList library)),
   ("symbol_name", .text entryName),
   ("reference", .text ((get properties "Reference").getD "")),
   ("value", .text ((get properties "Value").getD entryName)),
   ("description", .text ((get properties "Description").getD "")),
   ("keywords", .text ((get properties "ki_keywords").getD "")),
   ("footprint", .text ((get properties "Footprint").getD "")),
   ("footprint_filters", .texts ((childLists symbol "footprint_filters").flatMap fun filters =>
     (children filters).tail.filterMap atom)),
   ("pins", .pins (pins.map pinOf)),
   ("format_version", .text (orText (childValue root "version") "unknown")),
   ("category_hint", .text (kicadCategory library))] ++
  (match (get properties "Datasheet").filter (· ≠ "") with
    | some datasheet => [("datasheet_url", .text datasheet)]
    | none => []) ++
  (match (childValue symbol "extends").filter (· ≠ "") with
    | some extended => [("extends", .text extended)]
    | none => [])

/-- `parse_entry`. -/
def parseEntry (a : KicadSymbolsAdapter) (snapshot : RepositorySnapshot u)
    (entry : RepositoryEntry) (parsedAt : Time) (sourceTag : Option String) :
    Except String ParsedRepositoryComponent := do
  validateSnapshot snapshot
  let failed (status : ParseStatus) (warning : String) :=
    kicadResult snapshot entry parsedAt sourceTag status [] [] [warning]
  if ¬ a.reads entry.filePath then failed .unsupportedDocument "library_not_allowlisted"
  else
    match readRoot snapshot entry.filePath with
    | .error message => failed .invalidMetadata message
    | .ok root =>
      if head root ≠ some "kicad_symbol_lib" then failed .sourceDrift "kicad_root_missing"
      else
        match entry.entryName with
        | none => failed .invalidMetadata "symbol_name_missing"
        | some name =>
          match get (symbolsByName root) name with
          | none => failed .sourceDrift "symbol_not_found"
          | some symbol => do
            let pins ← symbolPins symbol name
            let fields := symbolFields entry.filePath name root symbol pins
            let warnings := pinWarnings pins
            kicadResult snapshot entry parsedAt sourceTag
              (if warnings = [] then .parsed else .parsedWithWarnings) fields
              (fields.map fun field => (field.1, [{
                repositoryUrl := kicadRepository
                sourceRevision := snapshot.revision
                sourceFilePath := entry.filePath
                sectionOrProperty := field.1
                confidence := .high
                transformation := "s_expression_property_mapping" }]))
              warnings

/-! ## The symbols of a snapshot -/

section Walk

variable (a : KicadSymbolsAdapter) (snapshot : RepositorySnapshot u)

/-- The roots of the libraries that are read. -/
def libraryRoot (path : String) : Option SExpression :=
  if a.reads path then (readRoot snapshot path).toOption.filter fun root =>
    head root = some "kicad_symbol_lib"
  else none

/-- The names of the symbols of a file. -/
def symbolNames (path : String) : List String :=
  ((libraryRoot a snapshot path).map fun root =>
    (childLists root "symbol").filterMap fun symbol => listAtom symbol 1).getD []

/-- The symbols that are asked for, file by file. -/
def walk (text : String) : List (String × String) :=
  (sortedPaths snapshot).flatMap fun path =>
    ((symbolNames a snapshot path).filter fun name => wanted u text path name).map fun name =>
      (path, name)

/-- The loops of `discover` over the symbols of all files. -/
def takeEntries (cap : Nat) (entries : List RepositoryEntry) :
    List (String × String) → Except String (Bool × List RepositoryEntry)
  | [] => .ok (false, entries)
  | symbol :: rest => do
    let entry ← RepositoryEntry.make symbol.1 (some symbol.2) (some symbol.2)
    if cap ≤ entries.length + 1 then return (true, entries ++ [entry])
    else takeEntries cap (entries ++ [entry]) rest

theorem takeEntries_append (cap : Nat) (xs ys : List (String × String)) :
    ∀ entries, takeEntries cap entries (xs ++ ys) = takeEntries cap entries xs >>= fun result =>
      if result.1 then .ok result else takeEntries cap result.2 ys := by
  induction xs with
  | nil => exact fun entries => rfl
  | cons symbol xs ih =>
    intro entries
    rw [List.cons_append, takeEntries, takeEntries]
    cases RepositoryEntry.make symbol.1 (some symbol.2) (some symbol.2) with
    | error error => rfl
    | ok entry =>
      change (if cap ≤ entries.length + 1 then Except.ok (true, entries ++ [entry])
        else takeEntries cap (entries ++ [entry]) (xs ++ ys)) =
          (if cap ≤ entries.length + 1 then Except.ok (true, entries ++ [entry])
            else takeEntries cap (entries ++ [entry]) xs) >>= _
      by_cases hcap : cap ≤ entries.length + 1
      · rw [if_pos hcap, if_pos hcap]
        rfl
      · rw [if_neg hcap, if_neg hcap, ih]

theorem listSymbols_eq (text path : String) (cap : Nat) (symbols : List SExpression) :
    ∀ entries, listSymbols u text path cap entries symbols = takeEntries cap entries
      (((symbols.filterMap fun symbol => listAtom symbol 1).filter fun name =>
        wanted u text path name).map fun name => (path, name)) := by
  induction symbols with
  | nil => exact fun entries => rfl
  | cons symbol symbols ih =>
    intro entries
    rw [listSymbols]
    cases hname : listAtom symbol 1 with
    | none =>
      simp only [List.filterMap_cons, hname]
      exact ih entries
    | some name =>
      simp only [List.filterMap_cons, hname]
      by_cases hwanted : wanted u text path name
      · rw [List.filter_cons_of_pos hwanted, List.map_cons, takeEntries,
          if_neg (not_not_intro hwanted)]
        simp only [ih]
      · rw [List.filter_cons_of_neg hwanted, ← ih, if_pos hwanted]

theorem listFiles_eq (text : String) (cap : Nat) (paths : List String) :
    ∀ entries, listFiles a snapshot text cap entries paths =
      (takeEntries cap entries (paths.flatMap fun path =>
        ((symbolNames a snapshot path).filter fun name => wanted u text path name).map fun name =>
          (path, name))).map Prod.snd := by
  induction paths with
  | nil => exact fun entries => rfl
  | cons path paths ih =>
    intro entries
    -- a file that is not read, or not as a library, has no symbols
    have hskip : libraryRoot a snapshot path = none →
        listFiles a snapshot text cap entries paths =
          (takeEntries cap entries ((path :: paths).flatMap fun path =>
            ((symbolNames a snapshot path).filter fun name => wanted u text path name).map
              fun name => (path, name))).map Prod.snd := by
      intro hnone
      rw [List.flatMap_cons, ih, symbolNames, hnone]
      rfl
    rw [listFiles]
    by_cases hreads : a.reads path
    · rw [if_neg (not_not_intro hreads)]
      cases hroot : readRoot snapshot path with
      | error message =>
        exact hskip (by rw [libraryRoot, if_pos hreads, hroot]; rfl)
      | ok root =>
        by_cases hhead : head root = some "kicad_symbol_lib"
        · have hnames : symbolNames a snapshot path =
              (childLists root "symbol").filterMap fun symbol => listAtom symbol 1 := by
            rw [symbolNames, libraryRoot, if_pos hreads, hroot]
            simp [Except.toOption, Option.filter, hhead]
          simp only [hhead, ne_eq, not_true_eq_false, if_false]
          rw [List.flatMap_cons, takeEntries_append, listSymbols_eq, hnames]
          cases takeEntries cap entries _ with
          | error error => rfl
          | ok result =>
            obtain ⟨returned, found⟩ := result
            cases returned with
            | true => rfl
            | false => exact ih found
        · simp only [hhead, ne_eq, not_false_eq_true, if_true]
          refine hskip ?_
          rw [libraryRoot, if_pos hreads, hroot]
          simp [Except.toOption, Option.filter, hhead]
    · rw [if_pos hreads]
      exact hskip (if_neg hreads)

/-- `discover` takes the first symbols that are asked for. -/
theorem discover_eq (query : Option String) (limit : Int) :
    discover a snapshot query limit = validateSnapshot snapshot >>= fun _ =>
      (takeEntries (cap limit) [] (walk a snapshot (needle u query))).map Prod.snd := by
  unfold discover walk
  rw [listFiles_eq]

/-! ## What `discover` lists -/

/-- The file and the symbol of an entry. -/
def RepositoryEntry.key (entry : RepositoryEntry) : String × Option String :=
  (entry.filePath, entry.entryName)

theorem make_key {path : String} {name title : Option String} {entry : RepositoryEntry}
    (h : RepositoryEntry.make path name title = .ok entry) : entry.key = (path, name) := by
  unfold RepositoryEntry.make at h
  split at h
  · cases h
  · rename_i hpath
    obtain rfl := normalizeRepositoryPath_eq hpath
    split at h
    · cases h
      rfl
    · cases h

theorem make_ok_iff {path : String} {name : String} {title : Option String}
    (hpath : normalizeRepositoryPath path = .ok path) :
    (∃ entry, RepositoryEntry.make path (some name) title = .ok entry) ↔ ¬ isBlank name := by
  unfold RepositoryEntry.make
  split
  · rename_i herror
    rw [hpath] at herror
    cases herror
  · by_cases hname : isBlank name
    · simp [hname]
    · simp [hname]

theorem takeEntries_cons (cap : Nat) (entries : List RepositoryEntry) (symbol : String × String)
    (rest : List (String × String)) {result : Bool × List RepositoryEntry} :
    takeEntries cap entries (symbol :: rest) = .ok result ↔ ∃ entry,
      RepositoryEntry.make symbol.1 (some symbol.2) (some symbol.2) = .ok entry ∧
        if cap ≤ entries.length + 1 then (true, entries ++ [entry]) = result
        else takeEntries cap (entries ++ [entry]) rest = .ok result := by
  rw [takeEntries, bind_eq_ok]
  refine exists_congr fun entry => and_congr_right fun _ => ?_
  by_cases hcap : cap ≤ entries.length + 1
  · rw [if_pos hcap, if_pos hcap, pure_eq_ok]
  · rw [if_neg hcap, if_neg hcap]

/-- The entries are those of the first symbols. -/
theorem takeEntries_keys {cap : Nat} {xs : List (String × String)} :
    ∀ {entries : List RepositoryEntry} {result : Bool × List RepositoryEntry},
      entries.length < cap → takeEntries cap entries xs = .ok result →
        result.2.map RepositoryEntry.key = entries.map RepositoryEntry.key ++
          (xs.take (cap - entries.length)).map fun symbol => (symbol.1, some symbol.2) := by
  induction xs with
  | nil =>
    intro entries result _ h
    cases h
    rw [List.take_nil, List.map_nil, List.append_nil]
  | cons symbol xs ih =>
    intro entries result hroom h
    obtain ⟨entry, hentry, h⟩ := (takeEntries_cons cap entries symbol xs).mp h
    have hcount : cap - entries.length = cap - (entries ++ [entry]).length + 1 := by
      rw [List.length_append, List.length_singleton]
      omega
    rw [hcount, List.take_succ_cons, List.map_cons, ← make_key hentry]
    by_cases hcap : cap ≤ entries.length + 1
    · rw [if_pos hcap] at h
      subst h
      have hfull : cap - (entries ++ [entry]).length = 0 := by
        rw [List.length_append, List.length_singleton]
        omega
      rw [hfull, List.take_zero, List.map_append]
      rfl
    · rw [if_neg hcap] at h
      have hroom' : (entries ++ [entry]).length < cap := by
        rw [List.length_append, List.length_singleton]
        omega
      rw [ih hroom' h, List.map_append, List.append_assoc]
      rfl

/-- The loops return iff none of the first symbols has a blank name. -/
theorem takeEntries_ok_iff {cap : Nat} {xs : List (String × String)}
    (hpaths : ∀ symbol ∈ xs, normalizeRepositoryPath symbol.1 = .ok symbol.1) :
    ∀ {entries : List RepositoryEntry}, entries.length < cap →
      ((∃ result, takeEntries cap entries xs = .ok result) ↔
        ∀ symbol ∈ xs.take (cap - entries.length), ¬ isBlank symbol.2) := by
  induction xs with
  | nil => exact fun _ => ⟨fun _ => by simp, fun _ => ⟨_, rfl⟩⟩
  | cons symbol xs ih =>
    intro entries hroom
    obtain ⟨hpath, hpaths⟩ := List.forall_mem_cons.mp hpaths
    have hcount : cap - entries.length = cap - (entries.length + 1) + 1 := by omega
    rw [hcount, List.take_succ_cons, List.forall_mem_cons]
    simp only [takeEntries_cons]
    have hmake : (∃ entry, RepositoryEntry.make symbol.1 (some symbol.2) (some symbol.2) =
        .ok entry) ↔ ¬ isBlank symbol.2 := make_ok_iff hpath
    by_cases hname : isBlank symbol.2
    · refine iff_of_false ?_ fun h => h.1 hname
      rintro ⟨_, entry, hentry, -⟩
      exact hmake.mp ⟨entry, hentry⟩ hname
    · obtain ⟨entry, hentry⟩ := hmake.mpr hname
      have hlength : (entries ++ [entry]).length = entries.length + 1 := by simp
      simp only [hentry, Except.ok.injEq, exists_eq_left', and_iff_right hname]
      by_cases hcap : cap ≤ entries.length + 1
      · have hfull : cap - (entries.length + 1) = 0 := by omega
        simp [hcap, hfull]
      · simp only [if_neg hcap]
        have hroom' : (entries ++ [entry]).length < cap := by omega
        rw [← hlength]
        exact ih hpaths hroom'

theorem cap_pos (limit : Int) : 0 < cap limit := by
  unfold cap
  omega

theorem cap_le (limit : Int) : cap limit ≤ 500 := by
  unfold cap
  omega

theorem walk_path {text : String} {symbol : String × String} (h : symbol ∈ walk a snapshot text) :
    normalizeRepositoryPath symbol.1 = .ok symbol.1 := by
  obtain ⟨path, hpath, h⟩ := List.mem_flatMap.mp h
  obtain ⟨name, -, rfl⟩ := List.mem_map.mp h
  obtain ⟨file, hfile, rfl⟩ := List.mem_map.mp ((List.perm_insertionSort _ _).mem_iff.mp hpath)
  exact snapshot.normalized file hfile

/-- The snapshot is of the repository that the adapter is for. -/
def Registered (snapshot : RepositorySnapshot u) : Prop :=
  normalizeRepositoryUrl snapshot.repositoryUrl = .ok kicadRepository

theorem validateSnapshot_eq_ok : validateSnapshot snapshot = .ok () ↔ Registered snapshot := by
  unfold validateSnapshot Registered
  constructor
  · intro h
    obtain ⟨url, hurl, h⟩ := bind_eq_ok.mp h
    obtain ⟨hregistered, -⟩ := seq_eq_ok.mp h
    rw [require_eq_ok] at hregistered
    rw [hurl, hregistered]
  · intro h
    rw [h, snapshot.sha]
    rfl

theorem discover_eq_ok {query : Option String} {limit : Int} {entries : List RepositoryEntry} :
    discover a snapshot query limit = .ok entries ↔ Registered snapshot ∧
      ∃ result, takeEntries (cap limit) [] (walk a snapshot (needle u query)) = .ok result ∧
        result.2 = entries := by
  rw [discover_eq, seq_eq_ok, validateSnapshot_eq_ok, map_eq_ok]

/-- `discover` returns iff none of the first symbols that are asked for has a blank name. -/
theorem discover_ok_iff {query : Option String} {limit : Int} :
    (∃ entries, discover a snapshot query limit = .ok entries) ↔ Registered snapshot ∧
      ∀ symbol ∈ (walk a snapshot (needle u query)).take (cap limit), ¬ isBlank symbol.2 := by
  have hloops : (∃ result, takeEntries (cap limit) [] (walk a snapshot (needle u query)) =
      .ok result) ↔
        ∀ symbol ∈ (walk a snapshot (needle u query)).take (cap limit), ¬ isBlank symbol.2 :=
    takeEntries_ok_iff (fun _ => walk_path a snapshot) (cap_pos limit)
  rw [← hloops]
  simp only [discover_eq_ok]
  constructor
  · rintro ⟨_, hregistered, result, hresult, -⟩
    exact ⟨hregistered, result, hresult⟩
  · rintro ⟨hregistered, result, hresult⟩
    exact ⟨_, hregistered, result, hresult, rfl⟩

theorem discover_keys {query : Option String} {limit : Int} {entries : List RepositoryEntry}
    (h : discover a snapshot query limit = .ok entries) :
    entries.map RepositoryEntry.key =
      ((walk a snapshot (needle u query)).take (cap limit)).map fun symbol =>
        (symbol.1, some symbol.2) := by
  obtain ⟨-, result, hresult, rfl⟩ := (discover_eq_ok a snapshot).mp h
  exact takeEntries_keys (cap_pos limit) hresult

/-! ## What `parse_entry` accepts -/

/-- The symbol that `parse_entry` finds under a name. -/
def symbolOf (path name : String) : Option SExpression :=
  (libraryRoot a snapshot path).bind fun root => get (symbolsByName root) name

/-- The units of a symbol can be read. -/
def UnitsReadable (name : String) (symbol : SExpression) : Prop :=
  ∀ nested ∈ childLists symbol "symbol", (unitSuffix (nestedName name nested)).length ≤ 4300

theorem unitOf_ok_iff {name : String} :
    (∃ unit, unitOf name = .ok unit) ↔ (unitSuffix name).length ≤ 4300 := by
  unfold unitOf
  by_cases hlength : (unitSuffix name).length ≤ 4300
  · exact iff_of_true ⟨_, seq_eq_ok.mpr ⟨require_eq_ok.mpr hlength, rfl⟩⟩ hlength
  · refine iff_of_false ?_ hlength
    rintro ⟨unit, h⟩
    exact hlength (require_eq_ok.mp (seq_eq_ok.mp h).1)

theorem nestedPins_ok_iff {name : String} {nested : SExpression} :
    (∃ pins, nestedPins name nested = .ok pins) ↔
      (unitSuffix (nestedName name nested)).length ≤ 4300 := by
  rw [← unitOf_ok_iff]
  constructor
  · rintro ⟨_, h⟩
    obtain ⟨unit, hunit, -⟩ := bind_eq_ok.mp h
    exact ⟨unit, hunit⟩
  · rintro ⟨unit, hunit⟩
    exact ⟨_, bind_eq_ok.mpr ⟨unit, hunit, rfl⟩⟩

theorem symbolPins_ok_iff {symbol : SExpression} {name : String} :
    (∃ pins, symbolPins symbol name = .ok pins) ↔ UnitsReadable name symbol := by
  have hall : (∃ nested, (childLists symbol "symbol").mapM (nestedPins name) = .ok nested) ↔
      UnitsReadable name symbol :=
    mapM_ok_iff.trans (forall₂_congr fun _ _ => nestedPins_ok_iff)
  rw [← hall]
  constructor
  · rintro ⟨pins, h⟩
    obtain ⟨nested, h, -⟩ := bind_eq_ok.mp h
    exact ⟨nested, h⟩
  · rintro ⟨nested, h⟩
    exact ⟨_, bind_eq_ok.mpr ⟨nested, h, rfl⟩⟩

/-- The names of a file are those of its symbols by name. -/
theorem mem_symbolNames {path name : String} :
    name ∈ symbolNames a snapshot path ↔ (symbolOf a snapshot path name).isSome := by
  unfold symbolNames symbolOf
  cases libraryRoot a snapshot path with
  | none => simp
  | some root =>
    rw [Option.map_some, Option.getD_some, Option.bind_some, symbolsByName, get_dictionary,
      List.getLast?_isSome, ne_eq, List.map_eq_nil_iff, List.filter_eq_nil_iff]
    simp

/-- A result carries the status that it is made with. -/
theorem kicadResult_status {entry : RepositoryEntry} {parsedAt : Time} {sourceTag : Option String}
    {status : ParseStatus} {fields : List (String × FieldValue)}
    {provenance : List (String × List FieldProvenance)} {warnings : List String}
    {parsed : ParsedRepositoryComponent}
    (h : kicadResult snapshot entry parsedAt sourceTag status fields provenance warnings =
      .ok parsed) : parsed.status = status := by
  unfold kicadResult ParsedRepositoryComponent.check at h
  obtain ⟨revision, -, h⟩ := bind_eq_ok.mp h
  obtain ⟨path, -, h⟩ := bind_eq_ok.mp h
  obtain ⟨-, h⟩ := seq_eq_ok.mp h
  obtain ⟨-, h⟩ := seq_eq_ok.mp h
  obtain ⟨-, h⟩ := seq_eq_ok.mp h
  exact (congrArg ParsedRepositoryComponent.status (Except.ok.inj h)).symm

/-- A result whose fields all have a provenance is accepted. -/
theorem kicadResult_ok {entry : RepositoryEntry} {parsedAt : Time} {sourceTag : Option String}
    {fields : List (String × FieldValue)} {source : String × FieldValue → FieldProvenance}
    {warnings : List String} :
    ∃ parsed, kicadResult snapshot entry parsedAt sourceTag
      (if warnings = [] then .parsed else .parsedWithWarnings) fields
      (fields.map fun field => (field.1, [source field])) warnings = .ok parsed := by
  have hprovenance : (∀ field ∈ fields, ∃ row ∈ fields.map fun field => (field.1, [source field]),
      row.1 = field.1) ∧
        ∀ row ∈ fields.map fun field => (field.1, [source field]), row.2 ≠ [] := by
    constructor
    · exact fun field hfield => ⟨_, List.mem_map_of_mem hfield, rfl⟩
    · intro row hrow
      obtain ⟨field, -, rfl⟩ := List.mem_map.mp hrow
      exact List.cons_ne_nil _ _
  unfold kicadResult ParsedRepositoryComponent.check
  simp only [snapshot.sha, entry.normalized]
  refine ⟨_, bind_eq_ok.mpr ⟨_, rfl, bind_eq_ok.mpr ⟨_, rfl, seq_eq_ok.mpr ⟨?_, seq_eq_ok.mpr ⟨?_,
    seq_eq_ok.mpr ⟨?_, rfl⟩⟩⟩⟩⟩⟩
  · exact require_eq_ok.mpr fun _ => hprovenance
  · rw [require_eq_ok]
    by_cases hwarnings : warnings = [] <;> simp [hwarnings]
  · rw [require_eq_ok]
    by_cases hwarnings : warnings = [] <;> simp [hwarnings]

/-- `parse_entry` accepts an entry. -/
def Parses (entry : RepositoryEntry) (parsedAt : Time) (sourceTag : Option String) : Prop :=
  ∃ parsed, parseEntry a snapshot entry parsedAt sourceTag = .ok parsed ∧ parsed.status.isParsed

/-- `parse_entry` accepts an entry iff its symbol is found and the units of it can be read. -/
theorem parses_iff (hregistered : Registered snapshot) {entry : RepositoryEntry} {parsedAt : Time}
    {sourceTag : Option String} :
    Parses a snapshot entry parsedAt sourceTag ↔ ∃ name symbol, entry.entryName = some name ∧
      symbolOf a snapshot entry.filePath name = some symbol ∧ UnitsReadable name symbol := by
  have hvalid := (validateSnapshot_eq_ok snapshot).mpr hregistered
  -- a result of another status is not accepted
  have hfailed : ∀ (status : ParseStatus) (warning : String), ¬ status.isParsed →
      ¬ ∃ parsed, kicadResult snapshot entry parsedAt sourceTag status [] [] [warning] =
        .ok parsed ∧ parsed.status.isParsed := by
    rintro status warning hstatus ⟨parsed, h, hparsed⟩
    rw [kicadResult_status snapshot h] at hparsed
    exact hstatus hparsed
  have hnone : libraryRoot a snapshot entry.filePath = none → ¬ ∃ name symbol,
      entry.entryName = some name ∧ symbolOf a snapshot entry.filePath name = some symbol ∧
        UnitsReadable name symbol := by
    rintro hroot ⟨name, symbol, -, hsymbol, -⟩
    rw [symbolOf, hroot] at hsymbol
    cases hsymbol
  unfold Parses parseEntry
  rw [hvalid]
  change (∃ parsed, (if ¬ a.reads entry.filePath then _ else _) = _ ∧ _) ↔ _
  by_cases hreads : a.reads entry.filePath
  · rw [if_neg (not_not_intro hreads)]
    cases hroot : readRoot snapshot entry.filePath with
    | error message =>
      refine iff_of_false (hfailed .invalidMetadata message (by decide)) (hnone ?_)
      rw [libraryRoot, if_pos hreads, hroot]
      rfl
    | ok root =>
      by_cases hhead : head root = some "kicad_symbol_lib"
      · have hlibrary : libraryRoot a snapshot entry.filePath = some root := by
          rw [libraryRoot, if_pos hreads, hroot]
          simp [Except.toOption, Option.filter, hhead]
        simp only [hhead, ne_eq, not_true_eq_false, if_false]
        cases hname : entry.entryName with
        | none => exact iff_of_false (hfailed .invalidMetadata _ (by decide)) (by simp)
        | some name =>
          have hsymbol : symbolOf a snapshot entry.filePath name =
              get (symbolsByName root) name := by rw [symbolOf, hlibrary, Option.bind_some]
          cases hget : get (symbolsByName root) name with
          | none =>
            simp only [hget]
            refine iff_of_false (hfailed .sourceDrift _ (by decide)) ?_
            rintro ⟨_, symbol, hsame, hfound, -⟩
            cases hsame
            rw [hsymbol, hget] at hfound
            cases hfound
          | some symbol =>
            have hfound : (∃ other symbol, some name = some other ∧
                symbolOf a snapshot entry.filePath other = some symbol ∧
                  UnitsReadable other symbol) ↔ UnitsReadable name symbol := by
              simp only [Option.some.injEq, exists_eq_left', exists_and_left, hsymbol, hget]
            rw [hfound, ← symbolPins_ok_iff]
            simp only [hget]
            constructor
            · rintro ⟨parsed, h, -⟩
              obtain ⟨pins, hpins, -⟩ := bind_eq_ok.mp h
              exact ⟨pins, hpins⟩
            · rintro ⟨pins, hpins⟩
              obtain ⟨parsed, hparsed⟩ := kicadResult_ok snapshot
              refine ⟨parsed, bind_eq_ok.mpr ⟨pins, hpins, hparsed⟩, ?_⟩
              rw [kicadResult_status snapshot hparsed]
              split <;> rfl
      · simp only [hhead, ne_eq, not_false_eq_true, if_true]
        refine iff_of_false (hfailed .sourceDrift _ (by decide)) (hnone ?_)
        rw [libraryRoot, if_pos hreads, hroot]
        simp [Except.toOption, Option.filter, hhead]
  · rw [if_pos hreads]
    exact iff_of_false (hfailed .unsupportedDocument _ (by decide)) (hnone (if_neg hreads))

/-! ## Agreement -/

/-- `discover` and `parse_entry` agree on a snapshot. -/
structure Agrees : Prop where
  /-- `discover` never raises. -/
  returns : ∀ (query : Option String) (limit : Int),
    ∃ entries, discover a snapshot query limit = .ok entries
  /-- `discover` lists a symbol of a file at most once. -/
  once : ∀ (query : Option String) (limit : Int) (entries : List RepositoryEntry),
    discover a snapshot query limit = .ok entries → (entries.map RepositoryEntry.key).Nodup
  /-- Without a query and below the limit, the entries listed are those that `parse_entry`
  accepts. -/
  same : ∀ (limit : Int) (entries : List RepositoryEntry),
    discover a snapshot none limit = .ok entries → entries.length < cap limit →
      ∀ (entry : RepositoryEntry) (parsedAt : Time) (sourceTag : Option String),
        entry.key ∈ entries.map RepositoryEntry.key ↔ Parses a snapshot entry parsedAt sourceTag

/-- What agreement rests on: the snapshot is of the registered repository; among the first 500
symbols that any query asks for no name is blank and none comes twice in a file; and where there are
fewer than 500 symbols, the units of each can be read. -/
structure Regular : Prop where
  registered : Registered snapshot
  named : ∀ query : Option String,
    ∀ symbol ∈ (walk a snapshot (needle u query)).take 500, ¬ isBlank symbol.2
  distinct : ∀ query : Option String, ((walk a snapshot (needle u query)).take 500).Nodup
  readable : (walk a snapshot "").length < 500 → ∀ path name symbol,
    symbolOf a snapshot path name = some symbol → UnitsReadable name symbol

theorem mem_walk {path name : String} :
    (path, name) ∈ walk a snapshot "" ↔ (symbolOf a snapshot path name).isSome := by
  have hmem : (path, name) ∈ walk a snapshot "" ↔
      path ∈ sortedPaths snapshot ∧ name ∈ symbolNames a snapshot path := by
    simp [walk, wanted]
  rw [hmem, mem_symbolNames, and_iff_right_iff_imp]
  intro hsome
  -- a file that was read is in the snapshot
  obtain ⟨symbol, hsymbol⟩ := Option.isSome_iff_exists.mp hsome
  obtain ⟨root, hroot, -⟩ := Option.bind_eq_some_iff.mp hsymbol
  unfold libraryRoot at hroot
  split at hroot
  · have hread : readRoot snapshot path = .ok root := by
      cases hread : readRoot snapshot path with
      | error message => simp [hread, Except.toOption] at hroot
      | ok found =>
        rw [hread] at hroot
        exact congrArg _ (Option.some.inj (Option.mem_filter_iff.mp hroot).1)
    obtain ⟨content, hcontent, -⟩ := bind_eq_ok.mp hread
    unfold RepositorySnapshot.read at hcontent
    obtain ⟨found, hfound, hget⟩ := bind_eq_ok.mp hcontent
    obtain rfl := normalizeRepositoryPath_eq hfound
    have hfile := mem_of_get (fromSome_eq_ok.mp hget)
    exact (List.perm_insertionSort _ _).mem_iff.mpr (List.mem_map_of_mem hfile)
  · cases hroot

theorem needle_none : needle u none = "" := by
  unfold needle
  rw [if_pos (by decide)]

theorem take_cap (text : String) (limit : Int) :
    ((walk a snapshot text).take (cap limit)).Sublist ((walk a snapshot text).take 500) :=
  List.take_sublist_take_left (cap_le limit)

/-- `discover` and `parse_entry` agree on a snapshot iff it is regular. -/
theorem agrees_iff : Agrees a snapshot ↔ Regular a snapshot := by
  have hcap : cap 500 = 500 := by decide
  have hkey : Function.Injective fun symbol : String × String => (symbol.1, some symbol.2) := by
    rintro ⟨path, name⟩ ⟨path', name'⟩ h
    simpa using h
  constructor
  · intro h
    have hreturns (query : Option String) := (discover_ok_iff a snapshot).mp (h.returns query 500)
    rw [hcap] at hreturns
    refine ⟨(hreturns none).1, fun query => (hreturns query).2, fun query => ?_, ?_⟩
    · obtain ⟨entries, hentries⟩ := h.returns query 500
      have hnodup := h.once query 500 entries hentries
      rw [discover_keys a snapshot hentries, hcap] at hnodup
      exact hnodup.of_map _
    · intro hfew path name symbol hsymbol
      obtain ⟨entries, hentries⟩ := h.returns none 500
      have hkeys := discover_keys a snapshot hentries
      rw [hcap, needle_none, List.take_of_length_le hfew.le] at hkeys
      have hmem : (path, name) ∈ walk a snapshot "" := by
        rw [mem_walk, hsymbol]
        rfl
      have hlength : entries.length < cap 500 := by
        rw [← List.length_map RepositoryEntry.key, hkeys, List.length_map, hcap]
        exact hfew
      have hname : ¬ isBlank name := by
        refine (hreturns none).2 (path, name) ?_
        rw [needle_none, List.take_of_length_le hfew.le]
        exact hmem
      have hmake : ∃ entry, RepositoryEntry.make path (some name) (some name) = .ok entry :=
        (make_ok_iff (walk_path a snapshot hmem)).mpr hname
      obtain ⟨entry, hentry⟩ := hmake
      have hentry := make_key hentry
      have hlisted : entry.key ∈ entries.map RepositoryEntry.key := by
        rw [hkeys, hentry]
        exact List.mem_map_of_mem hmem
      have hparses := (h.same 500 entries hentries hlength entry 0 none).mp hlisted
      obtain ⟨other, found, hother, hfound, hreadable⟩ :=
        (parses_iff a snapshot (hreturns none).1).mp hparses
      obtain ⟨rfl, hsame⟩ := Prod.mk.inj hentry
      cases hsame.symm.trans hother
      cases hsymbol.symm.trans hfound
      exact hreadable
  · intro h
    refine ⟨fun query limit => ?_, fun query limit entries hentries => ?_, ?_⟩
    · refine (discover_ok_iff a snapshot).mpr ⟨h.registered, fun symbol hsymbol => ?_⟩
      exact h.named query symbol ((take_cap a snapshot _ limit).subset hsymbol)
    · rw [discover_keys a snapshot hentries]
      exact ((h.distinct query).sublist (take_cap a snapshot _ limit)).map hkey
    · intro limit entries hentries hbelow entry parsedAt sourceTag
      have hkeys := discover_keys a snapshot hentries
      have hlength := congrArg List.length hkeys
      rw [List.length_map, List.length_map, List.length_take, needle_none] at hlength
      have hfew : (walk a snapshot "").length < 500 := by
        have := cap_le limit
        omega
      rw [needle_none, List.take_of_length_le (by omega)] at hkeys
      have hlisted : entry.key ∈ entries.map RepositoryEntry.key ↔ ∃ name,
          entry.entryName = some name ∧ (symbolOf a snapshot entry.filePath name).isSome := by
        simp only [hkeys, RepositoryEntry.key, ← mem_walk, List.mem_map, Prod.exists,
          Prod.mk.injEq]
        constructor
        · rintro ⟨path, name, hmem, rfl, hname⟩
          exact ⟨name, hname.symm, hmem⟩
        · rintro ⟨name, hname, hmem⟩
          exact ⟨_, name, hmem, rfl, hname.symm⟩
      rw [hlisted, parses_iff a snapshot h.registered]
      refine exists_congr fun name => ?_
      rw [exists_and_left, Option.isSome_iff_exists]
      refine and_congr_right fun _ => exists_congr fun symbol => ?_
      exact (and_iff_left_of_imp (h.readable hfew entry.filePath name symbol)).symm

end Walk

/-! ## A snapshot with a symbol without a name -/

def sensorAdapter : KicadSymbolsAdapter where
  libraryAllowlist := ["Sensor_"]
  allowlist_ne := by decide
  allowlist_count := by decide
  allowlist_valid := by decide

def sensorLibrary : ByteArray :=
  "(kicad_symbol_lib (symbol \" \") (symbol \"MPU6050\"))".toUTF8

def sensorSnapshot : RepositorySnapshot plainUnicode where
  repositoryUrl := kicadRepository
  revision := "0123456789abcdef0123456789abcdef01234567"
  files := [("Sensor_Motion.kicad_sym", sensorLibrary)]
  url := ⟨kicadRepository ++ ".git", by decide +kernel⟩
  sha := by decide +kernel
  paths := List.nodup_singleton _
  normalized := List.forall_mem_singleton.mpr (by decide +kernel)
  sizes := List.forall_mem_singleton.mpr (by decide +kernel)
  count := by decide

/-- One symbol has a blank name, and `discover` raises instead of listing the other. -/
theorem agrees_blank : ¬ ∀ (u : Unicode) (a : KicadSymbolsAdapter)
    (snapshot : RepositorySnapshot u), Agrees a snapshot := by
  intro h
  obtain ⟨entries, hentries⟩ := (h plainUnicode sensorAdapter sensorSnapshot).returns none 100
  have herror : (discover sensorAdapter sensorSnapshot none 100).toOption = none := by
    decide +kernel
  rw [hentries] at herror
  cases herror

end ComponentKb.Imports
