import ComponentKb.Catalog.Effects
import ComponentKb.Imports.Kicad
import ComponentKb.Lib.Splitting
import ComponentKb.Media.Probe

/-!
# The drafts of imported documents

`ImportRepository.persist_draft` makes a card of a page, `persist_repository_draft` of an entry of a
repository (`imports/repository.py`); both hand a `DraftData` to the catalog, whose `_validate` has
the last word. `sha256` is the digest in hexadecimal digits.

* `isSlug_cut`: which cuts of a slug are slugs again.
* `technicalSpecifications_accepted`: the specifications of an entry are accepted, whatever its
  fields are.
* **`draft_iff`**: the draft is acceptable iff its slug is not cut after a hyphen and is not empty,
  and its names, as they are cut, are distinct and not blank.
-/

namespace ComponentKb.Imports.Drafts

open Catalog Lib Media

/-! ## What the parsers return -/

/-- `ParsedComponent` (`imports/domain.py`); its status and its policy are constants. -/
structure ParsedComponent where
  sourceHost : String
  sourceUrl : String
  canonicalUrl : String
  sourceItemId : String
  sourceContentSha256 : String
  parserName : String
  parserVersion : String
  parsedAt : Time
  title : String
  summary : String
  description : String
  aliases : List String
  manufacturer : Option String
  model : Option String
  purpose : Option String
  usageNotes : Option String
  safetyNotes : Option String
  categoryHint : Option String
  tags : List String
  deriving DecidableEq, Repr

/-- A digit of `hexdigest`. -/
def isHexDigit (c : Char) : Bool := c.isDigit || ('a' ≤ c && c ≤ 'f')

/-- The texts of a page, each with its limit. -/
def ParsedComponent.limits (parsed : ParsedComponent) : List (String × String × Nat) :=
  [("title", parsed.title, 160), ("summary", parsed.summary, 500),
   ("description", parsed.description, 2000), ("source_item_id", parsed.sourceItemId, 160),
   ("parser_name", parsed.parserName, 80), ("parser_version", parsed.parserVersion, 40)]

/-- `ParsedComponent.__post_init__`; every time has a zone. -/
def ParsedComponent.check (parsed : ParsedComponent) : Except String Unit := do
  each (fun (name, value, maximum) =>
    require (value ≠ "" ∧ value.length ≤ maximum) (name ++ " is blank or exceeds its limit"))
    parsed.limits
  require (parsed.aliases.length ≤ 20 ∧ parsed.tags.length ≤ 20)
    "parsed collections exceed their limits"
  require (∀ value ∈ parsed.aliases ++ parsed.tags, value ≠ "" ∧ value.length ≤ 160)
    "parsed collection item is blank or oversized"
  require (parsed.sourceContentSha256.length = 64 ∧
      parsed.sourceContentSha256.toList.all isHexDigit)
    "source_content_sha256 must be a lowercase SHA-256 digest"

/-- `LicenseSnapshot`. -/
structure LicenseSnapshot where
  name : String
  spdx : String
  url : String
  attribution : String
  deriving DecidableEq, Repr

/-- `ParsedRepositoryComponent` (`imports/repository_domain.py`), with the fields of any adapter. -/
structure ParsedRepositoryComponent where
  sourceKey : String
  repositoryUrl : String
  sourceRevision : String
  sourceTag : Option String
  sourceFilePath : String
  sourceEntryName : Option String
  originalUrl : String
  parserName : String
  parserVersion : String
  parsedAt : Time
  status : ParseStatus
  normalizedFields : JsonDict
  provenance : List (String × List FieldProvenance)
  licenseSnapshot : LicenseSnapshot
  modificationsNotice : String
  warnings : List String

/-- `ParsedRepositoryComponent.__post_init__`. -/
def ParsedRepositoryComponent.check (u : Unicode) (component : ParsedRepositoryComponent) :
    Except String ParsedRepositoryComponent := do
  let url ← normalizeRepositoryUrl component.repositoryUrl
  let revision ← requireCommitSha u component.sourceRevision
  let path ← normalizeRepositoryPath component.sourceFilePath
  require (component.status.isParsed →
    (∀ field ∈ component.normalizedFields, ∃ row ∈ component.provenance, row.1 = field.1) ∧
      ∀ row ∈ component.provenance, row.2 ≠ []) "parsed_field_provenance_missing"
  require (component.status = .parsed → component.warnings = [])
    "parsed_status_cannot_contain_warnings"
  require (component.status = .parsedWithWarnings → component.warnings ≠ [])
    "warning_status_requires_warning"
  return { component with repositoryUrl := url, sourceRevision := revision, sourceFilePath := path }

/-- The columns of `sources` that are read; the key is a `String(80)`. -/
structure Source where
  key : String
  displayName : String
  status : String
  isEnabled : Bool
  permissionStatus : String
  repositoryUrl : Option String
  licenseSpdx : Option String
  licenseUrl : Option String
  key_short : key.length ≤ 80

/-! ## Texts -/

/-- `value[:n]`. -/
def cut (n : Nat) (s : String) : String := String.ofList (s.toList.take n)

/-- `_SPACE.sub(" ", value).strip()`. -/
def collapsed (s : String) : String := String.ofList (collapse isSpace ' ' s.toList)

/-- The runs of lower-case letters and digits. -/
def runs (cs : List Char) : List (List Char) := parts (fun c => !isSlugChar c) cs

/-- `_SLUG_PART.sub("-", value).strip("-")`: the runs, with a hyphen for what is between them. -/
def slugPart (s : String) : String := String.ofList (['-'].intercalate (runs s.toList))

/-- `value.replace(old, new)` of single characters. -/
def replaced (old new : Char) (s : String) : String :=
  String.ofList (s.toList.map fun c => if c = old then new else c)

/-! ## Specifications -/

structure CanonicalSpecification where
  key : String
  label : String
  value : String
  deriving DecidableEq, Repr

/-- `_DEFINITIONS` (`imports/specifications.py`). -/
def definitions : List (String × String × List String) :=
  [("supply-voltage", "Supply voltage",
      ["supply", "supply voltage", "input voltage", "working voltage", "rated voltage", "voltage"]),
   ("operating-voltage", "Operating voltage",
      ["operating voltage", "operation voltage", "operational voltage"]),
   ("operating-current", "Operating current",
      ["current", "current consumption", "operating current", "operation current",
       "working current"]),
   ("power-consumption", "Power consumption",
      ["power consumption", "rated power", "max power", "maximum power"]),
   ("operating-temperature", "Operating temperature",
      ["operating temperature", "operating temperature range", "operation temperature",
       "working temperature", "temperature range"]),
   ("measurement-range", "Measurement range",
      ["detection range", "measuring range", "measurement range", "operating range", "range",
       "sensing range"]),
   ("accuracy", "Accuracy", ["accuracy", "measurement accuracy"]),
   ("resolution", "Resolution", ["resolution"]),
   ("frequency", "Frequency", ["frequency", "operating frequency", "sampling frequency"]),
   ("dimensions", "Dimensions", ["dimensions", "dimension", "product size", "size"]),
   ("weight", "Weight", ["net weight", "weight"]),
   ("interface", "Interface", ["bus", "communication interface", "interface", "protocol"]),
   ("connector", "Connector", ["connector", "connector type"]),
   ("electrical-life", "Electrical life", ["electrical life", "mechanical life"]),
   ("actuation-force", "Actuation force",
      ["actuation force", "operation force", "operating force"])]

/-- `_normalize_label`: the runs, with a space for what is between them. -/
def normalizeLabel (u : Unicode) (value : String) : String :=
  String.ofList ([' '].intercalate (runs (u.casefold (strip (u.nfkc value))).toList))

/-- `canonical_specification`; no alias belongs to two definitions. -/
def canonicalSpecification (u : Unicode) (label value : String) :
    Option CanonicalSpecification := do
  let (key, canonicalLabel, _) ← definitions.find? fun (key, _, aliases) =>
    normalizeLabel u label ∈ replaced '-' ' ' key :: aliases
  let value := collapsed (u.nfkc value)
  if value = "" then none else some ⟨key, canonicalLabel, cut 2000 value⟩

/-- One round of `_technical_specifications`. -/
def specificationOf (l : Language) (seen : List String) (item : JsonValue) :
    Option CanonicalSpecification :=
  match item with
  | .dict fields =>
    if (Media.get fields "key").truthy ∧ (Media.get fields "value").truthy then
      (canonicalSpecification l.unicode
        (((Media.get fields "label").orElse (Media.get fields "key")).text l)
        ((Media.get fields "value").text l)).filter fun specification => specification.key ∉ seen
    else none
  | _ => none

/-- The loop of `_technical_specifications`; `specifications` are those made so far. -/
def specificationsFrom (l : Language) (specifications : List TechnicalSpecification) :
    List JsonValue → List TechnicalSpecification
  | [] => specifications
  | item :: items =>
    match specificationOf l (specifications.map TechnicalSpecification.key) item with
    | none => specificationsFrom l specifications items
    | some specification =>
      let specifications := specifications ++
        [{ key := specification.key
           label := specification.label
           valueText := specification.value
           valueNumber := none
           unit := none
           position := specifications.length }]
      if specifications.length = 50 then specifications
      else specificationsFrom l specifications items

/-- `_technical_specifications`. -/
def technicalSpecifications (l : Language) (fields : JsonDict) : List TechnicalSpecification :=
  match fields.find? fun field => field.1 = "specifications" with
  | some (_, .list items) => specificationsFrom l [] items
  | _ => []

/-! ## Drafts -/

/-- The category with a key, or `other`. -/
def categoryFor (categories : List Category) (key : String) : Except String Category :=
  fromSome ((categories.find? fun category => category.key = key).or
    (categories.find? fun category => category.key = "other")) "catalog_category_seed_missing"

/-- `_CATEGORY_KEYS.get(hint or "", hint) or "other"`. -/
def categoryKey : Option String → String
  | some "input-controls" => "input"
  | some "motors" => "actuators"
  | some "" | none => "other"
  | some hint => hint

section

variable (l : Language) (sha256 : String → String) (dumps : List String → String)
  (categories : List Category)

/-- `sha256(identity.encode()).hexdigest()[:12]`. -/
def suffix (identity : String) : String := cut 12 (sha256 identity)

/-- `slug_seed` of `persist_draft`. -/
def ParsedComponent.seed (u : Unicode) (parsed : ParsedComponent) : String :=
  u.casefold (parsed.sourceHost ++ "-" ++ parsed.sourceItemId)

/-- The draft of `persist_draft`. The slug is never empty, so that its other form is not built. -/
def ParsedComponent.draft (parsed : ParsedComponent) : Except String DraftData := do
  let category ← categoryFor categories (categoryKey parsed.categoryHint)
  return {
    slug := cut 125 (slugPart (parsed.seed l.unicode)) ++ "-" ++ suffix sha256 parsed.canonicalUrl
    title := parsed.title
    aliases := parsed.aliases.map (cut 100)
    manufacturer := parsed.manufacturer
    model := parsed.model
    primaryCategoryId := category.id
    tags := parsed.tags.map (cut 100)
    summary := parsed.summary
    description := parsed.description
    purpose := parsed.purpose
    usageNotes := parsed.usageNotes
    safetyNotes := parsed.safetyNotes
    difficulty := .beginner
    teacherNotes := none
    manualOriginal := false
    specifications := []
    compatibility := []
    codeExamples := [] }

/-- `idempotency_key`; `dumps` is the compact JSON of a list of texts. -/
def ParsedRepositoryComponent.idempotencyKey (parsed : ParsedRepositoryComponent) : String :=
  "repo-v1:" ++ sha256 (dumps [parsed.sourceKey, parsed.repositoryUrl, parsed.sourceRevision,
    parsed.sourceFilePath, parsed.sourceEntryName.getD ""])

/-- `slug_identity` of `persist_repository_draft`. -/
def ParsedRepositoryComponent.seed (u : Unicode) (source : Source)
    (parsed : ParsedRepositoryComponent) : String :=
  u.casefold (source.key ++ "-" ++ parsed.sourceFilePath ++ "-" ++ parsed.sourceEntryName.getD "")

/-- `str(first or second or default)` of two fields. -/
def fieldText (fields : JsonDict) (first second default : String) : String :=
  (((Media.get fields first).orElse (Media.get fields second)).orElse (.str default)).text l

/-- `text or default`. -/
def textOr (text default : String) : String := if text = "" then default else text

/-- The draft of `persist_repository_draft`, of an entry that is not imported yet. -/
def ParsedRepositoryComponent.draft (source : Source) (parsed : ParsedRepositoryComponent) :
    Except String DraftData := do
  require parsed.status.isParsed "repository_parse_not_persistable"
  require (source.key = parsed.sourceKey ∧ source.status = "active" ∧ source.isEnabled ∧
    source.permissionStatus = "license_granted" ∧ source.repositoryUrl = some parsed.repositoryUrl)
    "repository_source_not_importable"
  require (source.licenseSpdx = some parsed.licenseSnapshot.spdx ∧
    source.licenseUrl = some parsed.licenseSnapshot.url) "repository_license_snapshot_mismatch"
  let fields := parsed.normalizedFields
  let title := cut 160 (fieldText l fields "title" "symbol_name" "")
  require (title ≠ "") "repository_title_missing"
  let summary := cut 500 (strip (fieldText l fields "summary" "description" ""))
  let summary := if summary.length < 20 then
      cut 500 ("Structured metadata for " ++ title ++ " imported from " ++ source.displayName ++
        ".")
    else summary
  let description := textOr (cut 2000 (strip
    (((Media.get fields "description").orElse (.str summary)).text l))) summary
  let category ← categoryFor categories
    (((Media.get fields "category_hint").orElse (.str "other")).text l)
  return {
    slug := textOr (cut 125 (slugPart (parsed.seed l.unicode source))) "repository-import" ++ "-" ++
      suffix sha256 (parsed.idempotencyKey sha256 dumps)
    title := title
    aliases := []
    manufacturer := none
    model := if (Media.get fields "value").truthy then
        some (cut 120 ((Media.get fields "value").text l))
      else none
    primaryCategoryId := category.id
    tags := [replaced '_' '-' source.key]
    summary := summary
    description := description
    purpose := none
    usageNotes := none
    safetyNotes := none
    difficulty := .beginner
    teacherNotes := none
    manualOriginal := false
    specifications := technicalSpecifications l fields
    compatibility := []
    codeExamples := [] }

end

/-! ## Slugs -/

/-- A part of a slug. -/
def SlugPart (part : List Char) : Prop := part ≠ [] ∧ ∀ c ∈ part, isSlugChar c

theorem slugPart_of_mem_runs {cs part : List Char} (h : part ∈ runs cs) : SlugPart part :=
  ⟨(solid_of_mem_parts h).1, fun c hc => by simpa using (solid_of_mem_parts h).2 c hc⟩

theorem SlugPart.hyphen {part : List Char} (h : SlugPart part) : '-' ∉ part :=
  fun hmem => absurd (h.2 _ hmem) (by decide)

theorem splitOn_parts {parts : List (List Char)} (hne : parts ≠ [])
    (h : ∀ part ∈ parts, SlugPart part) : (['-'].intercalate parts).splitOn '-' = parts :=
  List.splitOn_intercalate '-' (fun part hpart => (h part hpart).hyphen) hne

/-- The first `n` characters of the parts of a slug end with a hyphen. -/
def CutBehindHyphen (n : Nat) (parts : List (List Char)) : Prop :=
  ∃ before after, parts = before ++ after ∧ before ≠ [] ∧ after ≠ [] ∧
    (before.map fun part => part.length + 1).sum = n

theorem length_flatMap_hyphen (parts : List (List Char)) :
    (parts.flatMap fun part => part ++ ['-']).length =
      (parts.map fun part => part.length + 1).sum := by
  rw [List.length_flatMap]
  simp

theorem cutBehindHyphen_iff {n : Nat} {parts : List (List Char)} (hne : parts ≠ [])
    (h : ∀ part ∈ parts, SlugPart part) :
    CutBehindHyphen n parts ↔ ((['-'].intercalate parts).take n).getLast? = some '-' := by
  constructor
  · rintro ⟨before, after, rfl, hbefore, hafter, rfl⟩
    rw [intercalate_append before hafter, ← length_flatMap_hyphen, List.take_left]
    rcases List.eq_nil_or_concat before with rfl | ⟨parts, part, rfl⟩
    · exact absurd rfl hbefore
    · simp
  · intro hlast
    obtain ⟨before, last, first, after, htake, hdrop, hall⟩ := splitOn_append (a := '-')
      ((['-'].intercalate parts).take n) ((['-'].intercalate parts).drop n)
    rw [List.take_append_drop, splitOn_parts hne h] at hall
    have hnil : last = [] := (getLast_splitOn htake).mpr (.inr hlast)
    subst hnil
    rw [List.nil_append] at hall
    -- what was taken is the first parts, each with its hyphen
    have htext : (['-'].intercalate parts).take n = before.flatMap fun part => part ++ ['-'] := by
      have hwhole : ['-'].intercalate (((['-'].intercalate parts).take n).splitOn '-') =
          (['-'].intercalate parts).take n := List.intercalate_splitOn '-'
      rw [← hwhole, htake, intercalate_append before (List.cons_ne_nil _ _)]
      simp
    refine ⟨before, first :: after, hall, ?_, List.cons_ne_nil _ _, ?_⟩
    · rintro rfl
      rw [htext] at hlast
      cases hlast
    · -- nothing was left out, unless a part is empty
      have hfirst : first ≠ [] := (h first (by rw [hall]; simp)).1
      have hlong : n ≤ (['-'].intercalate parts).length := by
        by_contra hshort
        rw [List.drop_of_length_le (by omega), List.splitOn_nil] at hdrop
        exact hfirst (List.cons.inj hdrop).1.symm
      rw [← length_flatMap_hyphen, ← htext, List.length_take, Nat.min_eq_left hlong]

theorem take_parts_ne_nil {n : Nat} (hn : 0 < n) {parts : List (List Char)} (hne : parts ≠ [])
    (h : ∀ part ∈ parts, SlugPart part) : (['-'].intercalate parts).take n ≠ [] := by
  intro hnil
  have hbase : ['-'].intercalate parts = [] :=
    (List.take_eq_nil_iff.mp hnil).resolve_left (by omega)
  have hparts := splitOn_parts hne h
  rw [hbase, List.splitOn_nil] at hparts
  exact (h [] (by rw [← hparts]; exact List.mem_singleton_self _)).1 rfl

/-- **The cuts of a slug that are slugs again**, before a last part. -/
theorem isSlug_cut {n : Nat} (hn : 0 < n) {parts : List (List Char)} {tail : String}
    (h : ∀ part ∈ parts, SlugPart part) (htail : SlugPart tail.toList) :
    isSlug (cut n (String.ofList (['-'].intercalate parts)) ++ "-" ++ tail) ↔
      parts ≠ [] ∧ ¬ CutBehindHyphen n parts := by
  have htext : (cut n (String.ofList (['-'].intercalate parts)) ++ "-" ++ tail).toList =
      (['-'].intercalate parts).take n ++ '-' :: tail.toList := by
    simp [cut]
  have htailSplit : tail.toList.splitOn '-' = [tail.toList] :=
    List.splitOn_eq_singleton htail.hyphen
  have hslug : isSlug (cut n (String.ofList (['-'].intercalate parts)) ++ "-" ++ tail) ↔
      ∀ part ∈ ((['-'].intercalate parts).take n).splitOn '-', SlugPart part := by
    rw [isSlug, htext, List.splitOn_append_cons_self, htailSplit, List.all_append]
    have hlast : ([tail.toList].all fun part => !part.isEmpty && part.all isSlugChar) = true := by
      simpa [SlugPart] using htail
    rw [hlast, Bool.and_true]
    simp [SlugPart]
  rw [hslug]
  by_cases hne : parts = []
  · subst hne
    simp [SlugPart, List.intercalate]
  · rw [cutBehindHyphen_iff hne h]
    obtain ⟨before, last, first, after, htake, -, hall⟩ := splitOn_append (a := '-')
      ((['-'].intercalate parts).take n) ((['-'].intercalate parts).drop n)
    rw [List.take_append_drop, splitOn_parts hne h] at hall
    have hempty := getLast_splitOn htake
    have hsome := take_parts_ne_nil hn hne h
    rw [htake]
    constructor
    · intro hparts
      refine ⟨hne, fun hend => ?_⟩
      exact (hparts last (by simp)).1 (hempty.mpr (.inr hend))
    · rintro ⟨-, hend⟩ part hpart
      rcases List.mem_append.mp hpart with hpart | hpart
      · exact h part (by rw [hall]; exact List.mem_append_left _ hpart)
      · obtain rfl := List.mem_singleton.mp hpart
        refine ⟨fun hnil => (hempty.mp hnil).elim hsome hend, fun c hc => ?_⟩
        exact (h (part ++ first) (by rw [hall]; simp)).2 c (List.mem_append_left _ hc)

/-! ## Specifications -/

theorem length_cut (n : Nat) (s : String) : (cut n s).length ≤ n := by
  rw [cut, String.length_ofList]
  exact List.length_take_le n s.toList

/-- The first word of a text that is not empty is there, and it is no space. -/
theorem collapsed_head {s : String} (h : collapsed s ≠ "") :
    ∃ c ∈ (collapsed s).toList.head?, isSpace c = false := by
  unfold collapsed collapse at h ⊢
  rw [String.toList_ofList]
  cases hs : parts isSpace s.toList with
  | nil =>
    rw [hs] at h
    exact absurd rfl h
  | cons word rest =>
    obtain ⟨hne, hspace⟩ := solid_of_mem_parts (hs ▸ List.mem_cons_self)
    obtain ⟨c, cs, rfl⟩ := List.exists_cons_of_ne_nil hne
    refine ⟨c, ?_, hspace c List.mem_cons_self⟩
    by_cases hrest : rest = []
    · rw [hrest, List.intercalate_singleton]
      rfl
    · rw [List.intercalate_cons_of_ne_nil hrest]
      rfl

/-- A text that does not start with a space does not become blank when it is cut. -/
theorem not_isBlank_cut {n : Nat} (hn : 0 < n) {s : String}
    (h : ∃ c ∈ s.toList.head?, isSpace c = false) : ¬ isBlank (cut n s) := by
  obtain ⟨c, hc, hspace⟩ := h
  rw [isBlank_iff, cut, String.toList_ofList]
  intro hall
  have hmem : c ∈ s.toList.take n := by
    obtain ⟨cs, hcs⟩ := List.head?_eq_some_iff.mp hc
    obtain ⟨k, rfl⟩ : ∃ k, n = k + 1 := ⟨n - 1, by omega⟩
    rw [hcs, List.take_succ_cons]
    exact List.mem_cons_self
  exact Bool.false_ne_true (hspace.symm.trans (hall c hmem))

/-- What the table says of each of its specifications. -/
theorem definitions_fit : ∀ row ∈ definitions,
    isSlug row.1 ∧ ¬ isBlank row.2.1 ∧ (strip row.2.1).length ≤ 160 := by
  decide +kernel

theorem canonicalSpecification_fits {u : Unicode} {label value : String}
    {specification : CanonicalSpecification}
    (h : canonicalSpecification u label value = some specification) :
    (isSlug specification.key ∧ ¬ isBlank specification.label ∧
      (strip specification.label).length ≤ 160) ∧
    ¬ isBlank specification.value ∧ (strip specification.value).length ≤ 2000 := by
  unfold canonicalSpecification at h
  obtain ⟨⟨key, canonicalLabel, aliases⟩, hfind, h⟩ := Option.bind_eq_some_iff.mp h
  simp only at h
  split at h
  · cases h
  rename_i hvalue
  cases h
  exact ⟨definitions_fit _ (List.mem_of_find?_eq_some hfind), not_isBlank_cut (by decide)
    (collapsed_head hvalue), (length_strip_le _).trans (length_cut 2000 _)⟩

/-- What every list of specifications made so far is. -/
structure Filed (u : Unicode) (specifications : List TechnicalSpecification) : Prop where
  few : specifications.length ≤ 50
  accepted : ∀ item ∈ specifications, item.Accepted u
  nodup : (specifications.map TechnicalSpecification.key).Nodup

theorem specificationOf_fits {l : Language} {seen : List String} {item : JsonValue}
    {specification : CanonicalSpecification}
    (h : specificationOf l seen item = some specification) :
    specification.key ∉ seen ∧ ∃ label value,
      canonicalSpecification l.unicode label value = some specification := by
  unfold specificationOf at h
  split at h
  · split at h
    · obtain ⟨hsome, hseen⟩ := Option.filter_eq_some_iff.mp h
      exact ⟨by simpa using hseen, _, _, hsome⟩
    · cases h
  · cases h

/-- One specification is added. -/
theorem Filed.concat {l : Language} {specifications : List TechnicalSpecification}
    {item : JsonValue} {specification : CanonicalSpecification}
    (hfiled : Filed l.unicode specifications) (hfew : specifications.length < 50)
    (h : specificationOf l (specifications.map TechnicalSpecification.key) item =
      some specification) (position : Nat) :
    Filed l.unicode (specifications ++ [⟨specification.key, specification.label,
      specification.value, none, none, position⟩]) := by
  obtain ⟨hseen, label, value, hcanonical⟩ := specificationOf_fits h
  obtain ⟨⟨hkey, hlabel⟩, hvalue⟩ := canonicalSpecification_fits hcanonical
  refine ⟨?_, ?_, ?_⟩
  · rw [List.length_append, List.length_singleton]
    exact hfew
  · intro item hitem
    rcases List.mem_append.mp hitem with hitem | hitem
    · exact hfiled.accepted item hitem
    · obtain rfl := List.mem_singleton.mp hitem
      exact ⟨hkey, hlabel, hvalue, by simp, by simp⟩
  · rw [List.map_append, List.map_singleton, ← List.concat_eq_append]
    exact List.Nodup.concat hseen hfiled.nodup

theorem specificationsFrom_filed {l : Language} {specifications : List TechnicalSpecification}
    (h : Filed l.unicode specifications) (hfew : specifications.length < 50)
    (items : List JsonValue) : Filed l.unicode (specificationsFrom l specifications items) := by
  induction items generalizing specifications with
  | nil => exact h
  | cons item items ih =>
    have hcons : specificationsFrom l specifications (item :: items) =
        match specificationOf l (specifications.map TechnicalSpecification.key) item with
        | none => specificationsFrom l specifications items
        | some specification =>
          let next : List TechnicalSpecification := specifications ++
            [⟨specification.key, specification.label, specification.value, none, none,
              specifications.length⟩]
          if next.length = 50 then next else specificationsFrom l next items := rfl
    rw [hcons]
    cases hspec : specificationOf l (specifications.map TechnicalSpecification.key) item with
    | none => exact ih h hfew
    | some specification =>
      have hnext := h.concat hfew hspec specifications.length
      simp only
      split
      · exact hnext
      · rename_i hfifty
        exact ih hnext (Nat.lt_of_le_of_ne hnext.few hfifty)

/-- The specifications of an entry are accepted. -/
theorem technicalSpecifications_filed (l : Language) (fields : JsonDict) :
    Filed l.unicode (technicalSpecifications l fields) := by
  unfold technicalSpecifications
  have hnil : Filed l.unicode [] := ⟨by simp, by simp, List.nodup_nil⟩
  split
  · exact specificationsFrom_filed hnil (by simp) _
  · exact hnil

/-! ## What the catalog makes of the drafts -/

/-- `hexdigest()`. -/
structure Hexadecimal (sha256 : String → String) : Prop where
  length : ∀ text, (sha256 text).length = 64
  digit : ∀ text, ∀ c ∈ (sha256 text).toList, isHexDigit c

/-- An import that is persisted as a new card. -/
inductive Import where
  | page (parsed : ParsedComponent)
  | entry (source : Source) (parsed : ParsedRepositoryComponent)

section

variable (l : Language) (sha256 : String → String) (dumps : List String → String)
  (categories : List Category)

/-- The document was accepted by its constructor. -/
def Import.Constructed (u : Unicode) : Import → Prop
  | .page parsed => parsed.check = .ok ()
  | .entry _ parsed => ∃ given : ParsedRepositoryComponent, given.check u = .ok parsed

def Import.draft : Import → Except String DraftData
  | .page parsed => parsed.draft l sha256 categories
  | .entry source parsed => parsed.draft l sha256 dumps categories source

/-- What the suffix of a slug is the digest of. -/
def Import.identity : Import → String
  | .page parsed => parsed.canonicalUrl
  | .entry _ parsed => parsed.idempotencyKey sha256 dumps

/-- The names of a page, as they are cut. -/
structure NamesFit (u : Unicode) (values : List String) : Prop where
  filled : ∀ value ∈ values, ¬ isBlank (cut 100 value)
  nodup : (values.map fun value => normalized u (cut 100 value)).Nodup

/-- The inputs that give an acceptable draft. -/
def Import.Fits (u : Unicode) : Import → Prop
  | .page parsed =>
    runs (parsed.seed u).toList ≠ [] ∧ ¬ CutBehindHyphen 125 (runs (parsed.seed u).toList) ∧
      NamesFit u parsed.aliases ∧ NamesFit u parsed.tags
  | .entry source parsed =>
    ¬ CutBehindHyphen 125 (runs (parsed.seed u source).toList) ∧ ¬ isBlank source.key

/-- What the catalog demands of a draft, and what tells it from every other import. -/
structure Import.Acceptable (i : Import) (draft : DraftData) : Prop where
  accepted : validate l.unicode categories draft = .ok ()
  short : draft.slug.length ≤ 160
  distinct : ∀ (j : Import) (other : DraftData), j.draft l sha256 dumps categories = .ok other →
    i.identity sha256 dumps ≠ j.identity sha256 dumps →
    suffix sha256 (i.identity sha256 dumps) ≠ suffix sha256 (j.identity sha256 dumps) →
    draft.slug ≠ other.slug

end

variable {l : Language} {sha256 : String → String} {dumps : List String → String}
  {categories : List Category}

theorem isSlugChar_of_isHexDigit {c : Char} (h : isHexDigit c) : isSlugChar c := by
  have hrange : 48 ≤ c.toNat ∧ c.toNat ≤ 57 ∨ 97 ≤ c.toNat ∧ c.toNat ≤ 102 := by
    simpa [isHexDigit, Char.isDigit, Char.le_def, UInt32.le_iff_toNat_le] using h
  have hslug : 97 ≤ c.toNat ∧ c.toNat ≤ 122 ∨ 48 ≤ c.toNat ∧ c.toNat ≤ 57 := by omega
  simpa [isSlugChar, Char.le_def, UInt32.le_iff_toNat_le] using hslug

theorem slugPart_suffix (hsha : Hexadecimal sha256) (identity : String) :
    SlugPart (suffix sha256 identity).toList ∧ (suffix sha256 identity).length = 12 := by
  have hlength : (suffix sha256 identity).length = 12 := by
    have hlong := hsha.length identity
    rw [← String.length_toList] at hlong
    rw [suffix, cut, String.length_ofList, List.length_take, hlong]
    rfl
  refine ⟨⟨fun hnil => ?_, fun c hc => ?_⟩, hlength⟩
  · rw [← String.length_toList, hnil] at hlength
    cases hlength
  · rw [suffix, cut, String.toList_ofList] at hc
    exact isSlugChar_of_isHexDigit (hsha.digit identity c (List.take_subset 12 _ hc))

/-- Every slug is a base, a hyphen and the suffix. -/
theorem slug_eq {i : Import} {draft : DraftData}
    (h : i.draft l sha256 dumps categories = .ok draft) :
    ∃ base, base.length ≤ 125 ∧
      draft.slug = base ++ "-" ++ suffix sha256 (i.identity sha256 dumps) := by
  cases i with
  | page parsed =>
    obtain ⟨category, -, h⟩ := bind_eq_ok.mp h
    rw [← Except.ok.inj h]
    exact ⟨_, length_cut 125 _, rfl⟩
  | entry source parsed =>
    obtain ⟨-, h⟩ := seq_eq_ok.mp h
    obtain ⟨-, h⟩ := seq_eq_ok.mp h
    obtain ⟨-, h⟩ := seq_eq_ok.mp h
    obtain ⟨-, h⟩ := seq_eq_ok.mp h
    obtain ⟨category, -, h⟩ := bind_eq_ok.mp h
    rw [← Except.ok.inj h]
    refine ⟨_, ?_, rfl⟩
    unfold textOr
    split
    · decide
    · exact length_cut 125 _

theorem namesFit_iff {u : Unicode} {values : List String} (hfew : values.length ≤ 20) :
    Catalog.Names u (values.map (cut 100)) ↔ NamesFit u values := by
  constructor
  · intro h
    refine ⟨fun value hvalue => (h.each _ (List.mem_map_of_mem hvalue)).1, ?_⟩
    simpa [List.map_map, Function.comp_def] using h.nodup
  · intro h
    refine ⟨by rw [List.length_map]; exact hfew, fun value hvalue => ?_, ?_⟩
    · obtain ⟨whole, hwhole, rfl⟩ := List.mem_map.mp hvalue
      exact ⟨h.filled whole hwhole, (length_strip_le _).trans (length_cut 100 whole)⟩
    · simpa [List.map_map, Function.comp_def] using h.nodup

theorem slug_short (hsha : Hexadecimal sha256) {i : Import} {draft : DraftData}
    (h : i.draft l sha256 dumps categories = .ok draft) : draft.slug.length ≤ 160 := by
  obtain ⟨base, hbase, hslug⟩ := slug_eq h
  rw [hslug, String.length_append, String.length_append, (slugPart_suffix hsha _).2]
  have hhyphen : "-".length = 1 := by decide
  omega

/-- Slugs with different suffixes differ. -/
theorem slug_distinct (hsha : Hexadecimal sha256) {i j : Import} {draft other : DraftData}
    (hi : i.draft l sha256 dumps categories = .ok draft)
    (hj : j.draft l sha256 dumps categories = .ok other)
    (hne : suffix sha256 (i.identity sha256 dumps) ≠ suffix sha256 (j.identity sha256 dumps)) :
    draft.slug ≠ other.slug := by
  obtain ⟨base, -, hslug⟩ := slug_eq hi
  obtain ⟨base', -, hslug'⟩ := slug_eq hj
  intro heq
  rw [hslug, hslug'] at heq
  have hlist := congrArg String.toList heq
  rw [String.toList_append, String.toList_append (t := suffix sha256 (j.identity sha256 dumps))]
    at hlist
  have hlengths : (suffix sha256 (i.identity sha256 dumps)).toList.length =
      (suffix sha256 (j.identity sha256 dumps)).toList.length := by
    rw [String.length_toList, String.length_toList, (slugPart_suffix hsha _).2,
      (slugPart_suffix hsha _).2]
  exact hne (String.toList_inj.mp (List.append_inj_right' hlist hlengths))

/-- What is left to ask of a draft whose specifications are in order. -/
theorem validate_imported {u : Unicode} {draft : DraftData}
    (hactive : ∃ category ∈ categories, category.id = draft.primaryCategoryId ∧ category.isActive)
    (hfiled : Filed u draft.specifications) (hcompatibility : draft.compatibility = [])
    (hexamples : draft.codeExamples = []) :
    validate u categories draft = .ok () ↔
      isSlug draft.slug ∧ Catalog.Names u draft.aliases ∧ Catalog.Names u draft.tags := by
  have hnone : validateCompatibility u [] = .ok () := by
    unfold validateCompatibility
    rw [require_eq_ok]
    simp
  rw [validate_iff, hcompatibility, hexamples]
  constructor
  · rintro ⟨hslug, haliases, htags, -⟩
    exact ⟨hslug, haliases, htags⟩
  · rintro ⟨hslug, haliases, htags⟩
    exact ⟨hslug, haliases, htags, ⟨hfiled.few, by simp, by simp⟩, hactive,
      ⟨hfiled.accepted, hfiled.nodup⟩, hnone, by simp⟩

/-- A page's draft is accepted iff the page fits. -/
theorem page_iff (hsha : Hexadecimal sha256) {parsed : ParsedComponent} {draft : DraftData}
    (hchecked : parsed.check = .ok ()) (h : parsed.draft l sha256 categories = .ok draft)
    (hactive : ∃ category ∈ categories, category.id = draft.primaryCategoryId ∧ category.isActive) :
    validate l.unicode categories draft = .ok () ↔ Import.Fits l.unicode (.page parsed) := by
  obtain ⟨-, hchecked⟩ := seq_eq_ok.mp hchecked
  obtain ⟨hfew, -⟩ := seq_eq_ok.mp hchecked
  rw [require_eq_ok] at hfew
  obtain ⟨category, -, h⟩ := bind_eq_ok.mp h
  have hslug : isSlug (cut 125 (slugPart (parsed.seed l.unicode)) ++ "-" ++
        suffix sha256 parsed.canonicalUrl) ↔
      runs (parsed.seed l.unicode).toList ≠ [] ∧
        ¬ CutBehindHyphen 125 (runs (parsed.seed l.unicode).toList) :=
    isSlug_cut (by decide) (fun _ => slugPart_of_mem_runs)
      (slugPart_suffix hsha parsed.canonicalUrl).1
  rw [← Except.ok.inj h] at hactive ⊢
  rw [validate_imported hactive ⟨by simp, by simp, List.nodup_nil⟩ rfl rfl,
    namesFit_iff hfew.1, namesFit_iff hfew.2, Import.Fits]
  constructor
  · rintro ⟨hs, hnames⟩
    obtain ⟨hne, hcut⟩ := hslug.mp hs
    exact ⟨hne, hcut, hnames⟩
  · rintro ⟨hne, hcut, hnames⟩
    exact ⟨hslug.mpr ⟨hne, hcut⟩, hnames⟩

theorem isBlank_replaced (s : String) : isBlank (replaced '_' '-' s) ↔ isBlank s := by
  have hspace : isSpace '_' = false ∧ isSpace '-' = false := by decide
  rw [isBlank_iff, isBlank_iff, replaced, String.toList_ofList, List.forall_mem_map]
  refine forall₂_congr fun c _ => ?_
  split
  · rename_i hc
    rw [hc, hspace.1, hspace.2]
  · rfl

/-- The one tag of an entry. -/
theorem names_tag {u : Unicode} {key : String} (hshort : key.length ≤ 80) :
    Catalog.Names u [replaced '_' '-' key] ↔ ¬ isBlank key := by
  have hlength : (strip (replaced '_' '-' key)).length ≤ 100 := by
    have hle := length_strip_le (replaced '_' '-' key)
    have heq : (replaced '_' '-' key).length = key.length := by
      rw [replaced, String.length_ofList, List.length_map, String.length_toList]
    omega
  constructor
  · intro h hblank
    exact (h.each _ (List.mem_singleton_self _)).1 ((isBlank_replaced key).mpr hblank)
  · intro h
    refine ⟨by simp, fun value hvalue => ?_, by simp⟩
    obtain rfl := List.mem_singleton.mp hvalue
    exact ⟨fun hblank => h ((isBlank_replaced key).mp hblank), hlength⟩

/-- The slug of an entry. -/
theorem isSlug_entry (hsha : Hexadecimal sha256) (seed identity : String) :
    isSlug (textOr (cut 125 (slugPart seed)) "repository-import" ++ "-" ++
      suffix sha256 identity) ↔ ¬ CutBehindHyphen 125 (runs seed.toList) := by
  have hparts : ∀ part ∈ runs seed.toList, SlugPart part := fun _ => slugPart_of_mem_runs
  have htail := (slugPart_suffix hsha identity).1
  by_cases hruns : runs seed.toList = []
  · have hempty : cut 125 (slugPart seed) = "" := by
      rw [slugPart, hruns]
      decide
    have hslug : isSlug ("repository-import" ++ "-" ++ suffix sha256 identity) := by
      have hwords : ∀ part ∈ ["repository".toList, "import".toList], SlugPart part := by
        unfold SlugPart
        decide
      have htext : cut 125 (String.ofList
          (['-'].intercalate ["repository".toList, "import".toList])) = "repository-import" := by
        decide
      rw [← htext, isSlug_cut (by decide) hwords htail, cutBehindHyphen_iff (by decide) hwords]
      decide
    rw [textOr, if_pos hempty, hruns]
    refine iff_of_true hslug ?_
    rintro ⟨before, after, hnil, hbefore, -⟩
    exact hbefore (List.append_eq_nil_iff.mp hnil.symm).1
  · have hsome : cut 125 (slugPart seed) ≠ "" := by
      intro hempty
      refine take_parts_ne_nil (n := 125) (by decide) hruns hparts ?_
      simpa [cut, slugPart] using hempty
    rw [textOr, if_neg hsome, slugPart, isSlug_cut (by decide) hparts htail]
    simp [hruns]

/-- An entry's draft is accepted iff the entry fits. -/
theorem entry_iff (hsha : Hexadecimal sha256) {source : Source}
    {parsed : ParsedRepositoryComponent} {draft : DraftData}
    (h : parsed.draft l sha256 dumps categories source = .ok draft)
    (hactive : ∃ category ∈ categories, category.id = draft.primaryCategoryId ∧ category.isActive) :
    validate l.unicode categories draft = .ok () ↔
      Import.Fits l.unicode (.entry source parsed) := by
  obtain ⟨-, h⟩ := seq_eq_ok.mp h
  obtain ⟨-, h⟩ := seq_eq_ok.mp h
  obtain ⟨-, h⟩ := seq_eq_ok.mp h
  obtain ⟨-, h⟩ := seq_eq_ok.mp h
  obtain ⟨category, -, h⟩ := bind_eq_ok.mp h
  rw [← Except.ok.inj h] at hactive ⊢
  rw [validate_imported hactive (technicalSpecifications_filed l parsed.normalizedFields) rfl rfl,
    isSlug_entry hsha, names_tag source.key_short, Import.Fits]
  have hnone : Catalog.Names l.unicode [] := ⟨by simp, by simp, List.nodup_nil⟩
  simp [hnone]

/-- **The draft of an import is acceptable iff the import fits.** -/
theorem draft_iff (hsha : Hexadecimal sha256) {i : Import} {draft : DraftData}
    (hconstructed : i.Constructed l.unicode) (h : i.draft l sha256 dumps categories = .ok draft)
    (hactive : ∃ category ∈ categories, category.id = draft.primaryCategoryId ∧ category.isActive) :
    i.Acceptable l sha256 dumps categories draft ↔ i.Fits l.unicode := by
  have hvalid : validate l.unicode categories draft = .ok () ↔ i.Fits l.unicode := by
    cases i with
    | page parsed => exact page_iff hsha hconstructed h hactive
    | entry source parsed => exact entry_iff hsha h hactive
  constructor
  · intro hacceptable
    exact hvalid.mp hacceptable.accepted
  · intro hfits
    exact ⟨hvalid.mpr hfits, slug_short hsha h, fun j other hj _ hne => slug_distinct hsha h hj hne⟩

/-! ## Pages -/

def plainLanguage : Language where
  unicode := plainUnicode
  render _ := ""

/-- An identifier whose hyphen is the 125th character of the slug. -/
def longIdentifier : String := String.ofList (List.replicate 111 'a' ++ ['-', 'b'])

/-- The digests of the addresses of two pages; any other text gives the digest of the empty one. -/
def pageDigest (text : String) : String :=
  if text = "https://alexgyver.ru/meteoclock/" then
    "e467fa1df4df757a87139e2087a386de5753754ffff5ebab8bbfdff7844fccbe"
  else if text = "https://alexgyver.ru/" ++ longIdentifier ++ "/" then
    "4f65b83463add2660c9277024c2b15a23ce4de21c353e991668242066a447979"
  else "e3b0c44298fc1c149afbf4c8996fb92427ae41e4649b934ca495991b7852b855"

theorem pageDigest_hexadecimal : Hexadecimal pageDigest := by
  have hvalues : ∀ text, pageDigest text ∈
      ["e467fa1df4df757a87139e2087a386de5753754ffff5ebab8bbfdff7844fccbe",
       "4f65b83463add2660c9277024c2b15a23ce4de21c353e991668242066a447979",
       "e3b0c44298fc1c149afbf4c8996fb92427ae41e4649b934ca495991b7852b855"] := by
    intro text
    unfold pageDigest
    split_ifs <;> simp
  have hfit : ∀ value ∈
      ["e467fa1df4df757a87139e2087a386de5753754ffff5ebab8bbfdff7844fccbe",
       "4f65b83463add2660c9277024c2b15a23ce4de21c353e991668242066a447979",
       "e3b0c44298fc1c149afbf4c8996fb92427ae41e4649b934ca495991b7852b855"],
      value.length = 64 ∧ ∀ c ∈ value.toList, isHexDigit c := by decide +kernel
  exact ⟨fun text => (hfit _ (hvalues text)).1, fun text => (hfit _ (hvalues text)).2⟩

/-- A page of a project with the address `/identifier/`. -/
def projectPage (identifier : String) : ParsedComponent :=
  { sourceHost := "alexgyver.ru"
    sourceUrl := "https://alexgyver.ru/" ++ identifier ++ "/"
    canonicalUrl := "https://alexgyver.ru/" ++ identifier ++ "/"
    sourceItemId := identifier
    sourceContentSha256 := "e3b0c44298fc1c149afbf4c8996fb92427ae41e4649b934ca495991b7852b855"
    parserName := "alexgyver"
    parserVersion := "1"
    parsedAt := 0
    title := "Meteo clock"
    summary := "A clock that shows the weather."
    description := "A clock that shows the weather."
    aliases := []
    manufacturer := none
    model := none
    purpose := none
    usageNotes := none
    safetyNotes := none
    categoryHint := none
    tags := ["arduino", "alexgyver"] }

def seededCategories : List Category := [⟨1, "other", "Other", none, none, true, 0⟩]

/-- The draft of the page. -/
def projectDraft (identifier : String) : DraftData :=
  ((projectPage identifier).draft plainLanguage pageDigest seededCategories).toOption.getD
    (sensorDraft "" false)

/-- A page whose slug is short enough. -/
theorem draft_iff_page : (Import.page (projectPage "meteoclock")).Acceptable plainLanguage
    pageDigest (fun _ => "") seededCategories (projectDraft "meteoclock") := by
  have hchecked : (projectPage "meteoclock").check = .ok () :=
    toOption_eq_some.mp (by decide +kernel)
  have hdraft : (projectPage "meteoclock").draft plainLanguage pageDigest seededCategories =
      .ok (projectDraft "meteoclock") := toOption_eq_some.mp (by decide +kernel)
  have hparts : runs ((projectPage "meteoclock").seed plainUnicode).toList =
      ["alexgyver".toList, "ru".toList, "meteoclock".toList] := by decide +kernel
  have hfits : (Import.page (projectPage "meteoclock")).Fits plainUnicode := by
    refine ⟨by rw [hparts]; decide, ?_, ⟨by decide +kernel, by decide +kernel⟩,
      ⟨by decide +kernel, by decide +kernel⟩⟩
    rw [hparts, cutBehindHyphen_iff (by decide) (by unfold SlugPart; decide)]
    decide
  exact (draft_iff (l := plainLanguage) (i := .page (projectPage "meteoclock"))
    pageDigest_hexadecimal hchecked hdraft (by decide +kernel)).mpr hfits

/-- **A double hyphen.** The slug is cut behind a hyphen, and another one follows. -/
theorem draft_cut : (projectPage longIdentifier).check = .ok () ∧
    (projectPage longIdentifier).draft plainLanguage pageDigest seededCategories =
      .ok (projectDraft longIdentifier) ∧
    (∃ category ∈ seededCategories,
      category.id = (projectDraft longIdentifier).primaryCategoryId ∧ category.isActive) ∧
    validate plainUnicode seededCategories (projectDraft longIdentifier) =
      .error (invalid "invalid_slug") := by
  have hchecked : (projectPage longIdentifier).check.toOption = some () := by decide +kernel
  have hdraft : ((projectPage longIdentifier).draft plainLanguage pageDigest
      seededCategories).toOption = some (projectDraft longIdentifier) := by decide +kernel
  have hslug : ¬ isSlug (projectDraft longIdentifier).slug := by decide +kernel
  refine ⟨toOption_eq_some.mp hchecked, toOption_eq_some.mp hdraft, by decide +kernel, ?_⟩
  rw [validate, require, if_neg hslug]
  rfl

end ComponentKb.Imports.Drafts
