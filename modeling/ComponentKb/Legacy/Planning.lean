import ComponentKb.Catalog.Sharing

/-!
# The draft of a legacy item

`legacy/planning.py`, with `normalize` of `legacy/parser.py`: the draft that is made of a target of
the workbook, and its merge into the draft of a card that is there. `digest` is the SHA-256 of the
JSON of some texts, in hexadecimal digits.

* `specificationKey`: the key of a specification is a digest of its label and its unit, both
  normalized; the label and the unit are stored as they are written.
* `draftData_spec`, `mergeData_spec`: a draft has its own specifications under such keys, after
  those of the card it is merged into.
-/

namespace ComponentKb.Legacy

open Catalog Lib

/-! ## Texts -/

/-- `str.split`. -/
def words (cs : List Char) : List (List Char) := (cs.splitOnP isSpace).filter (· ≠ [])

/-- A dash is a hyphen; brackets, commas, semicolons and quotation marks separate words. -/
def plainChar (c : Char) : Char :=
  if c = '–' ∨ c = '—' then '-'
  else if c ∈ ['\u00a0', '(', ')', ',', ';', '"', '«', '»'] then ' '
  else c

/-- `normalize`. -/
def normalize (u : Unicode) (value : String) : String :=
  joined ((words ((u.casefold (u.nfkc value)).toList.map plainChar)).map String.ofList)

/-! ## Targets -/

structure Specification where
  label : String
  value : String
  unit : Option String
  deriving DecidableEq, Repr

/-- A row of the workbook with the documents of its folder. -/
structure Target where
  identity : String
  title : String
  category : String
  description : String
  specifications : List Specification
  deriving DecidableEq, Repr

/-- `CATEGORY_KEYS`. -/
def categoryKeys : List (String × String) :=
  [("РАДИОКОМПОНЕНТЫ", "semiconductors"),
   ("МАКЕТНЫЕ ПЛАТЫ И ПИТАНИЕ", "power"),
   ("КНОПОЧНЫЕ ПЕРЕКЛЮЧАТЕЛИ И ВЫКЛЮЧАТЕЛИ", "input"),
   ("ИНТЕГРАЛЬНЫЕ СХЕМЫ", "integrated-circuits"),
   ("РЕЛЕ", "actuators"),
   ("СВЕТОДИОДНЫЕ МОДУЛЯ", "displays"),
   ("ДВИГАТЕЛИ И СЕРВОПРИВОДЫ", "actuators"),
   ("ДАТЧИКИ", "sensors"),
   ("МОДУЛЯ", "other"),
   ("ДИСПЛЕИ", "displays"),
   ("ПЛАТФОРМЫ РАЗРАБОТКИ", "boards"),
   ("ПЛАТЫ РАСШИРЕНИЯ", "boards")]

/-- `category_id`; a heading that is no key of the table fails as well. -/
def categoryId (categories : List Category) (target : Target) : Except CatalogError UUID :=
  fromSome
    ((categoryKeys.lookup target.category).bind fun key =>
      (categories.find? fun category => category.key = key ∧ category.isActive).map Category.id)
    (invalid "legacy_category_unavailable")

/-- `exceeds_draft_limits`. -/
def exceedsDraftLimits (target : Target) : Bool :=
  30000 < target.description.length || 50 < target.specifications.length ||
    target.specifications.any fun spec => 32 < (spec.unit.getD "").length

/-! ## Drafts -/

section Drafts

variable (u : Unicode) (digest : List String → String)

/-- The key under which a specification is stored. -/
def specificationKey (spec : Specification) : String :=
  "legacy-" ++ String.ofList
    ((digest [normalize u spec.label, normalize u (spec.unit.getD "")]).toList.take 24)

/-- The loop of `draft_data`: the first specification of each key. -/
def draftSpecifications : List TechnicalSpecification → List Specification →
    List TechnicalSpecification
  | specs, [] => specs
  | specs, spec :: rest =>
    if specificationKey u digest spec ∈ specs.map TechnicalSpecification.key then
      draftSpecifications specs rest
    else
      draftSpecifications (specs ++
        [{ key := specificationKey u digest spec
           label := spec.label
           valueText := spec.value
           valueNumber := none
           unit := spec.unit
           position := specs.length }]) rest

/-- `draft_data`. -/
def draftData (target : Target) (category : UUID) : Except CatalogError DraftData := do
  require (exceedsDraftLimits target = false) (invalid "legacy_draft_limits_review_required")
  .ok
    { slug := ""
      title := target.title
      aliases := []
      manufacturer := none
      model := none
      primaryCategoryId := category
      tags := []
      summary := ""
      description := target.description
      purpose := none
      usageNotes := none
      safetyNotes := none
      difficulty := .beginner
      teacherNotes := none
      manualOriginal := false
      specifications := draftSpecifications u digest [] target.specifications
      compatibility := []
      codeExamples := [] }

/-- The loop of `merge_data` over the specifications, with the warnings; `byLabel` is the table of
the labels seen. -/
def mergeSpecifications : (specs : List TechnicalSpecification) →
    (byLabel : List (String × TechnicalSpecification)) → (incoming : List TechnicalSpecification) →
      List TechnicalSpecification × List String
  | specs, _, [] => (specs, [])
  | specs, byLabel, spec :: rest =>
    match byLabel.lookup (normalize u spec.label) with
    | none =>
      if specs.length < 50 then
        mergeSpecifications (specs ++ [{ spec with position := specs.length }])
          ((normalize u spec.label, spec) :: byLabel) rest
      else
        let merged := mergeSpecifications specs byLabel rest
        (merged.1, "specification_limit_preserved_in_plan" :: merged.2)
    | some previous =>
      let merged := mergeSpecifications specs byLabel rest
      if (previous.valueText, previous.unit) ≠ (spec.valueText, spec.unit) then
        (merged.1, "existing_specification_preserved" :: merged.2)
      else merged

/-- The loop of `merge_data` over the aliases and the title. -/
def mergeAliases : (aliases seen incoming : List String) → List String × List String
  | aliases, _, [] => (aliases, [])
  | aliases, seen, alias_ :: rest =>
    if normalize u alias_ ∈ seen then mergeAliases aliases seen rest
    else if 20 ≤ aliases.length ∨ 100 < (strip alias_).length then
      let merged := mergeAliases aliases seen rest
      (merged.1, "alias_limit_preserved_in_plan" :: merged.2)
    else mergeAliases (aliases ++ [strip alias_]) (normalize u alias_ :: seen) rest

/-- `merge_data`. -/
def mergeData (existing incoming : DraftData) : DraftData × List String :=
  let specifications := mergeSpecifications u existing.specifications
    (existing.specifications.map fun spec => (normalize u spec.label, spec)).reverse
    incoming.specifications
  let aliases := mergeAliases u existing.aliases
    ((existing.aliases ++ [existing.title]).map (normalize u))
    (incoming.aliases ++ [incoming.title])
  ({ existing with
      description := if existing.description = "" then incoming.description
        else existing.description
      summary := if existing.summary = "" then incoming.summary else existing.summary
      aliases := aliases.1
      specifications := specifications.1 },
    specifications.2 ++
      (if existing.description ≠ "" ∧ incoming.description ≠ "" ∧
          existing.description ≠ incoming.description then ["existing_description_preserved"]
        else []) ++ aliases.2)

end Drafts

/-! ## The specifications of a draft -/

/-- A specification as a target has it: a text under a generated key. -/
def Generated (u : Unicode) (digest : List String → String) (item : TechnicalSpecification) :
    Prop :=
  item.valueNumber = none ∧ ∃ spec, item.key = specificationKey u digest spec

section Generated

variable {u : Unicode} {digest : List String → String}

theorem draftSpecifications_generated {specs : List TechnicalSpecification}
    {items : List Specification} (h : ∀ item ∈ specs, Generated u digest item) :
    ∀ item ∈ draftSpecifications u digest specs items, Generated u digest item := by
  induction items generalizing specs with
  | nil => exact h
  | cons spec rest ih =>
    rw [draftSpecifications]
    split
    · exact ih h
    · refine ih fun item hitem => ?_
      rcases List.mem_append.mp hitem with hitem | hitem
      · exact h item hitem
      · obtain rfl := List.mem_singleton.mp hitem
        exact ⟨rfl, spec, rfl⟩

theorem draftData_spec {target : Target} {category : UUID} {data : DraftData}
    (h : draftData u digest target category = .ok data) :
    ∀ item ∈ data.specifications, Generated u digest item := by
  obtain ⟨-, h⟩ := seq_eq_ok.mp h
  cases h
  exact draftSpecifications_generated fun item hitem => absurd hitem List.not_mem_nil

theorem mergeSpecifications_mem {specs incoming : List TechnicalSpecification}
    {byLabel : List (String × TechnicalSpecification)} {item : TechnicalSpecification}
    (h : item ∈ (mergeSpecifications u specs byLabel incoming).1) :
    item ∈ specs ∨ ∃ spec ∈ incoming, ∃ position, item = { spec with position := position } := by
  induction incoming generalizing specs byLabel with
  | nil => exact Or.inl h
  | cons spec rest ih =>
    have hrest : ∀ {specs byLabel}, item ∈ (mergeSpecifications u specs byLabel rest).1 →
        item ∈ specs ∨
          ∃ spec' ∈ spec :: rest, ∃ position, item = { spec' with position := position } := by
      intro specs byLabel hmem
      refine (ih hmem).imp_right ?_
      rintro ⟨spec', hspec', hitem⟩
      exact ⟨spec', List.mem_cons_of_mem _ hspec', hitem⟩
    rw [mergeSpecifications] at h
    split at h
    · split at h
      · rcases hrest h with hmem | hmem
        · rcases List.mem_append.mp hmem with hmem | hmem
          · exact Or.inl hmem
          · exact Or.inr ⟨spec, List.mem_cons_self, _, List.mem_singleton.mp hmem⟩
        · exact Or.inr hmem
      · exact hrest h
    · simp only at h
      split at h
      · exact hrest h
      · exact hrest h

/-- A merged draft has the specifications of the card and some of those that come in. -/
theorem mergeData_spec {existing incoming : DraftData} {item : TechnicalSpecification}
    (h : item ∈ (mergeData u existing incoming).1.specifications) :
    item ∈ existing.specifications ∨
      ∃ spec ∈ incoming.specifications, ∃ position, item = { spec with position := position } :=
  mergeSpecifications_mem h

end Generated

end ComponentKb.Legacy
