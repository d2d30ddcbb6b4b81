import ComponentKb.Basic
import ComponentKb.Catalog.Numbers
import ComponentKb.Lib.Checked

/-!
# Card content

The values of `catalog/domain.py` and the checks a draft passes before it is stored,
`CatalogService._validate` (`catalog/service.py`), in the order in which they are made.

* `validate_iff`: the drafts that are accepted.
* `validate_category`: an accepted draft is filed under an active category.
* `lifecycleTransitionSources_archived`: every status but `archived` may be archived.
-/

namespace ComponentKb.Catalog

open ComponentKb.Lib

/-! ## Statuses and actions -/

inductive ComponentStatus where
  | draft | inReview | changesRequested | approved | published | hidden | archived
  deriving DecidableEq, Repr

inductive ComponentChangeAction where
  | created | updated | mediaAttached | imagesUpdated | submittedForReview | changesRequested
  | approved | published | hidden | shown | archived | restored | merged | archivedByMerge
  deriving DecidableEq, Repr

/-- `LIFECYCLE_TRANSITION_SOURCES`; nothing leads back to a draft. -/
def lifecycleTransitionSources : ComponentStatus → List ComponentStatus
  | .draft => []
  | .inReview => [.draft, .changesRequested]
  | .changesRequested => [.inReview, .approved]
  | .approved => [.inReview]
  | .published => [.approved]
  | .hidden => [.published]
  | .archived => [.draft, .inReview, .changesRequested, .approved, .published, .hidden]

/-- `LIFECYCLE_TRANSITION_ACTIONS`. -/
def lifecycleTransitionAction : ComponentStatus → Option ComponentChangeAction
  | .draft => none
  | .inReview => some .submittedForReview
  | .changesRequested => some .changesRequested
  | .approved => some .approved
  | .published => some .published
  | .hidden => some .hidden
  | .archived => some .archived

/-- `EDITABLE_COMPONENT_STATUSES`. -/
def ComponentStatus.editable : ComponentStatus → Bool
  | .draft | .changesRequested | .published => true
  | .inReview | .approved | .hidden | .archived => false

theorem lifecycleTransitionSources_archived (s : ComponentStatus) :
    s ∈ lifecycleTransitionSources .archived ↔ s ≠ .archived := by
  cases s <;> decide

/-! ## Drafts -/

inductive Difficulty where
  | beginner | intermediate | advanced
  deriving DecidableEq, Repr

inductive CodeExampleVisibility where
  | student | teacher
  deriving DecidableEq, Repr

structure TechnicalSpecification where
  key : String
  label : String
  valueText : String
  valueNumber : Option String
  unit : Option String
  position : Nat
  deriving DecidableEq, Repr

structure CompatibilityItem where
  targetType : String
  name : String
  versionConstraint : Option String
  notes : Option String
  position : Nat
  deriving DecidableEq, Repr

structure CodeExample where
  title : String
  language : String
  practicalTask : String
  hints : List String
  body : String
  libraries : List String
  explanation : Option String
  visibility : CodeExampleVisibility
  position : Nat
  deriving DecidableEq, Repr

structure DraftData where
  slug : String
  title : String
  aliases : List String
  manufacturer : Option String
  model : Option String
  primaryCategoryId : UUID
  tags : List String
  summary : String
  description : String
  purpose : Option String
  usageNotes : Option String
  safetyNotes : Option String
  difficulty : Difficulty
  teacherNotes : Option String
  manualOriginal : Bool
  specifications : List TechnicalSpecification
  compatibility : List CompatibilityItem
  codeExamples : List CodeExample
  deriving DecidableEq, Repr

/-! ## Errors -/

/-- One step of the path to a field. -/
inductive PathItem where
  | name (key : String)
  | index (position : Nat)
  deriving DecidableEq, Repr

/-- One of the `issues` of a field error. -/
structure Issue where
  path : List PathItem
  code : String
  params : List (String × Option String)
  deriving DecidableEq, Repr

/-- The exceptions of `catalog/domain.py` and those of the upload reservation. -/
inductive CatalogError where
  | componentNotFound
  | componentMediaNotFound
  | revisionConflict
  | validation (code : String) (issues : List Issue)
  | mediaNotFound
  | mediaRevisionConflict
  | mediaQuota (code : String)
  | mediaValidation (code : String)
  deriving DecidableEq, Repr

/-- `CatalogValidationError(code)`. -/
def invalid (code : String) : CatalogError := .validation code []

/-- `CatalogValidationError.field`. -/
def fieldError (path : List PathItem) (code : String) (params : List (String × Option String)) :
    CatalogError :=
  .validation "validation_failed" [⟨path, code, params⟩]

/-- The text of specification `position`. -/
def valuePath (position : Nat) : List PathItem :=
  [.name "specifications", .index position, .name "value_text"]

/-! ## Validation -/

structure Category where
  id : UUID
  key : String
  name : String
  parentId : Option UUID
  description : Option String
  isActive : Bool
  position : Int
  deriving DecidableEq, Repr

/-- The checks that aliases and tags share; `field` is `alias` or `tag`. -/
def validateNames (u : Unicode) (field : String) (values : List String) :
    Except CatalogError Unit := do
  require (values.length ≤ 20) (invalid ("too_many_" ++ field ++ "s"))
  require (∀ value ∈ values, ¬ isBlank value ∧ (strip value).length ≤ 100)
    (invalid (field ++ "_too_long"))
  require (values.map (normalized u)).Nodup (invalid ("duplicate_" ++ field))

/-- The loop over the specifications: the texts, then the number. -/
def validateSpecifications (u : Unicode) :
    Nat → List String → List TechnicalSpecification → Except CatalogError Unit
  | _, _, [] => .ok ()
  | position, seen, item :: rest => do
    require (isSlug item.key ∧ ¬ isBlank item.label ∧ (strip item.label).length ≤ 160 ∧
        ¬ isBlank item.valueText ∧ (strip item.valueText).length ≤ 2000 ∧
        (∀ unit ∈ item.unit, (strip unit).length ≤ 32) ∧ item.key ∉ seen)
      (invalid "invalid_specification")
    match item.valueNumber with
    | none => .ok ()
    | some text => do
      let number ← fromSome (Decimal.ofString u text)
        (fieldError (valuePath position) "expected_numeric_value" [("label", some item.label)])
      require (fitsNumericStorage number)
        (fieldError (valuePath position) "numeric_value_out_of_range" [("label", some item.label)])
    validateSpecifications u (position + 1) (item.key :: seen) rest

/-- What makes two compatibility rows the same. -/
def CompatibilityItem.identity (u : Unicode) (item : CompatibilityItem) :
    String × String × String :=
  (item.targetType, normalized u item.name, normalized u (item.versionConstraint.getD ""))

def validateCompatibility (u : Unicode) (items : List CompatibilityItem) :
    Except CatalogError Unit :=
  require ((∀ item ∈ items, item.targetType ∈ ["board", "library", "platform"] ∧
        ¬ isBlank item.name ∧ (strip item.name).length ≤ 160 ∧
        (∀ version ∈ item.versionConstraint, version.length ≤ 120) ∧
        ∀ notes ∈ item.notes, notes.length ≤ 2000) ∧
      (items.map (CompatibilityItem.identity u)).Nodup)
    (invalid "invalid_compatibility")

def validateCodeExample (u : Unicode) (example_ : CodeExample) : Except CatalogError Unit :=
  require (¬ isBlank example_.title ∧ (strip example_.title).length ≤ 160 ∧
      isLanguage example_.language ∧
      ¬ isBlank example_.practicalTask ∧ example_.practicalTask.length ≤ 5000 ∧
      ¬ isBlank example_.body ∧ example_.body.utf8ByteSize ≤ 65536 ∧
      (∀ explanation ∈ example_.explanation, explanation.length ≤ 10000) ∧
      example_.hints.length ≤ 10 ∧
      (∀ hint ∈ example_.hints, ¬ isBlank hint ∧ hint.length ≤ 2000) ∧
      example_.libraries.length ≤ 20 ∧
      (∀ item ∈ example_.libraries, ¬ isBlank item ∧ item.length ≤ 100) ∧
      (example_.libraries.map (normalized u)).Nodup)
    (invalid "invalid_code_example")

/-- `_validate`. -/
def validate (u : Unicode) (categories : List Category) (data : DraftData) :
    Except CatalogError Unit := do
  require (isSlug data.slug) (invalid "invalid_slug")
  validateNames u "alias" data.aliases
  validateNames u "tag" data.tags
  require (data.specifications.length ≤ 50 ∧ data.compatibility.length ≤ 30 ∧
      data.codeExamples.length ≤ 10) (invalid "component_collection_limit_exceeded")
  require (∃ category ∈ categories, category.id = data.primaryCategoryId ∧ category.isActive)
    (invalid "category_unavailable")
  validateSpecifications u 0 [] data.specifications
  validateCompatibility u data.compatibility
  each (validateCodeExample u) data.codeExamples

/-! ## What is accepted -/

/-- What a list of aliases or of tags has to be. -/
structure Names (u : Unicode) (values : List String) : Prop where
  few : values.length ≤ 20
  each : ∀ value ∈ values, ¬ isBlank value ∧ (strip value).length ≤ 100
  nodup : (values.map (normalized u)).Nodup

/-- What one specification has to be. -/
structure TechnicalSpecification.Accepted (u : Unicode) (item : TechnicalSpecification) : Prop where
  key : isSlug item.key
  label : ¬ isBlank item.label ∧ (strip item.label).length ≤ 160
  valueText : ¬ isBlank item.valueText ∧ (strip item.valueText).length ≤ 2000
  unit : ∀ unit ∈ item.unit, (strip unit).length ≤ 32
  number : ∀ text ∈ item.valueNumber,
    ∃ n, Decimal.ofString u text = some n ∧ fitsNumericStorage n

theorem validateNames_iff {u : Unicode} {field : String} {values : List String} :
    validateNames u field values = .ok () ↔ Names u values := by
  unfold validateNames
  rw [seq_eq_ok, seq_eq_ok, require_eq_ok, require_eq_ok, require_eq_ok]
  exact ⟨fun ⟨hfew, heach, hnodup⟩ => ⟨hfew, heach, hnodup⟩, fun h => ⟨h.few, h.each, h.nodup⟩⟩

/-- The specifications that are accepted after those with the keys `seen`. -/
theorem validateSpecifications_iff {u : Unicode} {position : Nat} {seen : List String}
    {items : List TechnicalSpecification} :
    validateSpecifications u position seen items = .ok () ↔
      (∀ item ∈ items, item.Accepted u) ∧ (items.map TechnicalSpecification.key).Nodup ∧
        ∀ item ∈ items, item.key ∉ seen := by
  induction items generalizing position seen with
  | nil => simp [validateSpecifications]
  | cons item rest ih =>
    have hstep : validateSpecifications u position seen (item :: rest) = .ok () ↔
        (item.Accepted u ∧ item.key ∉ seen) ∧
          validateSpecifications u (position + 1) (item.key :: seen) rest = .ok () := by
      rw [validateSpecifications, seq_eq_ok, require_eq_ok]
      cases hnumber : item.valueNumber with
      | none =>
        rw [seq_eq_ok]
        constructor
        · rintro ⟨⟨hkey, hlabel, hshort, htext, hlong, hunit, hnew⟩, -, hrest⟩
          exact ⟨⟨⟨hkey, ⟨hlabel, hshort⟩, ⟨htext, hlong⟩, hunit, by simp [hnumber]⟩, hnew⟩, hrest⟩
        · rintro ⟨⟨h, hnew⟩, hrest⟩
          exact ⟨⟨h.key, h.label.1, h.label.2, h.valueText.1, h.valueText.2, h.unit, hnew⟩, rfl,
            hrest⟩
      | some text =>
        simp only [bind_eq_ok, fromSome_eq_ok, require_eq_ok, exists_and_left, exists_const]
        constructor
        · rintro ⟨⟨hkey, hlabel, hshort, htext, hlong, hunit, hnew⟩, n, hn, hfits, hrest⟩
          refine ⟨⟨⟨hkey, ⟨hlabel, hshort⟩, ⟨htext, hlong⟩, hunit, ?_⟩, hnew⟩, hrest⟩
          rw [hnumber]
          rintro _ ⟨⟩
          exact ⟨n, hn, hfits⟩
        · rintro ⟨⟨h, hnew⟩, hrest⟩
          obtain ⟨n, hn, hfits⟩ := h.number text hnumber
          exact ⟨⟨h.key, h.label.1, h.label.2, h.valueText.1, h.valueText.2, h.unit, hnew⟩, n, hn,
            hfits, hrest⟩
    rw [hstep, ih, List.forall_mem_cons, List.forall_mem_cons, List.map_cons, List.nodup_cons]
    constructor
    · rintro ⟨⟨hitem, hnew⟩, hrest, hnodup, hseen⟩
      refine ⟨⟨hitem, hrest⟩, ⟨?_, hnodup⟩, hnew, fun other hother hno =>
        hseen other hother (List.mem_cons_of_mem _ hno)⟩
      intro hmem
      obtain ⟨other, hother, hkey⟩ := List.mem_map.mp hmem
      exact hseen other hother (hkey ▸ List.mem_cons_self)
    · rintro ⟨⟨hitem, hrest⟩, ⟨hfresh, hnodup⟩, hnew, hseen⟩
      refine ⟨⟨hitem, hnew⟩, hrest, hnodup, fun other hother hmem => ?_⟩
      rcases List.mem_cons.mp hmem with heq | hmem
      · exact hfresh (heq ▸ List.mem_map_of_mem hother)
      · exact hseen other hother hmem

/-- **The drafts that are accepted.** -/
theorem validate_iff {u : Unicode} {categories : List Category} {data : DraftData} :
    validate u categories data = .ok () ↔
      isSlug data.slug ∧ Names u data.aliases ∧ Names u data.tags ∧
        (data.specifications.length ≤ 50 ∧ data.compatibility.length ≤ 30 ∧
          data.codeExamples.length ≤ 10) ∧
        (∃ category ∈ categories, category.id = data.primaryCategoryId ∧ category.isActive) ∧
        ((∀ item ∈ data.specifications, item.Accepted u) ∧
          (data.specifications.map TechnicalSpecification.key).Nodup) ∧
        validateCompatibility u data.compatibility = .ok () ∧
        ∀ example_ ∈ data.codeExamples, validateCodeExample u example_ = .ok () := by
  unfold validate
  rw [seq_eq_ok, seq_eq_ok, seq_eq_ok, seq_eq_ok, seq_eq_ok, seq_eq_ok, seq_eq_ok, require_eq_ok,
    validateNames_iff, validateNames_iff, require_eq_ok, require_eq_ok, validateSpecifications_iff,
    each_eq_ok]
  simp only [List.not_mem_nil, not_false_eq_true, implies_true, and_true]

/-- An accepted draft is filed under an active category. -/
theorem validate_category {u : Unicode} {categories : List Category} {data : DraftData} {r : Unit}
    (h : validate u categories data = .ok r) :
    ∃ category ∈ categories, category.id = data.primaryCategoryId ∧ category.isActive :=
  (validate_iff.mp h).2.2.2.2.1

end ComponentKb.Catalog
