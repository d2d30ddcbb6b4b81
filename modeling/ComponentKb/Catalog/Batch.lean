import ComponentKb.Catalog.World
import ComponentKb.Lib.Batch
import Mathlib

/-!
# Cards assembled in a batch

`list_cards` reads each table once for all its cards and collects the rows in dictionaries by the id
of the component (`_cards`, `_data_batch`, `_source_snapshots_batch`, `components_media`), while
`get_card` is `readCard` of one card. A row is in the order of its owner's rows in both.

* `dataBatch_eq`, `sourceSnapshotsBatch_eq`, `componentsMedia_eq`: the dictionaries hold for each
  component what is read for it alone.
* `cardsOf_eq`: a batch is the list of the cards, each without its legacy provenance.
* **`listCards_eq_iff`**: the list is that of `get_card` iff no card in it has a legacy source.
-/

namespace ComponentKb.Catalog

open Lib Lib.Batch

/-- A database with what its schema and its collation guarantee: primary keys, the category of each
card, rows that are numbered in their order, and an order on names. -/
structure Tables (u : Unicode) extends Db where
  card_ids : (cards.map Card.id).Nodup
  asset_ids : (toDb.assets.map MediaAsset.id).Nodup
  filed : ∀ card ∈ cards, (toDb.category card.row.primaryCategoryId).isSome
  compatibility : ∀ card ∈ cards,
    card.details.compatibility.Pairwise fun a b => a.position < b.position
  examples : ∀ card ∈ cards, card.details.codeExamples.Pairwise fun a b => a.position < b.position
  le_total : ∀ a b, u.le a b ∨ u.le b a
  le_trans : ∀ a b c, u.le a b → u.le b c → u.le a c

/-! ## Drafts -/

/-- A row of the query for code examples: an example and one of its hints, or none. The id of an
example is that of its component and its place. -/
structure ExampleRow where
  place : Nat
  example_ : CodeExample
  hint : Option (String × Nat)
  deriving DecidableEq, Repr

/-- The rows of one example at its place. -/
def hintRows (x : CodeExample × Nat) : List ExampleRow :=
  if x.1.hints = [] then [⟨x.2, x.1, none⟩]
  else x.1.hints.zipIdx.map fun hint => ⟨x.2, x.1, some hint⟩

/-- `code_examples LEFT JOIN code_example_hints`. -/
def exampleRows (examples : List CodeExample) : List ExampleRow :=
  examples.zipIdx.flatMap hintRows

/-- `ORDER BY code_examples.position, code_example_hints.position`. -/
def ExampleRow.order (row : ExampleRow) : Nat ×ₗ Nat :=
  toLex (row.example_.position, (row.hint.map Prod.snd).getD 0)

/-- The specification of a property and its definition. -/
def specificationOf (property : ComponentProperty) (position : Nat)
    (definition : PropertyDefinition) : TechnicalSpecification :=
  { key := definition.key
    label := definition.label
    valueText := property.valueText
    valueNumber := property.valueNumber.map Decimal.toString
    unit :=
      if property.valueNumber.isSome ∨ definition.valueType = .text then definition.unit else none
    position := position }

section Batch

variable (u : Unicode) (db : Db) (ids : List UUID)

/-- `aliases_by_component`. -/
def aliasesByComponent : List (UUID × List String) :=
  collect (transform (fun row => some row.1) (select (sortedBy Prod.snd) ids
    (table Card.id (fun card => card.details.aliases.zipIdx) db.cards)))

/-- `tags_by_component`. -/
def tagsByComponent : List (UUID × List String) :=
  collect (select (fun a b => u.le a b) ids
    (table Card.id (fun card => card.details.tags.filterMap fun name =>
      (lookup Tag.normalizedName db.tags name).map Tag.name) db.cards))

/-- `specifications_by_component`. -/
def specificationsByComponent : List (UUID × List TechnicalSpecification) :=
  collect (transform (fun (property, position) =>
      (lookup PropertyDefinition.key db.definitions property.definition).map
        (specificationOf property position))
    (select (sortedBy Prod.snd) ids
      (table Card.id (fun card => card.details.properties.zipIdx) db.cards)))

/-- `compatibility_by_component`. -/
def compatibilityByComponent : List (UUID × List CompatibilityItem) :=
  collect (select (sortedBy CompatibilityItem.position) ids
    (table Card.id (fun card => card.details.compatibility) db.cards))

/-- `example_records`. -/
def exampleRecords : List (UUID × ExampleRow) :=
  select (sortedBy ExampleRow.order) ids
    (table Card.id (fun card => exampleRows card.details.codeExamples) db.cards)

/-- `example_rows_by_component`: an example is collected when it is seen first. -/
def exampleRowsByComponent : List (UUID × List ExampleRow) :=
  collect (firsts (fun row : UUID × ExampleRow => (row.1, row.2.place)) []
    (exampleRecords db ids))

/-- `hints_by_example`. -/
def hintsByExample : List ((UUID × Nat) × List String) :=
  collect (keyed (fun row : UUID × ExampleRow => (row.1, row.2.place))
    (fun row => row.2.hint.map Prod.fst) (exampleRecords db ids))

/-- The code examples of one component. -/
def codeExamplesOf (id : UUID) : List CodeExample :=
  (entry (exampleRowsByComponent db ids) id).map fun row =>
    { row.example_ with hints := entry (hintsByExample db ids) (id, row.place) }

/-- One entry of `_data_batch`. -/
def dataBatch (row : Component) : DraftData :=
  { slug := row.slug
    title := row.title
    aliases := entry (aliasesByComponent db ids) row.id
    manufacturer := row.manufacturer
    model := row.model
    primaryCategoryId := row.primaryCategoryId
    tags := entry (tagsByComponent u db ids) row.id
    summary := row.summary
    description := row.description
    purpose := row.purpose
    usageNotes := row.usageNotes
    safetyNotes := row.safetyNotes
    difficulty := row.difficulty
    teacherNotes := row.teacherNotes
    manualOriginal := row.manualOriginal
    specifications := entry (specificationsByComponent db ids) row.id
    compatibility := entry (compatibilityByComponent db ids) row.id
    codeExamples := codeExamplesOf db ids row.id }

/-! ## Sources and media -/

/-- `_source_snapshots_batch`: a source whose licence data are incomplete is passed over. -/
def sourceSnapshotsBatch : List (UUID × List SourceSnapshot) :=
  collect (transform (fun relation =>
      (lookup Source.id db.sources relation.sourceId).bind (sourceSnapshot relation))
    (select ComponentSource.before ids (table Card.id Card.sources db.cards)))

/-- `asset_records`. -/
def assetRecords : List (UUID × MediaAsset) :=
  select MediaAsset.before ids
    (table Card.id (fun card => card.assets.filter (·.kind = .image)) db.cards)

/-- `variants_by_asset`. -/
def variantsByAsset : List (UUID × List MediaVariant) :=
  collect (select (sortedBy MediaVariant.width) ((assetRecords db ids).map fun row => row.2.id)
    (table MediaAsset.id MediaAsset.variants db.assets))

/-- An entry of `components_media`. -/
def mediaOf (variants : List (UUID × List MediaVariant)) (asset : MediaAsset) : ComponentMedia :=
  { asset.media with
    variants := (entry variants asset.id).filter fun v => v.name ∈ ["320w", "800w", "1600w"] }

/-- `components_media`. -/
def componentsMedia : List (UUID × List ComponentMedia) :=
  collect (transform (fun asset => some (mediaOf (variantsByAsset db ids) asset))
    (assetRecords db ids))

end Batch

/-! ## Cards -/

/-- `_card_from_parts`. -/
def cardFromParts (row : Component) (data : DraftData) (category : Category)
    (sources : List SourceSnapshot) (media : List ComponentMedia) : CatalogCard :=
  { id := row.id
    status := row.status
    data := data
    category := category.item
    revision := row.revision
    updatedAt := row.updatedAt
    publishedAt := row.publishedAt
    sources := sources
    media := media
    archivedFromStatus := row.archivedFromStatus
    editToken := if row.editToken = 0 then row.revision else row.editToken
    hasLegacyProvenance := false }

/-- `_cards`. -/
def cardsOf (u : Unicode) (db : Db) (rows : List Component) :
    Except CatalogError (List CatalogCard) :=
  let ids := rows.map Component.id
  let categories := db.categories.filter fun category =>
    category.id ∈ rows.map fun row => row.primaryCategoryId
  rows.mapM fun row => do
    let category ← fromSome (lookup Category.id categories row.primaryCategoryId)
      (invalid "catalog_conflict")
    return cardFromParts row (dataBatch u db ids row) category
      (entry (sourceSnapshotsBatch db ids) row.id) (entry (componentsMedia db ids) row.id)

/-- The components that `list_cards` selects: those of a status, the one updated last first. -/
def selected (db : Db) (status : Option ComponentStatus) : List Component :=
  ((db.cards.map Card.row).filter fun row => status.all (· = row.status)).insertionSort
    fun a b => b.updatedAt ≤ a.updatedAt

/-- `list_cards`. -/
def listCards (u : Unicode) (db : Db) (status : Option ComponentStatus) :
    Except CatalogError (List CatalogCard) :=
  cardsOf u db (selected db status)

/-! ## The dictionaries hold what one card reads -/

/-- The join of a property with its definition is what it is read as. -/
theorem readSpecification_eq (definitions : List PropertyDefinition) (property : ComponentProperty)
    (position : Nat) : readSpecification definitions position property =
      (lookup PropertyDefinition.key definitions property.definition).map
        (specificationOf property position) := rfl

theorem hintRows_spec {x : CodeExample × Nat} :
    hintRows x ≠ [] ∧ (∀ row ∈ hintRows x, row.place = x.2 ∧ row.example_ = x.1) ∧
      (hintRows x).filterMap (fun row => row.hint.map Prod.fst) = x.1.hints := by
  unfold hintRows
  by_cases hnil : x.1.hints = []
  · rw [if_pos hnil]
    simp [hnil]
  · rw [if_neg hnil]
    refine ⟨by simpa using hnil, ?_, ?_⟩
    · intro row hrow
      obtain ⟨hint, -, rfl⟩ := List.mem_map.mp hrow
      exact ⟨rfl, rfl⟩
    · rw [List.filterMap_map]
      change x.1.hints.zipIdx.filterMap (some ∘ Prod.fst) = _
      rw [List.filterMap_eq_map, List.zipIdx_map_fst]

theorem zipIdx_snd_nodup {α : Type*} (xs : List α) : (xs.zipIdx.map Prod.snd).Nodup := by
  rw [List.zipIdx_map_snd]
  exact List.nodup_range'

/-- The rows with a place are those of the example that has it. -/
theorem exampleRows_place {examples : List CodeExample} {x : CodeExample × Nat}
    (hx : x ∈ examples.zipIdx) :
    (exampleRows examples).filter (fun row => row.place = x.2) = hintRows x := by
  have hrows : exampleRows examples = (table Prod.snd hintRows examples.zipIdx).map Prod.snd := by
    rw [exampleRows, table, List.map_flatMap]
    refine List.flatMap_congr fun y _ => ?_
    rw [List.map_map]
    exact (List.map_id _).symm
  have hplace : ∀ row ∈ table Prod.snd hintRows examples.zipIdx,
      decide (row.2.place = x.2) = decide (row.1 = x.2) := by
    intro row hrow
    obtain ⟨y, -, hrow⟩ := List.mem_flatMap.mp hrow
    obtain ⟨made, hmade, rfl⟩ := List.mem_map.mp hrow
    rw [(hintRows_spec.2.1 made hmade).1]
  rw [hrows, List.filter_map]
  change List.map Prod.snd
    ((table Prod.snd hintRows examples.zipIdx).filter fun row => row.2.place = x.2) = _
  rw [List.filter_congr hplace, filter_table (zipIdx_snd_nodup examples) hx, List.map_map]
  exact List.map_id _

theorem exampleRows_sorted {examples : List CodeExample}
    (h : examples.Pairwise fun a b => a.position < b.position) :
    (exampleRows examples).Pairwise (sortedBy ExampleRow.order) := by
  have hzip : examples.zipIdx.Pairwise fun a b => a.1.position < b.1.position := by
    have hfst : (examples.zipIdx.map Prod.fst).Pairwise fun a b => a.position < b.position := by
      rw [List.zipIdx_map_fst]
      exact h
    rw [List.pairwise_map] at hfst
    exact hfst
  rw [exampleRows, List.pairwise_flatMap]
  constructor
  · intro x _
    unfold hintRows
    split
    · exact List.pairwise_singleton _ _
    · rw [List.pairwise_map]
      refine (sorted_zipIdx x.1.hints).imp fun {a b} hab => ?_
      exact Prod.Lex.toLex_le_toLex.mpr (Or.inr ⟨rfl, hab⟩)
  · refine hzip.imp fun {a b} hab row hrow other hother => ?_
    refine Prod.Lex.toLex_le_toLex.mpr (Or.inl ?_)
    rw [(hintRows_spec.2.1 row hrow).2, (hintRows_spec.2.1 other hother).2]
    exact hab

/-- `NULL` comes last. -/
def ComponentSource.order (relation : ComponentSource) : WithTop Time ×ₗ UUID :=
  toLex (relation.importedAt.elim ⊤ WithTop.some, relation.id)

theorem ComponentSource.before_iff (a b : ComponentSource) : a.before b ↔ a.order ≤ b.order := by
  unfold ComponentSource.before ComponentSource.order
  rw [Prod.Lex.toLex_le_toLex]
  cases a.importedAt <;> cases b.importedAt <;> simp

instance : Std.Total ComponentSource.before where
  total a b := by
    rw [ComponentSource.before_iff, ComponentSource.before_iff]
    exact le_total _ _

instance : IsTrans ComponentSource ComponentSource.before where
  trans a b c := by
    rw [ComponentSource.before_iff, ComponentSource.before_iff, ComponentSource.before_iff]
    exact le_trans

section Dictionaries

variable {u : Unicode} (t : Tables u) {card : Card} {ids : List UUID}

theorem sourceSnapshotsBatch_eq (hcard : card ∈ t.cards) (hid : card.id ∈ ids) :
    entry (sourceSnapshotsBatch t.toDb ids) card.id = sourceSnapshots t.sources card.sources := by
  rw [sourceSnapshotsBatch, entry_transform, entry_select _ t.card_ids hcard hid, sourceSnapshots,
    componentSourceRows, List.filterMap_filterMap]
  refine List.filterMap_congr fun relation _ => ?_
  cases lookup Source.id t.sources relation.sourceId <;> rfl

theorem componentsMedia_eq (hcard : card ∈ t.cards) (hid : card.id ∈ ids) :
    entry (componentsMedia t.toDb ids) card.id = componentMedia card.assets := by
  have himages : entry (collect (assetRecords t.toDb ids)) card.id = imagesOf card.assets :=
    entry_select _ t.card_ids hcard hid
  have hmedia : ∀ asset ∈ imagesOf card.assets,
      mediaOf (variantsByAsset t.toDb ids) asset = asset.media := by
    intro asset hasset
    have hwanted : asset.id ∈ (assetRecords t.toDb ids).map fun row => row.2.id := by
      rw [← himages, mem_entry] at hasset
      exact List.mem_map.mpr ⟨_, hasset, rfl⟩
    have hstored : asset ∈ t.toDb.assets :=
      List.mem_append_right _ (List.mem_flatMap.mpr ⟨card, hcard, (mem_imagesOf.mp hasset).1⟩)
    have hvariants : entry (variantsByAsset t.toDb ids) asset.id =
        asset.variants.insertionSort (sortedBy MediaVariant.width) :=
      entry_select _ t.asset_ids hstored hwanted
    have hoffered : (asset.variants.insertionSort (sortedBy MediaVariant.width)).filter
        (fun v => v.name ∈ ["320w", "800w", "1600w"]) = asset.offered :=
      filter_insertionSort _ _
    rw [mediaOf, hvariants, hoffered]
    rfl
  rw [componentsMedia, entry_transform, himages]
  change (imagesOf card.assets).filterMap
    (some ∘ mediaOf (variantsByAsset t.toDb ids)) = (imagesOf card.assets).map MediaAsset.media
  rw [List.filterMap_eq_map]
  exact List.map_congr_left hmedia

theorem aliasesByComponent_eq (hcard : card ∈ t.cards) (hid : card.id ∈ ids) :
    entry (aliasesByComponent t.toDb ids) card.id = card.details.aliases := by
  rw [aliasesByComponent, entry_transform, entry_select _ t.card_ids hcard hid,
    (sorted_zipIdx _).insertionSort_eq]
  change card.details.aliases.zipIdx.filterMap (some ∘ Prod.fst) = _
  rw [List.filterMap_eq_map, List.zipIdx_map_fst]

theorem specificationsByComponent_eq (hcard : card ∈ t.cards) (hid : card.id ∈ ids) :
    entry (specificationsByComponent t.toDb ids) card.id =
      card.details.properties.zipIdx.filterMap fun p =>
        readSpecification t.definitions p.2 p.1 := by
  rw [specificationsByComponent, entry_transform, entry_select _ t.card_ids hcard hid,
    (sorted_zipIdx _).insertionSort_eq]
  rfl

theorem compatibilityByComponent_eq (hcard : card ∈ t.cards) (hid : card.id ∈ ids) :
    entry (compatibilityByComponent t.toDb ids) card.id = card.details.compatibility := by
  rw [compatibilityByComponent, entry_select _ t.card_ids hcard hid]
  exact List.Pairwise.insertionSort_eq
    ((t.compatibility card hcard).imp fun {a b} hab => Nat.le_of_lt hab)

theorem exampleRecords_eq (hcard : card ∈ t.cards) (hid : card.id ∈ ids) :
    (exampleRecords t.toDb ids).filter (fun row => row.1 = card.id) =
      (exampleRows card.details.codeExamples).map fun row => (card.id, row) := by
  rw [exampleRecords, filter_select _ t.card_ids hcard hid,
    (exampleRows_sorted (t.examples card hcard)).insertionSort_eq]

/-- Each example is collected once, in its place. -/
theorem exampleRowsByComponent_eq (hcard : card ∈ t.cards) (hid : card.id ∈ ids) :
    (entry (exampleRowsByComponent t.toDb ids) card.id).map
      (fun row => (row.example_, row.place)) = card.details.codeExamples.zipIdx := by
  have hkey : ∀ a b : UUID × ExampleRow, (a.1, a.2.place) = (b.1, b.2.place) →
      decide (a.1 = card.id) = decide (b.1 = card.id) := by
    intro a b hab
    rw [(Prod.mk.inj hab).1]
  have hrows : ((exampleRows card.details.codeExamples).map fun row => (card.id, row)) =
      card.details.codeExamples.zipIdx.flatMap fun x =>
        (hintRows x).map fun row => (card.id, row) := by
    rw [exampleRows, List.map_flatMap]
  rw [exampleRowsByComponent, entry_collect, filter_firsts hkey, exampleRecords_eq t hcard hid,
    hrows, List.map_map]
  have hnodup : (card.details.codeExamples.zipIdx.map fun x => (card.id, x.2)).Nodup := by
    have hinj : Function.Injective fun place : Nat => (card.id, place) :=
      fun a b hab => (Prod.mk.inj hab).2
    have hmap := (zipIdx_snd_nodup card.details.codeExamples).map hinj
    rw [List.map_map] at hmap
    exact hmap
  have hne : ∀ x ∈ card.details.codeExamples.zipIdx,
      ((hintRows x).map fun row => (card.id, row)) ≠ [] := by
    intro x _
    simpa using hintRows_spec.1
  refine firsts_flatMap hnodup hne ?_ [] fun _ _ => List.not_mem_nil
  intro x _ row hrow
  obtain ⟨made, hmade, rfl⟩ := List.mem_map.mp hrow
  obtain ⟨hplace, hexample⟩ := hintRows_spec.2.1 made hmade
  exact ⟨Prod.ext rfl hplace, Prod.ext hexample hplace⟩

/-- The hints of an example, in their order. -/
theorem hintsByExample_eq (hcard : card ∈ t.cards) (hid : card.id ∈ ids) {x : CodeExample × Nat}
    (hx : x ∈ card.details.codeExamples.zipIdx) :
    entry (hintsByExample t.toDb ids) (card.id, x.2) = x.1.hints := by
  have hboth : ∀ row ∈ exampleRecords t.toDb ids,
      decide ((row.1, row.2.place) = (card.id, x.2)) =
        (decide (row.2.place = x.2) && decide (row.1 = card.id)) := by
    intro row _
    by_cases hplace : row.2.place = x.2 <;> by_cases hrow : row.1 = card.id <;>
      simp [hplace, hrow]
  rw [hintsByExample, entry_keyed, List.filter_congr hboth, ← List.filter_filter,
    exampleRecords_eq t hcard hid, List.filter_map, List.filterMap_map]
  change List.filterMap (fun row => row.hint.map Prod.fst)
    ((exampleRows card.details.codeExamples).filter fun row => row.place = x.2) = _
  rw [exampleRows_place hx, hintRows_spec.2.2]

theorem codeExamplesOf_eq (hcard : card ∈ t.cards) (hid : card.id ∈ ids) :
    codeExamplesOf t.toDb ids card.id = card.details.codeExamples := by
  have hread : codeExamplesOf t.toDb ids card.id =
      ((entry (exampleRowsByComponent t.toDb ids) card.id).map
        (fun row => (row.example_, row.place))).map fun x : CodeExample × Nat =>
          { x.1 with hints := entry (hintsByExample t.toDb ids) (card.id, x.2) } := by
    rw [codeExamplesOf, List.map_map]
    rfl
  rw [hread, exampleRowsByComponent_eq t hcard hid]
  refine (List.map_congr_left fun x hx => ?_).trans (List.zipIdx_map_fst 0 _)
  rw [hintsByExample_eq t hcard hid hx]

theorem tagsByComponent_eq (hcard : card ∈ t.cards) (hid : card.id ∈ ids) :
    entry (tagsByComponent u t.toDb ids) card.id =
      (card.details.tags.filterMap fun name =>
        (lookup Tag.normalizedName t.tags name).map Tag.name).insertionSort fun a b => u.le a b := by
  have : Std.Total fun a b => u.le a b := ⟨t.le_total⟩
  have : IsTrans String fun a b => u.le a b := ⟨t.le_trans⟩
  exact entry_select _ t.card_ids hcard hid

theorem dataBatch_eq (hcard : card ∈ t.cards) (hid : card.id ∈ ids) :
    dataBatch u t.toDb ids card.row = readData u t.toDb card := by
  unfold dataBatch readData
  rw [show card.row.id = card.id from rfl, aliasesByComponent_eq t hcard hid,
    specificationsByComponent_eq t hcard hid, compatibilityByComponent_eq t hcard hid,
    codeExamplesOf_eq t hcard hid, tagsByComponent_eq t hcard hid]

end Dictionaries

/-! ## The list and the cards -/

/-- What the batch leaves of a card. -/
def CatalogCard.unflagged (card : CatalogCard) : CatalogCard :=
  { card with hasLegacyProvenance := false }

section Cards

variable {u : Unicode} (t : Tables u)

/-- The rows of a category query hold the categories asked for. -/
theorem lookup_filter {categories : List Category} {ids : List UUID} {id : UUID} (h : id ∈ ids) :
    lookup Category.id (categories.filter fun category => category.id ∈ ids) id =
      lookup Category.id categories id := by
  unfold lookup
  rw [List.find?_filter]
  congr 1
  funext category
  by_cases hid : category.id = id
  · simp [hid, h]
  · simp [hid]

/-- **A batch is the list of its cards**, without their legacy provenance. -/
theorem cardsOf_eq {cards : List Card} (hcards : ∀ card ∈ cards, card ∈ t.cards) :
    cardsOf u t.toDb (cards.map Card.row) =
      cards.mapM fun card => (readCard u t.toDb card).map CatalogCard.unflagged := by
  unfold cardsOf
  rw [List.mapM_map]
  refine mapM_congr fun card hcard => ?_
  have hstored := hcards card hcard
  have hrow : card.row ∈ cards.map Card.row := List.mem_map_of_mem hcard
  have hid : card.id ∈ (cards.map Card.row).map Component.id := List.mem_map_of_mem hrow
  have hcategory : card.row.primaryCategoryId ∈
      (cards.map Card.row).map fun row => row.primaryCategoryId := List.mem_map_of_mem hrow
  simp only [Function.comp_apply]
  rw [lookup_filter hcategory, dataBatch_eq t hstored hid,
    show card.row.id = card.id from rfl, sourceSnapshotsBatch_eq t hstored hid,
    componentsMedia_eq t hstored hid]
  unfold readCard
  change fromSome (t.category card.row.primaryCategoryId) _ >>= _ = _
  cases t.category card.row.primaryCategoryId <;> rfl

/-- The cards of the components that `list_cards` selects. -/
def selectedCards (db : Db) (status : Option ComponentStatus) : List Card :=
  (db.cards.filter fun card => status.all (· = card.row.status)).insertionSort
    fun a b => b.row.updatedAt ≤ a.row.updatedAt

theorem selected_eq (db : Db) (status : Option ComponentStatus) :
    selected db status = (selectedCards db status).map Card.row := by
  rw [selected, List.filter_map]
  exact (List.map_insertionSort _ _ Card.row _ fun _ _ _ _ => Iff.rfl).symm

theorem mem_selectedCards {db : Db} {status : Option ComponentStatus} {card : Card} :
    card ∈ selectedCards db status ↔ card ∈ db.cards ∧ status.all (· = card.row.status) := by
  rw [selectedCards, List.mem_insertionSort, List.mem_filter]

theorem readCard_ok {card : Card} (hcard : card ∈ t.cards) :
    ∃ read, readCard u t.toDb card = .ok read ∧
      read.hasLegacyProvenance = decide (¬ card.legacy.isEmpty) := by
  obtain ⟨category, hcategory⟩ := Option.isSome_iff_exists.mp (t.filed card hcard)
  unfold readCard
  rw [hcategory]
  exact ⟨_, rfl, rfl⟩

theorem getCard_eq {card : Card} (hcard : card ∈ t.cards) :
    getCard u t.toDb card.row.id = readCard u t.toDb card := by
  have hfound : t.toDb.card card.row.id = some card := lookup_of_mem t.card_ids hcard
  rw [getCard, hfound]
  rfl

/-- **`list_cards` gives what `get_card` gives for each of its components, in its order, iff none of
them has a legacy source**: only `get_card` asks for one. -/
theorem listCards_eq_iff (status : Option ComponentStatus) :
    listCards u t.toDb status =
        (selected t.toDb status).mapM (fun row => getCard u t.toDb row.id) ↔
      ∀ card ∈ t.cards, status.all (· = card.row.status) → card.legacy = [] := by
  have hstored : ∀ card ∈ selectedCards t.toDb status, card ∈ t.cards :=
    fun card hcard => (mem_selectedCards.mp hcard).1
  have hsingle : (selected t.toDb status).mapM (fun row => getCard u t.toDb row.id) =
      (selectedCards t.toDb status).mapM fun card => readCard u t.toDb card := by
    rw [selected_eq, List.mapM_map]
    exact mapM_congr fun card hcard => getCard_eq t (hstored card hcard)
  rw [hsingle, listCards, selected_eq, cardsOf_eq t hstored,
    mapM_map_eq_iff fun card hcard => (readCard_ok t (hstored card hcard)).imp fun _ h => h.1]
  constructor
  · intro h card hcard hstatus
    obtain ⟨read, hread, hflag⟩ := readCard_ok t hcard
    have hsame := h card (mem_selectedCards.mpr ⟨hcard, hstatus⟩) read hread
    have hfalse : read.hasLegacyProvenance = false := by
      rw [← hsame]
      rfl
    rw [hflag] at hfalse
    simpa using hfalse
  · intro h card hcard read hread
    obtain ⟨hmem, hstatus⟩ := mem_selectedCards.mp hcard
    obtain ⟨read', hread', hflag⟩ := readCard_ok t hmem
    obtain rfl := Except.ok.inj (hread.symm.trans hread')
    rw [h card hmem hstatus] at hflag
    have hfalse : read.hasLegacyProvenance = false := hflag
    rw [CatalogCard.unflagged, ← hfalse]

end Cards

/-- A card that the legacy import made. -/
def importedDb : Db :=
  (run (step plainEnv) plainDb
    [.applyItem "item-1" .create (sensorDraft "sensor" false) [] 10 7 7 1 2]).getD plainDb

def importedTables : Tables plainUnicode where
  toDb := importedDb
  card_ids := by decide +kernel
  asset_ids := by decide +kernel
  filed := by decide +kernel
  compatibility := by decide +kernel
  examples := by decide +kernel
  le_total a b := (le_total a.toList b.toList).imp decide_eq_true decide_eq_true
  le_trans a b c hab hbc :=
    decide_eq_true (le_trans (of_decide_eq_true (p := a.toList ≤ b.toList) hab)
      (of_decide_eq_true (p := b.toList ≤ c.toList) hbc))

/-- The card has a legacy source in `get_card` and none in `list_cards`. -/
theorem imported_unflagged :
    (listCards plainUnicode importedTables.toDb none).map (·.map CatalogCard.hasLegacyProvenance) =
        .ok [false] ∧
      ((selected importedTables.toDb none).mapM fun row =>
          getCard plainUnicode importedTables.toDb row.id).map
        (·.map CatalogCard.hasLegacyProvenance) = .ok [true] ∧
      ¬ listCards plainUnicode importedTables.toDb none =
        (selected importedTables.toDb none).mapM fun row =>
          getCard plainUnicode importedTables.toDb row.id := by
  refine ⟨by decide +kernel, by decide +kernel, fun h => ?_⟩
  have hflags := congrArg (Except.map fun cards => cards.map CatalogCard.hasLegacyProvenance) h
  exact absurd hflags (by decide +kernel)

end ComponentKb.Catalog
