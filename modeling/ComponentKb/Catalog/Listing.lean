import ComponentKb.Catalog.Batch
import ComponentKb.Catalog.Visibility
import Mathlib.Data.List.MinMax
import Mathlib.Order.BoundedOrder.Lattice
import Mathlib.Order.Nat

/-!
# Public cards in a batch

A page of the public catalog is put together by `_published_cards` from one query for each table:
the latest published revisions, their categories, and the assets and variants of their media.
`_published_card` reads the same for one component, through the same loading of media with a single
group. A page has the cards of its ids in their order, an id that is asked for twice twice.

* `get_latestRevisions`: the join with the greatest revisions finds the latest published revision.
* `publishedMediaBatch_eq`: each group of a batch of media is what is loaded for it alone.
* `publishedCardById_eq`: `_published_card` is that of the card with the id.
* **`publishedCards_eq`**: a batch is the list of the single cards.
-/

namespace ComponentKb.Catalog

open Lib Lib.Batch

/-- A database with what the schema guarantees of its public part: primary keys, one revision for a
number of a component, and one variant for a name of an asset. -/
structure PublicTables extends Db where
  category_ids : (categories.map Category.id).Nodup
  card_ids : (cards.map Card.id).Nodup
  asset_ids : (toDb.assets.map MediaAsset.id).Nodup
  revisions : ∀ card ∈ cards, (card.revisions.map ComponentRevision.revision).Nodup
  variants : ∀ asset ∈ toDb.assets, (asset.variants.map MediaVariant.name).Nodup

/-! ## Media -/

/-- `_published_media_from_rows`. -/
def publishedMediaFromRows (records : List MediaSnapshot) (assetsById : List (UUID × MediaAsset))
    (variantsByAsset : List (UUID × List (String × MediaVariant))) : List ComponentMedia :=
  (records.filterMap fun item =>
    match Batch.get assetsById item.assetId with
    | none => none
    | some _ =>
      let current := (Batch.get variantsByAsset item.assetId).getD []
      let verified := item.variants.filterMap fun variant =>
        match Batch.get current variant.name with
        | none => none
        | some row =>
          if row.sha256 ≠ variant.sha256 ∨ row.mime ≠ variant.mime ∨ row.width ≠ variant.width ∨
              row.height ≠ variant.height then none
          else some { row with name := variant.name }
      if verified.isEmpty then none
      else some { item with
        caption := filled item.caption
        variants := verified
        status := .ready }).insertionSort
    fun a b => a.displayOrder < b.displayOrder ∨ (a.displayOrder = b.displayOrder ∧
      a.assetId ≤ b.assetId)

section Media

variable {κ : Type*} [DecidableEq κ]

/-- `asset_ids`. -/
def assetIds (records : List (κ × List MediaSnapshot)) : List UUID :=
  records.flatMap fun group => group.2.map MediaSnapshot.assetId

/-- `assets_by_id`. -/
def readyAssets (db : Db) (ids : List UUID) : List (UUID × MediaAsset) :=
  dictionary ((db.assets.filter fun asset => asset.id ∈ ids ∧ asset.status = .ready).map
    fun asset => (asset.id, asset))

/-- `variants_by_asset`: for each asset a dictionary by name. -/
def currentVariants (db : Db) (ids : List UUID) : List (UUID × List (String × MediaVariant)) :=
  (collect ((table MediaAsset.id MediaAsset.variants db.assets).filter fun row => row.1 ∈ ids)).map
    fun group => (group.1, dictionary (group.2.map fun variant => (variant.name, variant)))

/-- `_published_media_batch`. -/
def publishedMediaBatch (db : Db) (records : List (κ × List MediaSnapshot)) :
    List (κ × List ComponentMedia) :=
  if assetIds records = [] then records.map fun group => (group.1, [])
  else records.map fun group =>
    (group.1, publishedMediaFromRows group.2 (readyAssets db (assetIds records))
      (currentVariants db (assetIds records)))

/-- `_published_media`: a batch with one group. -/
def publishedMediaAlone (db : Db) (records : List MediaSnapshot) : List ComponentMedia :=
  (Batch.get (publishedMediaBatch db [((), records)]) ()).getD []

theorem ready_eq {db : Db} {ids : List UUID} (hnodup : (db.assets.map MediaAsset.id).Nodup)
    {id : UUID} (hid : id ∈ ids) :
    get (readyAssets db ids) id = lookup MediaAsset.id (db.assets.filter (·.status = .ready)) id := by
  rw [readyAssets, get_dictionary_of_nodup (hnodup.sublist (List.filter_sublist.map _))]
  unfold lookup
  rw [List.find?_filter, List.find?_filter]
  congr 1
  funext asset
  by_cases hsame : asset.id = id
  · simp [hsame, hid]
  · simp [hsame]

theorem current_eq (t : PublicTables) {ids : List UUID} {asset : MediaAsset}
    (hasset : asset ∈ t.toDb.assets) (hid : asset.id ∈ ids) (name : String) :
    get ((get (currentVariants t.toDb ids) asset.id).getD []) name =
      lookup MediaVariant.name asset.variants name := by
  have hown : entry (collect ((table MediaAsset.id MediaAsset.variants t.toDb.assets).filter
      fun row => row.1 ∈ ids)) asset.id = asset.variants := by
    have hwanted : ∀ row : UUID × MediaVariant,
        row ∈ table MediaAsset.id MediaAsset.variants t.toDb.assets →
        (decide (row.1 = asset.id) && decide (row.1 ∈ ids)) = decide (row.1 = asset.id) := by
      intro row _
      by_cases h : row.1 = asset.id
      · simp [h, hid]
      · simp [h]
    rw [entry_collect, List.filter_filter, List.filter_congr hwanted,
      filter_table t.asset_ids hasset, List.map_map]
    exact List.map_id _
  have hget := get_collect_map
    (fun variants : List MediaVariant => dictionary (variants.map fun v => (v.name, v)))
    ((table MediaAsset.id MediaAsset.variants t.toDb.assets).filter fun row => row.1 ∈ ids) asset.id
  change (get (currentVariants t.toDb ids) asset.id).getD [] = _ at hget
  rw [hget, hown, get_dictionary_of_nodup (t.variants asset hasset)]

theorem unchanged_iff {row variant : MediaVariant} (hname : row.name = variant.name) :
    ¬ (row.sha256 ≠ variant.sha256 ∨ row.mime ≠ variant.mime ∨ row.width ≠ variant.width ∨
      row.height ≠ variant.height) ↔ row = variant := by
  obtain ⟨name, mime, width, height, sha256⟩ := row
  obtain ⟨name', mime', width', height', sha256'⟩ := variant
  obtain rfl : name = name' := hname
  simp only [MediaVariant.mk.injEq, true_and, not_or, not_not]
  tauto

/-- The variants that the loop verifies. -/
theorem verified_eq {asset : MediaAsset} {current : List (String × MediaVariant)}
    (hcurrent : ∀ name, get current name = lookup MediaVariant.name asset.variants name)
    (variants : List MediaVariant) :
    (variants.filterMap fun variant =>
      match Batch.get current variant.name with
      | none => none
      | some row =>
        if row.sha256 ≠ variant.sha256 ∨ row.mime ≠ variant.mime ∨ row.width ≠ variant.width ∨
            row.height ≠ variant.height then none
        else some { row with name := variant.name }) = verifiedVariants asset variants := by
  rw [verifiedVariants, ← List.filterMap_eq_filter]
  refine List.filterMap_congr fun variant _ => ?_
  rw [hcurrent, Option.guard]
  cases hrow : lookup MediaVariant.name asset.variants variant.name with
  | none => simp
  | some row =>
    have hname : row.name = variant.name := key_of_lookup hrow
    simp only [Option.some.injEq, decide_eq_true_eq]
    by_cases hsame : row = variant
    · subst hsame
      simp
    · have hdiffers := mt (unchanged_iff hname).mp hsame
      rw [if_pos (not_not.mp hdiffers), if_neg hsame]

/-- From the rows of a batch, the media of one group are those loaded for it alone. -/
theorem publishedMediaFromRows_eq (t : PublicTables) {ids : List UUID}
    {records : List MediaSnapshot} (hids : ∀ item ∈ records, item.assetId ∈ ids) :
    publishedMediaFromRows records (readyAssets t.toDb ids) (currentVariants t.toDb ids) =
      publishedMedia t.toDb.assets records := by
  unfold publishedMediaFromRows publishedMedia
  congr 1
  refine List.filterMap_congr fun item hitem => ?_
  have hid := hids item hitem
  rw [ready_eq t.asset_ids hid]
  cases hasset : lookup MediaAsset.id (t.toDb.assets.filter (·.status = .ready)) item.assetId with
  | none => rfl
  | some asset =>
    have hkey : asset.id = item.assetId := key_of_lookup hasset
    have hmem : asset ∈ t.toDb.assets := (List.mem_filter.mp (mem_of_lookup hasset)).1
    simp only
    rw [← hkey, verified_eq fun name => current_eq t hmem (hkey ▸ hid) name]

/-- **Each group of a batch of media is what is loaded for it alone.** -/
theorem publishedMediaBatch_eq (t : PublicTables) (groups : List (κ × List MediaSnapshot))
    (key : κ) : get (publishedMediaBatch t.toDb groups) key =
      (get groups key).map (publishedMedia t.toDb.assets) := by
  have hin : ∀ group ∈ groups, ∀ item ∈ group.2, item.assetId ∈ assetIds groups :=
    fun group hgroup item hitem =>
      List.mem_flatMap.mpr ⟨group, hgroup, List.mem_map_of_mem hitem⟩
  have hbatch : publishedMediaBatch t.toDb groups =
      groups.map fun group => (group.1, publishedMedia t.toDb.assets group.2) := by
    unfold publishedMediaBatch
    by_cases hnone : assetIds groups = []
    · rw [if_pos hnone]
      refine List.map_congr_left fun group hgroup => ?_
      -- a group without assets has no records
      have hempty : group.2 = [] := by
        rw [List.eq_nil_iff_forall_not_mem]
        intro item hitem
        exact absurd (hin group hgroup item hitem) (hnone ▸ List.not_mem_nil)
      rw [hempty]
      rfl
    · rw [if_neg hnone]
      exact List.map_congr_left fun group hgroup => by
        rw [publishedMediaFromRows_eq t (hin group hgroup)]
  rw [hbatch, get_map]

theorem publishedMediaAlone_eq (t : PublicTables) (records : List MediaSnapshot) :
    publishedMediaAlone t.toDb records = publishedMedia t.toDb.assets records := by
  rw [publishedMediaAlone, publishedMediaBatch_eq]
  rfl

end Media

/-! ## Cards -/

/-- `_published_card_from_snapshot`. -/
def publishedCardFromSnapshot (componentId : UUID) (snapshot : ComponentRevision)
    (category : Category) (media : List ComponentMedia) : CatalogCard :=
  { id := componentId
    status := .published
    data := publishedData snapshot.content
    category := category.item
    revision := snapshot.revision
    updatedAt := snapshot.createdAt
    publishedAt := some snapshot.createdAt
    sources := snapshot.content.sources.map publishedSource
    media
    archivedFromStatus := none
    editToken := 1
    hasLegacyProvenance := false }

/-- The rows of `component_revisions`, each with its component. -/
def revisionRows (db : Db) : List (UUID × ComponentRevision) :=
  table Card.id Card.revisions db.cards

/-- `_published_card`. -/
def publishedCardById (db : Db) (componentId : UUID) : Option CatalogCard := do
  let snapshot ← latestPublished
    (((revisionRows db).filter fun row => row.1 = componentId).map Prod.snd)
  let category ← activeCategory db.categories snapshot.content.primaryCategoryId
  return publishedCardFromSnapshot componentId snapshot category
    (publishedMediaAlone db snapshot.content.media)

/-- `latest_revisions`: the greatest number of a published revision of each component. -/
def latestRevisions (db : Db) (ids : List UUID) : List (UUID × Nat) :=
  (collect (((revisionRows db).filter fun row => row.1 ∈ ids ∧ row.2.status = .published).map
    fun row => (row.1, row.2.revision))).map fun group => (group.1, group.2.foldr max 0)

/-- `snapshots`: the revisions that join with one of `latest_revisions`. -/
def latestSnapshots (db : Db) (ids : List UUID) : List (UUID × ComponentRevision) :=
  (revisionRows db).flatMap fun row =>
    ((latestRevisions db ids).filter fun latest =>
      row.1 = latest.1 ∧ row.2.revision = latest.2).map fun _ => row

/-- `category_ids_by_component`. -/
def categoryIds (snapshots : List (UUID × ComponentRevision)) : List (UUID × UUID) :=
  dictionary (snapshots.map fun item => (item.1, item.2.content.primaryCategoryId))

/-- `categories_by_id`. -/
def activeCategories (db : Db) (ids : List UUID) : List (UUID × Category) :=
  dictionary ((db.categories.filter fun category => category.id ∈ ids ∧ category.isActive).map
    fun category => (category.id, category))

/-- The entries of `media_records`. -/
def mediaRecords (snapshots : List (UUID × ComponentRevision)) (categoryIds : List (UUID × UUID))
    (categoriesById : List (UUID × Category)) : List (UUID × List MediaSnapshot) :=
  dictionary ((snapshots.filter fun item =>
      ((Batch.get categoryIds item.1).bind (Batch.get categoriesById)).isSome).map
    fun item => (item.1, item.2.content.media))

/-- The loop of `_published_cards` at one id: nothing when a dictionary lacks a key that it is read
at, and no card when the id is passed over. -/
def pageEntry (snapshotsByComponent : List (UUID × ComponentRevision))
    (categoryIdsByComponent : List (UUID × UUID)) (categoriesById : List (UUID × Category))
    (mediaByComponent : List (UUID × List ComponentMedia)) (componentId : UUID) :
    Option (Option CatalogCard) :=
  match Batch.get snapshotsByComponent componentId with
  | none => some none
  | some snapshot => do
    let categoryId ← Batch.get categoryIdsByComponent componentId
    match Batch.get categoriesById categoryId with
    | none => some none
    | some category =>
      let media ← Batch.get mediaByComponent componentId
      return some (publishedCardFromSnapshot componentId snapshot category media)

/-- `_published_cards`. -/
def publishedCards (db : Db) (ids : List UUID) : Option (List CatalogCard) :=
  if ids = [] then some []
  else
    let snapshots := latestSnapshots db ids
    if snapshots = [] then some []
    else
      let categoryIdsByComponent := categoryIds snapshots
      let categoriesById := activeCategories db (categoryIdsByComponent.map Prod.snd)
      let mediaByComponent := publishedMediaBatch db
        (mediaRecords snapshots categoryIdsByComponent categoriesById)
      List.reduceOption <$> ids.mapM
        (pageEntry (dictionary snapshots) categoryIdsByComponent categoriesById mediaByComponent)

/-! ## The latest revisions -/

/-- The revisions of a component. -/
def revisionsOf (db : Db) (id : UUID) : List ComponentRevision :=
  ((revisionRows db).filter fun row => row.1 = id).map Prod.snd

theorem filter_revisionRows (db : Db) (id : UUID) :
    (revisionRows db).filter (fun row => row.1 = id) =
      (revisionsOf db id).map fun revision => (id, revision) := by
  rw [revisionsOf, List.map_map]
  refine ((List.map_congr_left fun row hrow => ?_).trans (List.map_id _)).symm
  rw [← of_decide_eq_true (List.mem_filter.mp hrow).2]
  rfl

theorem revisionsOf_eq (t : PublicTables) (id : UUID) :
    revisionsOf t.toDb id = ((t.toDb.card id).map Card.revisions).getD [] := by
  unfold revisionsOf
  cases hcard : t.toDb.card id with
  | some card =>
    have hmem : card ∈ t.cards := mem_of_lookup hcard
    obtain rfl : card.id = id := key_of_lookup hcard
    rw [revisionRows, filter_table t.card_ids hmem, List.map_map]
    exact List.map_id _
  | none =>
    have hrest : (revisionRows t.toDb).filter (fun row => row.1 = id) = [] := by
      rw [List.filter_eq_nil_iff]
      intro row hrow
      obtain ⟨card, hmem, hrow⟩ := List.mem_flatMap.mp hrow
      obtain ⟨revision, -, rfl⟩ := List.mem_map.mp hrow
      simpa using lookup_eq_none.mp hcard card hmem
    rw [hrest]
    rfl

theorem revisionsOf_nodup (t : PublicTables) (id : UUID) :
    ((revisionsOf t.toDb id).map ComponentRevision.revision).Nodup := by
  rw [revisionsOf_eq]
  cases hcard : t.toDb.card id with
  | none => exact List.nodup_nil
  | some card => exact t.revisions card (mem_of_lookup hcard)

/-- A published revision is at most the latest. -/
theorem latestPublished_greatest {revisions : List ComponentRevision} {r : ComponentRevision}
    (hmem : r ∈ revisions) (hstatus : r.status = .published) :
    ∃ latest, latestPublished revisions = some latest ∧ r.revision ≤ latest.revision := by
  induction revisions using List.reverseRecOn with
  | nil => cases hmem
  | append_singleton revisions last ih =>
    by_cases hlast : last.status = .published
    · have hsplit : latestPublished (revisions ++ [last]) =
          (latestPublished revisions).elim (some last)
            fun l => if l.revision < last.revision then some last else some l := by
        rw [latestPublished_eq, latestPublished_eq, List.filter_append,
          List.filter_cons_of_pos (by simpa using hlast), List.filter_nil, List.foldl_append]
        rfl
      rw [hsplit]
      rcases List.mem_append.mp hmem with hold | hnew
      · obtain ⟨latest, hlatest, hle⟩ := ih hold
        rw [hlatest]
        by_cases hlt : latest.revision < last.revision
        · exact ⟨last, if_pos hlt, hle.trans hlt.le⟩
        · exact ⟨latest, if_neg hlt, hle⟩
      · obtain rfl := List.mem_singleton.mp hnew
        cases latestPublished revisions with
        | none => exact ⟨r, rfl, le_rfl⟩
        | some latest =>
          by_cases hlt : latest.revision < r.revision
          · exact ⟨r, if_pos hlt, le_rfl⟩
          · exact ⟨latest, if_neg hlt, Nat.le_of_not_lt hlt⟩
    · rw [latestPublished_append_other hlast]
      refine ih ((List.mem_append.mp hmem).resolve_right fun hnew => ?_)
      exact hlast (List.mem_singleton.mp hnew ▸ hstatus)

/-- The numbers of the published revisions of a component, as the subquery groups them. -/
theorem entry_numbers {db : Db} {ids : List UUID} {id : UUID} (hid : id ∈ ids) :
    entry (collect (((revisionRows db).filter fun row => row.1 ∈ ids ∧ row.2.status = .published).map
      fun row => (row.1, row.2.revision))) id =
        ((revisionsOf db id).filter (·.status = .published)).map ComponentRevision.revision := by
  have hwanted : ∀ row : UUID × ComponentRevision, row ∈ revisionRows db →
      (decide (row.1 = id) && decide (row.1 ∈ ids ∧ row.2.status = .published)) =
        (decide (row.2.status = .published) && decide (row.1 = id)) := by
    intro row _
    by_cases h : row.1 = id
    · simp [h, hid]
    · simp [h]
  rw [entry_collect, List.filter_map, List.map_map, List.filter_filter]
  change List.map (fun row => row.2.revision) (List.filter
    (fun row : UUID × ComponentRevision => decide (row.1 = id) && _) _) = _
  rw [List.filter_congr hwanted, ← List.filter_filter, filter_revisionRows, List.filter_map,
    List.map_map]
  rfl

/-- The subquery has the number of the latest published revision. -/
theorem get_latestNumber {db : Db} {ids : List UUID} {id : UUID} (hid : id ∈ ids) :
    get (latestRevisions db ids) id =
      (latestPublished (revisionsOf db id)).map ComponentRevision.revision := by
  rw [latestRevisions, get_map (fun numbers : List Nat => numbers.foldr max 0), get_collect,
    entry_numbers hid]
  cases hlatest : latestPublished (revisionsOf db id) with
  | none =>
    have hnone : (revisionsOf db id).filter (·.status = .published) = [] := by
      rw [List.filter_eq_nil_iff]
      intro r hr hstatus
      obtain ⟨latest, hsome, -⟩ := latestPublished_greatest hr (of_decide_eq_true hstatus)
      rw [hlatest] at hsome
      cases hsome
    rw [hnone, List.map_nil, if_pos rfl]
    rfl
  | some latest =>
    obtain ⟨hmem, hstatus⟩ := latestPublished_mem hlatest
    have hnumber : latest.revision ∈
        ((revisionsOf db id).filter (·.status = .published)).map ComponentRevision.revision :=
      List.mem_map_of_mem (List.mem_filter.mpr ⟨hmem, decide_eq_true hstatus⟩)
    have hbound : ∀ number ∈
        ((revisionsOf db id).filter (·.status = .published)).map ComponentRevision.revision,
        number ≤ latest.revision := by
      intro number hnumber
      obtain ⟨r, hr, rfl⟩ := List.mem_map.mp hnumber
      obtain ⟨hr, hpublished⟩ := List.mem_filter.mp hr
      obtain ⟨greatest, hsome, hle⟩ := latestPublished_greatest hr (of_decide_eq_true hpublished)
      rw [hlatest] at hsome
      exact Option.some.inj hsome ▸ hle
    rw [if_neg (List.ne_nil_of_mem hnumber)]
    exact congrArg some (le_antisymm (List.max_le_of_forall_le _ _ hbound)
      (List.le_max_of_le hnumber le_rfl))

/-- The revisions that join are those with the number of their component. -/
theorem latestSnapshots_eq (db : Db) (ids : List UUID) : latestSnapshots db ids =
    (revisionRows db).filter fun row =>
      Batch.get (latestRevisions db ids) row.1 = some row.2.revision := by
  have hnodup : ((latestRevisions db ids).map Prod.fst).Nodup := by
    rw [latestRevisions, List.map_map]
    exact collect_nodup _
  rw [latestSnapshots, ← List.filterMap_eq_filter, List.filterMap_eq_flatMap_toList]
  congr 1
  funext row
  rw [filter_pair hnodup, Option.guard]
  by_cases hsame : Batch.get (latestRevisions db ids) row.1 = some row.2.revision
  · rw [if_pos hsame, if_pos (decide_eq_true hsame)]
    rfl
  · rw [if_neg hsame, if_neg (by simpa using hsame)]
    rfl

/-- **The join finds the latest published revision of each component.** -/
theorem get_latestRevisions (t : PublicTables) {ids : List UUID} {id : UUID} (hid : id ∈ ids) :
    Batch.get (dictionary (latestSnapshots t.toDb ids)) id =
      latestPublished (revisionsOf t.toDb id) := by
  have hown : ((latestSnapshots t.toDb ids).filter (fun row => row.1 = id)).map Prod.snd =
      (revisionsOf t.toDb id).filter fun revision =>
        Batch.get (latestRevisions t.toDb ids) id = some revision.revision := by
    rw [latestSnapshots_eq, List.filter_filter]
    have hwanted : ∀ row : UUID × ComponentRevision, row ∈ revisionRows t.toDb →
        (decide (row.1 = id) &&
          decide (Batch.get (latestRevisions t.toDb ids) row.1 = some row.2.revision)) =
        (decide (Batch.get (latestRevisions t.toDb ids) id = some row.2.revision) &&
          decide (row.1 = id)) := by
      intro row _
      by_cases h : row.1 = id
      · simp [h]
      · simp [h]
    rw [List.filter_congr hwanted, ← List.filter_filter, filter_revisionRows, List.filter_map,
      List.map_map]
    exact List.map_id _
  rw [get_dictionary, hown, get_latestNumber hid]
  cases hlatest : latestPublished (revisionsOf t.toDb id) with
  | none => simp
  | some latest =>
    have hone := filter_of_nodup (revisionsOf_nodup t id) latest.revision
    rw [lookup_of_mem (revisionsOf_nodup t id) (latestPublished_mem hlatest).1] at hone
    have hsame : ∀ revision : ComponentRevision, revision ∈ revisionsOf t.toDb id →
        decide ((some latest).map ComponentRevision.revision = some revision.revision) =
          decide (revision.revision = latest.revision) := by
      intro revision _
      simp [eq_comm]
    rw [List.filter_congr hsame, hone]
    rfl

/-! ## The list -/

theorem get_activeCategories (t : PublicTables) {ids : List UUID} {id : UUID} (hid : id ∈ ids) :
    Batch.get (activeCategories t.toDb ids) id = activeCategory t.categories id := by
  rw [activeCategories,
    get_dictionary_of_nodup (t.category_ids.sublist (List.filter_sublist.map _)),
    lookup_filter_of_nodup t.category_ids, activeCategory]
  cases hfound : lookup Category.id t.categories id with
  | none => rfl
  | some category =>
    have hkey : category.id = id := key_of_lookup hfound
    simp [Option.filter, hkey, hid]

theorem publishedCardById_eq (t : PublicTables) (id : UUID) :
    publishedCardById t.toDb id = (t.toDb.card id).bind (publishedCard t.toDb) := by
  unfold publishedCardById publishedCard
  change (latestPublished (revisionsOf t.toDb id)).bind _ = _
  rw [revisionsOf_eq]
  simp only [publishedMediaAlone_eq]
  cases hcard : t.toDb.card id with
  | none => rfl
  | some card =>
    obtain rfl : card.id = id := key_of_lookup hcard
    rfl

section Page

variable {snapshots : List (UUID × ComponentRevision)} {id : UUID} {snapshot : ComponentRevision}

theorem get_categoryIds (h : Batch.get (dictionary snapshots) id = some snapshot) :
    Batch.get (categoryIds snapshots) id = some snapshot.content.primaryCategoryId := by
  rw [categoryIds, get_dictionary_map (fun r : ComponentRevision => r.content.primaryCategoryId), h]
  rfl

/-- The category of a snapshot is in the batch iff it is active. -/
theorem get_category (t : PublicTables) (h : Batch.get (dictionary snapshots) id = some snapshot) :
    Batch.get (activeCategories t.toDb ((categoryIds snapshots).map Prod.snd))
      snapshot.content.primaryCategoryId =
        activeCategory t.categories snapshot.content.primaryCategoryId :=
  get_activeCategories t (List.mem_map_of_mem (mem_of_get (get_categoryIds h)))

/-- The media of a snapshot with an active category are in the batch. -/
theorem get_mediaRecords {categories : List (UUID × Category)} {category : Category}
    (h : Batch.get (dictionary snapshots) id = some snapshot)
    (hcategory : Batch.get categories snapshot.content.primaryCategoryId = some category) :
    Batch.get (mediaRecords snapshots (categoryIds snapshots) categories) id =
      some snapshot.content.media := by
  have hkept : ((Batch.get (categoryIds snapshots) id).bind (Batch.get categories)).isSome := by
    rw [get_categoryIds h, Option.bind_some, hcategory]
    rfl
  rw [mediaRecords, get_dictionary_map (fun r : ComponentRevision => r.content.media),
    get_dictionary_filter
      (fun id => ((Batch.get (categoryIds snapshots) id).bind (Batch.get categories)).isSome),
    if_pos hkept, h]
  rfl

/-- The loop at one id gives the single card. -/
theorem pageEntry_eq (t : PublicTables) (hid : Batch.get (dictionary snapshots) id =
    latestPublished (revisionsOf t.toDb id)) :
    pageEntry (dictionary snapshots) (categoryIds snapshots)
      (activeCategories t.toDb ((categoryIds snapshots).map Prod.snd))
      (publishedMediaBatch t.toDb (mediaRecords snapshots (categoryIds snapshots)
        (activeCategories t.toDb ((categoryIds snapshots).map Prod.snd)))) id =
      some (publishedCardById t.toDb id) := by
  have hsingle : publishedCardById t.toDb id = do
      let snapshot ← Batch.get (dictionary snapshots) id
      let category ← activeCategory t.categories snapshot.content.primaryCategoryId
      return publishedCardFromSnapshot id snapshot category
        (publishedMediaAlone t.toDb snapshot.content.media) := by
    rw [hid]
    rfl
  rw [hsingle]
  unfold pageEntry
  cases hsnapshot : Batch.get (dictionary snapshots) id with
  | none => rfl
  | some snapshot =>
    have hcategory := get_category t hsnapshot
    simp only [get_categoryIds hsnapshot, Option.bind_eq_bind, Option.bind_some, hcategory]
    cases hactive : activeCategory t.categories snapshot.content.primaryCategoryId with
    | none => rfl
    | some category =>
      simp only
      rw [publishedMediaBatch_eq, get_mediaRecords hsnapshot (hcategory.trans hactive),
        publishedMediaAlone_eq]
      rfl

end Page

/-- **A batch is the list of the single cards**: the cards of the ids that have one, in the order of
the ids, and no dictionary is read at a key that it lacks. -/
theorem publishedCards_eq (t : PublicTables) (ids : List UUID) :
    publishedCards t.toDb ids = some (ids.filterMap (publishedCardById t.toDb)) := by
  unfold publishedCards
  by_cases hids : ids = []
  · rw [if_pos hids, hids]
    rfl
  rw [if_neg hids]
  simp only
  by_cases hnone : latestSnapshots t.toDb ids = []
  · rw [if_pos hnone]
    -- no id has a published revision
    have hempty : ids.filterMap (publishedCardById t.toDb) = [] := by
      rw [List.filterMap_eq_nil_iff]
      intro id hid
      have hno : latestPublished (revisionsOf t.toDb id) = none := by
        rw [← get_latestRevisions t hid, hnone]
        rfl
      change (latestPublished (revisionsOf t.toDb id)).bind _ = none
      rw [hno]
      rfl
    rw [hempty]
  · rw [if_neg hnone, mapM_congr fun id hid => pageEntry_eq t (get_latestRevisions t hid)]
    change List.reduceOption <$> ids.mapM (fun id => pure (publishedCardById t.toDb id)) = _
    rw [List.mapM_pure]
    exact congrArg some (by rw [List.reduceOption, List.filterMap_map]; rfl)

/-- A catalog with one published card and one draft. -/
def halfPublished : PublicTables where
  toDb := (run (step plainEnv) plainDb (publishing true)).getD plainDb
  category_ids := by decide +kernel
  card_ids := by decide +kernel
  asset_ids := by decide +kernel
  revisions := by decide +kernel
  variants := by decide +kernel

/-- The draft and an unknown id are passed over, and an id that is asked for twice is shown twice. -/
example : (publishedCards halfPublished.toDb [11, 10, 12, 10]).map (·.map CatalogCard.id) =
    some [10, 10] := by
  decide +kernel

end ComponentKb.Catalog
