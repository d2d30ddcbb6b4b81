import ComponentKb.Catalog.Effects
import ComponentKb.Lib.Holdings

/-!
# The assets of the catalog

`media_assets` as the transactions of the catalog see it: the uploads that no card has, and the
assets of each card. Most transactions change none; `Handling` says what the others do, whatever
else they write.

* `step_handles`: a transaction handles the assets in one way, or keeps them.
* `Handling.all_perm`: every asset after it was there or is new.
* `Handling.distinct`: no asset is lost, doubled or given to two cards.
-/

namespace ComponentKb.Catalog

open ComponentKb.Lib

/-! ## Shelves -/

/-- The uploads without a card, and the assets of each card. -/
abbrev Shelf := Holdings UUID MediaAsset

def Db.shelf (db : Db) : Shelf :=
  ⟨db.uploads, db.cards.map fun card => (card.id, card.assets)⟩

@[simp] theorem Db.shelf_all (db : Db) : db.shelf.all = db.assets := by
  unfold Holdings.all Db.shelf Db.assets
  rw [List.flatMap_map]

@[simp] theorem Db.shelf_owners (db : Db) :
    db.shelf.held.map Prod.fst = db.cards.map Card.id := by
  unfold Db.shelf
  rw [List.map_map]
  rfl

/-- The times that a transaction reads from the clock. -/
def Event.times : Event → List Time
  | .createComponent _ _ _ _ _ now => [now]
  | .createDocument _ _ _ _ now => [now]
  | .updateComponent _ _ _ _ _ now => [now]
  | .updateComponentImages _ _ _ _ _ _ now => [now]
  | .lifecycle _ _ _ _ _ now => [now]
  | .synchronize _ _ _ _ _ _ now later => [now, later]
  | .command _ _ _ _ now => [now]
  | .approveAndPublish _ _ _ now later => [now, later]
  | .reserveUpload _ _ _ now => [now]
  | .decide _ _ _ _ _ _ _ now => [now]
  | .persistDraft _ _ _ _ _ _ now => [now]
  | .persistRepositoryDraft _ _ _ _ _ _ now => [now]
  | .applyItem _ _ _ _ _ _ _ now later => [now, later]
  | _ => []

/-- The event stands for the processing of media. -/
def Event.processes : Event → Bool
  | .processMedia .. => true
  | _ => false

/-! ## What a transaction does to the assets -/

/-- At most twelve images, each named once. -/
abbrev DistinctImages (images : List ImageMutation) : Prop :=
  images.length ≤ 12 ∧ (images.map ImageMutation.assetId).Nodup

/-- The images of a legacy item that a card with these assets gets. -/
def ingestedAssets (owner : UUID) (title : String) (now : Time) (images : List LegacyImage)
    (assets : List MediaAsset) : List MediaAsset :=
  let usage := componentUsage now assets
  ingestImages owner title now usage.images usage.originalBytes
    (nextComponentOrder assets .image) ((assets.filter (·.status ≠ .rejected)).filterMap (·.sha256))
    images

/-- The assets of a card with the images of a legacy item. -/
def withIngested (owner : UUID) (title : String) (now : Time) (images : List LegacyImage)
    (assets : List MediaAsset) : List MediaAsset :=
  assets ++ ingestedAssets owner title now images assets

/-- The assets of a card once an edit of its images is done. -/
def arrangedAssets (images : List ImageMutation) (primary : Option UUID)
    (assets : List MediaAsset) : List MediaAsset :=
  mutatedAssets images (selectedPrimary (imagesOf assets) images primary) assets

/-- A free upload as it is attached to a card. -/
def MediaAsset.attached (asset : MediaAsset) : MediaAsset := { asset with isPrimary := false }

/-- What a transaction does to the assets; `merge` are the cards that it merges. -/
inductive Handling (event : Event) (merge : Option (UUID × UUID)) : Shelf → Shelf → Prop where
  | kept {s : Shelf} : Handling event merge s s
  | drafted {s s' : Shelf} {id : UUID} {images : List ImageMutation} {primary : Option UUID} :
      (∀ e ∈ s.held, e.1 ≠ id) → DistinctImages images →
      (∀ item ∈ images, ∃ asset ∈ s.free, asset.id = item.assetId) →
      (∀ asset ∈ s.free, asset.id ∈ images.map ImageMutation.assetId → asset.kind = .image) →
      (∀ p ∈ primary, p ∈ images.map ImageMutation.assetId) →
      s'.free = s.free.filter (fun asset => asset.id ∉ images.map ImageMutation.assetId) →
      s.Adds s' id ((s.free.filter fun asset => asset.id ∈ images.map ImageMutation.assetId).map
        (.mutated images (primary.or (images.head?.map ImageMutation.assetId)))) →
      Handling event merge s s'
  | arranged {s s' : Shelf} {id : UUID} {assets given : List MediaAsset} {ids : List UUID}
      {images : List ImageMutation} {primary : Option UUID} :
      given = (s.free.filter fun asset => asset.id ∈ ids).map .attached →
      (∀ asset ∈ given, asset.kind = .image) →
      (given = [] ∨ ∃ now ∈ event.times, (componentUsage now assets).originalBytes +
        (given.map MediaAsset.declaredSizeBytes).sum ≤ maxComponentOriginalBytes) →
      DistinctImages images →
      (∀ item ∈ images, item.assetId ∈ (imagesOf (assets ++ given)).map MediaAsset.id) →
      (∀ p ∈ primary, p ∈ images.map ImageMutation.assetId) →
      s'.free = s.free.filter (fun asset => asset.id ∉ ids) ++
        releasedAssets images (assets ++ given) →
      s.Moves s' id assets (arrangedAssets images primary (assets ++ given)) →
      Handling event merge s s'
  | uploaded {s s' : Shelf} {asset : MediaAsset} :
      event.newAssets = [asset.id] → asset.declaredSizeBytes ≤ asset.kind.maxBytes →
      asset.isPrimary = false → s'.free = s.free ++ [asset] → s'.held = s.held →
      Handling event merge s s'
  | reserved {s s' : Shelf} {id : UUID} {assets : List MediaAsset} {asset : MediaAsset}
      {now : Time} :
      event.newAssets = [asset.id] → asset.declaredSizeBytes ≤ asset.kind.maxBytes →
      now ∈ event.times →
      (componentUsage now assets).count asset.kind < MediaKind.maxCount asset.kind →
      (componentUsage now assets).originalBytes + asset.declaredSizeBytes ≤
        maxComponentOriginalBytes →
      (asset.isPrimary = true ↔ asset.kind = .image ∧ imagesOf assets = []) →
      s'.free = s.free → s.Moves s' id assets (assets ++ [asset]) → Handling event merge s s'
  | imported {s s' : Shelf} {id owner : UUID} {title : String} {now : Time}
      {images : List LegacyImage} :
      (∀ e ∈ s.held, e.1 ≠ id) → event.newAssets = images.map LegacyImage.assetId →
      now ∈ event.times → s'.free = s.free → s.Adds s' id (withIngested owner title now images []) →
      Handling event merge s s'
  | ingested {s s' : Shelf} {id owner : UUID} {title : String} {now : Time}
      {images : List LegacyImage} {assets : List MediaAsset} :
      event.newAssets = images.map LegacyImage.assetId → now ∈ event.times →
      requireOnePrimary (withIngested owner title now images assets) = .ok () →
      s'.free = s.free → s.Moves s' id assets (withIngested owner title now images assets) →
      Handling event merge s s'
  | merged {s s' : Shelf} {survivorId loserId : UUID} {survivor loser : List MediaAsset} :
      merge = some (survivorId, loserId) → s'.free = s.free →
      s.Merges s' survivorId loserId survivor loser (mergedAssets survivor loser) →
      Handling event merge s s'

/-! ## Writes of one card -/

section Writes

variable {u : Unicode} {db db' : Db} {card new : Card} {id actor : UUID} {revision token : Nat}
  {now later : Time} {event : Event} {merge : Option (UUID × UUID)}

theorem shelf_put (hcards : (db.cards.map Card.id).Nodup) (hfound : db.card new.id = some card) :
    db.shelf.Moves (db.put new).shelf new.id card.assets new.assets := by
  obtain ⟨front, back, hbefore, hafter⟩ := replace_split hcards hfound
  have hid : card.id = new.id := Db.id_of_card hfound
  refine ⟨(front ++ back).map fun card => (card.id, card.assets), ?_, ?_⟩
  · unfold Db.shelf
    rw [hbefore, ← hid]
    exact List.perm_middle.map fun card : Card => (card.id, card.assets)
  · unfold Db.shelf Db.put
    rw [hafter]
    exact List.perm_middle.map fun card : Card => (card.id, card.assets)

/-- A write of a card of the same id, over a database with the same cards. -/
theorem shelf_write {assets : List MediaAsset} (hcards : (db.cards.map Card.id).Nodup)
    (hfound : db.card new.id = some card) (hassets : new.assets = assets)
    (htables : db'.cards = db.cards) (hid : new.id = id) :
    db.shelf.Moves (db'.put new).shelf id card.assets assets := by
  have hmoves := shelf_put hcards hfound
  rw [hid, hassets] at hmoves
  unfold Holdings.Moves Db.shelf Db.put at hmoves ⊢
  rw [htables]
  exact hmoves

/-- A write that leaves the assets of its card. -/
theorem shelf_put_same (hcards : (db.cards.map Card.id).Nodup)
    (hfound : db.card new.id = some card) (hassets : new.assets = card.assets) :
    (db.put new).shelf = db.shelf := by
  obtain ⟨front, back, hbefore, hafter⟩ := replace_split hcards hfound
  have hid : card.id = new.id := Db.id_of_card hfound
  unfold Db.shelf Db.put
  rw [hafter, hbefore, List.map_append, List.map_append, List.map_cons, List.map_cons, hid, hassets]

/-- The ids of the cards are those of the shelf. -/
theorem nodup_of_shelf (hcards : (db.cards.map Card.id).Nodup) (h : db'.shelf = db.shelf) :
    (db'.cards.map Card.id).Nodup := by
  rw [← Db.shelf_owners, h, Db.shelf_owners]
  exact hcards

theorem nodup_of_moves {assets assets' : List MediaAsset} (hcards : (db.cards.map Card.id).Nodup)
    (h : db.shelf.Moves db'.shelf id assets assets') : (db'.cards.map Card.id).Nodup := by
  rw [← Db.shelf_owners] at hcards ⊢
  exact h.owners hcards

theorem update_shelf {data : DraftData} {recordHistory : Bool}
    (hcards : (db.cards.map Card.id).Nodup)
    (h : update u db id revision data actor now recordHistory = .ok db') :
    db'.shelf = db.shelf := by
  obtain ⟨card, tags, definitions, details, hcard, -, -, -, -, -, -, rfl⟩ := update_spec h
  obtain rfl := Db.id_of_card hcard
  refine shelf_put_same hcards (?_ : _ = some card) (Card.edited_assets ..)
  rw [Card.edited_id]
  exact hcard

theorem touchMediaAttachment_shelf (hcards : (db.cards.map Card.id).Nodup)
    (h : touchMediaAttachment u db id revision actor now = .ok db') : db'.shelf = db.shelf := by
  obtain ⟨card, hcard, -, -, rfl⟩ := touchMediaAttachment_spec h
  obtain rfl := Db.id_of_card hcard
  refine shelf_put_same hcards (?_ : _ = some card) (Card.edited_assets ..)
  rw [Card.edited_id]
  exact hcard

theorem transition_shelf {target : ComponentStatus} (hcards : (db.cards.map Card.id).Nodup)
    (h : transition u db id revision target actor now = .ok db') : db'.shelf = db.shelf := by
  obtain ⟨card, action, hcard, -, -, -, -, rfl⟩ := transition_spec h
  obtain rfl := Db.id_of_card hcard
  exact shelf_put_same hcards hcard rfl

theorem lifecycle_shelf {action : LifecycleAction} (hcards : (db.cards.map Card.id).Nodup)
    (h : lifecycle u db id revision action actor now = .ok db') : db'.shelf = db.shelf := by
  cases action with
  | submit | requestChanges | approve | publish | hide | archive => exact transition_shelf hcards h
  | «show» =>
    obtain ⟨card, publishedAt, hcard, -, -, -, rfl⟩ := showHidden_spec h
    obtain rfl := Db.id_of_card hcard
    exact shelf_put_same hcards hcard rfl
  | restore =>
    obtain ⟨card, target, hcard, -, -, -, -, rfl⟩ := restoreArchived_spec h
    obtain rfl := Db.id_of_card hcard
    exact shelf_put_same hcards hcard rfl

theorem attachSource_shelf {relation : ComponentSource} (hcards : (db.cards.map Card.id).Nodup)
    (h : attachSource db id relation = .ok db') : db'.shelf = db.shelf := by
  obtain ⟨card, hcard, h⟩ := bind_eq_ok.mp h
  cases h
  obtain rfl := Db.id_of_card (locked_eq_ok.mp hcard)
  exact shelf_put_same hcards (locked_eq_ok.mp hcard) rfl

end Writes

/-! ## Requests -/

section Requests

variable {u : Unicode} {db db' : Db} {id actor : UUID} {revision token : Nat} {now later : Time}
  {event : Event} {merge : Option (UUID × UUID)}

theorem attachStagedImages_spec {images : List ImageMutation} {primary : Option UUID}
    {assets : List MediaAsset} (h : attachStagedImages db images primary actor = .ok assets) :
    DistinctImages images ∧ (∀ p ∈ primary, p ∈ images.map ImageMutation.assetId) ∧
      (∀ item ∈ images, ∃ asset, lookup MediaAsset.id db.uploads item.assetId = some asset ∧
        asset.kind = .image) ∧
      assets = (db.uploads.filter fun asset => asset.id ∈ images.map ImageMutation.assetId).map
        (.mutated images (primary.or (images.head?.map ImageMutation.assetId))) := by
  obtain ⟨hdistinct, h⟩ := seq_eq_ok.mp h
  obtain ⟨hprimary, h⟩ := seq_eq_ok.mp h
  obtain ⟨-, h⟩ := seq_eq_ok.mp h
  obtain ⟨hstaged, h⟩ := seq_eq_ok.mp h
  cases h
  refine ⟨require_eq_ok.mp hdistinct, require_eq_ok.mp hprimary, fun item hitem => ?_, rfl⟩
  obtain ⟨asset, hasset, hitem⟩ := bind_eq_ok.mp (each_eq_ok.mp hstaged item hitem)
  obtain ⟨hown, -⟩ := seq_eq_ok.mp hitem
  exact ⟨asset, fromSome_eq_ok.mp hasset, (require_eq_ok.mp hown).2.1⟩

/-- A new card is the last one. -/
theorem shelf_append {new : Card} {assets : List MediaAsset}
    (hcards : db'.cards = db.cards ++ [new]) (hid : new.id = id) (hassets : new.assets = assets) :
    db.shelf.Adds db'.shelf id assets := by
  unfold Holdings.Adds Db.shelf
  rw [hcards, List.map_append, List.map_singleton, hid, hassets]
  exact List.perm_append_comm

theorem shelf_fresh (hfresh : db.card id = none) : ∀ e ∈ db.shelf.held, e.1 ≠ id := by
  intro e he
  obtain ⟨card, hcard, rfl⟩ := List.mem_map.mp he
  exact lookup_eq_none.mp hfresh card hcard

theorem create_handles {data : DraftData} {images : List ImageMutation} {primary : Option UUID}
    (hi : db.shelf.Distinct MediaAsset.id) (hfresh : db.card id = none)
    (h : create u db id data images primary actor now = .ok db') :
    Handling event merge db.shelf db'.shelf := by
  obtain ⟨tags, definitions, details, assets, -, -, hassets, rfl⟩ := create_spec h
  obtain ⟨hdistinct, hprimary, hstaged, rfl⟩ := attachStagedImages_spec hassets
  refine .drafted (shelf_fresh hfresh) hdistinct ?_ ?_ hprimary rfl
    (shelf_append rfl rfl rfl)
  · intro item hitem
    obtain ⟨asset, hasset, -⟩ := hstaged item hitem
    exact ⟨asset, mem_of_lookup hasset, key_of_lookup hasset⟩
  · intro asset hasset hrequested
    obtain ⟨item, hitem, hid⟩ := List.mem_map.mp hrequested
    obtain ⟨found, hfound, hkind⟩ := hstaged item hitem
    have huploads : (db.uploads.map MediaAsset.id).Nodup := by
      have hall := hi.items
      rw [Holdings.all, List.map_append] at hall
      exact hall.of_append_left
    have hsame : lookup MediaAsset.id db.uploads asset.id = some asset :=
      lookup_of_mem huploads hasset
    rw [hid] at hfound
    obtain rfl := Option.some.inj (hsame.symm.trans hfound)
    exact hkind

theorem createDocument_handles {requestId : UUID} {data : DraftData}
    (hi : db.shelf.Distinct MediaAsset.id) (hfresh : db.card id = none)
    (h : createDocument u db requestId id data actor now = .ok db') :
    Handling event merge db.shelf db'.shelf := by
  unfold createDocument at h
  split at h
  · obtain ⟨-, h⟩ := seq_eq_ok.mp h
    cases h
    exact .kept
  · obtain ⟨db₁, hcreate, h⟩ := bind_eq_ok.mp h
    cases h
    have hhandles : Handling event merge db.shelf db₁.shelf := create_handles hi hfresh hcreate
    exact hhandles

/-- The cards after one is created. -/
theorem create_nodup {data : DraftData} {images : List ImageMutation} {primary : Option UUID}
    (hcards : (db.cards.map Card.id).Nodup) (hfresh : db.card id = none)
    (h : create u db id data images primary actor now = .ok db') :
    (db'.cards.map Card.id).Nodup := by
  obtain ⟨tags, definitions, details, assets, -, -, -, rfl⟩ := create_spec h
  rw [List.map_append, List.map_singleton, List.nodup_append]
  refine ⟨hcards, List.nodup_singleton _, ?_⟩
  intro a ha b hb heq
  obtain ⟨card, hcard, rfl⟩ := List.mem_map.mp ha
  rw [List.mem_singleton.mp hb] at heq
  exact lookup_eq_none.mp hfresh card hcard heq

/-- A card that is created without images. -/
theorem create_bare {data : DraftData} (h : create u db id data [] none actor now = .ok db') :
    db'.shelf.free = db.shelf.free ∧ db.shelf.Adds db'.shelf id [] := by
  obtain ⟨tags, definitions, details, assets, -, -, hassets, rfl⟩ := create_spec h
  obtain ⟨-, -, -, rfl⟩ := attachStagedImages_spec hassets
  refine ⟨?_, shelf_append rfl rfl ?_⟩
  · simp [Db.shelf]
  · simp [newCard]

theorem createSourced_handles {data : DraftData} {relation : ComponentSource}
    (hi : db.shelf.Distinct MediaAsset.id) (hfresh : db.card id = none)
    (h : (do
      let db ← create u db id data [] none actor now
      attachSource db id relation) = .ok db') : Handling event merge db.shelf db'.shelf := by
  obtain ⟨db₁, hcreate, hattach⟩ := bind_eq_ok.mp h
  have hcards : (db.cards.map Card.id).Nodup := by
    rw [← Db.shelf_owners]
    exact hi.owners
  rw [attachSource_shelf (create_nodup hcards hfresh hcreate) hattach]
  exact create_handles hi hfresh hcreate

theorem persistDraft_handles {sourceId newId rowId : UUID} {keys : ExactKeys} {draft : DraftData}
    (hi : db.shelf.Distinct MediaAsset.id) (hfresh : db.card newId = none)
    (h : persistDraft u db sourceId keys draft newId rowId actor now = .ok db') :
    Handling event merge db.shelf db'.shelf := by
  unfold persistDraft at h
  split at h
  · split at h
    · cases h
      exact .kept
    · rw [attachSource_shelf (Db.shelf_owners db ▸ hi.owners) h]
      exact .kept
  · exact createSourced_handles hi hfresh h

theorem persistRepositoryDraft_handles {sourceId newId rowId : UUID} {parsed : ParsedRepository}
    {draft : DraftData} (hi : db.shelf.Distinct MediaAsset.id) (hfresh : db.card newId = none)
    (h : persistRepositoryDraft u db sourceId parsed draft newId rowId actor now = .ok db') :
    Handling event merge db.shelf db'.shelf := by
  obtain ⟨_, -, h⟩ := bind_eq_ok.mp h
  obtain ⟨-, h⟩ := seq_eq_ok.mp h
  obtain ⟨-, h⟩ := seq_eq_ok.mp h
  split at h
  · cases h
    exact .kept
  · exact createSourced_handles hi hfresh h

/-! ### Images of a card -/

/-- An edit of the images of a card. -/
theorem mutateImages_shelf {images : List ImageMutation} {primary : Option UUID}
    {recordHistory : Bool} (hcards : (db.cards.map Card.id).Nodup)
    (h : mutateImages u db id revision images primary actor now recordHistory = .ok db') :
    ∃ card, db.card id = some card ∧ DistinctImages images ∧
      (∀ item ∈ images, item.assetId ∈ (imagesOf card.assets).map MediaAsset.id) ∧
      (∀ p ∈ primary, p ∈ images.map ImageMutation.assetId) ∧
      db'.shelf.free = db.shelf.free ++ releasedAssets images card.assets ∧
      db.shelf.Moves db'.shelf id card.assets (arrangedAssets images primary card.assets) := by
  obtain ⟨card, hcard, h⟩ := bind_eq_ok.mp h
  obtain ⟨hcard, -⟩ := lockedAt_eq_ok.mp hcard
  obtain ⟨-, h⟩ := seq_eq_ok.mp h
  obtain ⟨hdistinct, h⟩ := seq_eq_ok.mp h
  obtain ⟨hrequested, h⟩ := seq_eq_ok.mp h
  obtain ⟨hprimary, h⟩ := seq_eq_ok.mp h
  obtain ⟨-, h⟩ := seq_eq_ok.mp h
  cases h
  obtain rfl := Db.id_of_card hcard
  refine ⟨card, hcard, require_eq_ok.mp hdistinct, ?_, require_eq_ok.mp hprimary, rfl, ?_⟩
  · intro item hitem
    exact require_eq_ok.mp hrequested _ (List.mem_map_of_mem hitem)
  · refine shelf_write hcards ?_ (Card.edited_assets ..) rfl (Card.edited_id ..)
    rw [Card.edited_id]
    exact hcard

theorem updateComponentImages_handles {images : List ImageMutation} {primary : Option UUID}
    {editToken : Option Nat} (hi : db.shelf.Distinct MediaAsset.id)
    (h : updateComponentImages u db id revision editToken images primary actor now = .ok db') :
    Handling event merge db.shelf db'.shelf := by
  obtain ⟨-, h⟩ := seq_eq_ok.mp h
  obtain ⟨card, hcard, hdistinct, hrequested, hprimary, hfree, hmoves⟩ :=
    mutateImages_shelf (Db.shelf_owners db ▸ hi.owners) h
  have hgiven : [] = (db.shelf.free.filter fun asset => asset.id ∈ ([] : List UUID)).map
      MediaAsset.attached := by simp
  have hkept : db.shelf.free.filter (fun asset => asset.id ∉ ([] : List UUID)) = db.shelf.free := by
    simp
  rw [← List.append_nil card.assets] at hrequested hfree
  rw [← hkept] at hfree
  have hmoves' : db.shelf.Moves db'.shelf id card.assets
      (arrangedAssets images primary (card.assets ++ [])) := by
    rw [List.append_nil]
    exact hmoves
  exact .arranged hgiven (by simp) (Or.inl rfl) hdistinct hrequested hprimary hfree hmoves'

/-- The uploads that a synchronization attaches are free ones. -/
theorem newImages_eq {ids : List UUID} (hi : db.shelf.Distinct MediaAsset.id)
    (hfree : ∀ asset ∈ newImages db ids, asset ∈ db.uploads) :
    newImages db ids = db.uploads.filter fun asset => asset.id ∈ ids := by
  have hitems := hi.items
  rw [Db.shelf_all] at hitems
  unfold newImages Db.assets at hfree ⊢
  unfold Db.assets at hitems
  rw [List.map_append, List.nodup_append] at hitems
  obtain ⟨-, -, hapart⟩ := hitems
  rw [List.filter_append]
  refine (congrArg _ (List.filter_eq_nil_iff.mpr fun asset hasset hids => ?_)).trans
    (List.append_nil _)
  have hmem : asset ∈ db.uploads :=
    hfree asset (List.mem_filter.mpr ⟨List.mem_append_right _ hasset, hids⟩)
  exact hapart _ (List.mem_map_of_mem hmem) _ (List.mem_map_of_mem hasset) rfl

theorem shelf_mem {card : Card} (hcard : db.card id = some card) :
    (id, card.assets) ∈ db.shelf.held := by
  obtain rfl := Db.id_of_card hcard
  exact List.mem_map_of_mem (Db.mem_of_card hcard)

theorem shelf_assets_eq {assets assets' : List MediaAsset} {s : Shelf}
    (howners : (s.held.map Prod.fst).Nodup) (h : (id, assets) ∈ s.held)
    (h' : (id, assets') ∈ s.held) : assets = assets' :=
  congrArg Prod.snd (List.inj_on_of_nodup_map howners h h' rfl)

/-- The uploads of a synchronization, on their card. -/
theorem attachNew_shelf {card : Card} {ids : List UUID} {given : List MediaAsset}
    (hi : db.shelf.Distinct MediaAsset.id) (hcard : db.card card.id = some card)
    (hgiven : given = (db.shelf.free.filter fun asset => asset.id ∈ ids).map .attached)
    (h : attachNew db card actor ids now = .ok db') :
    (∀ asset ∈ given, asset.kind = .image) ∧
      (componentUsage now card.assets).originalBytes + (given.map MediaAsset.declaredSizeBytes).sum
        ≤ maxComponentOriginalBytes ∧
      db'.shelf.free = db.shelf.free.filter (fun asset => asset.id ∉ ids) ∧
      db.shelf.Moves db'.shelf card.id card.assets (card.assets ++ given) := by
  obtain ⟨-, h⟩ := seq_eq_ok.mp h
  obtain ⟨hroom, h⟩ := seq_eq_ok.mp h
  obtain ⟨hattachable, h⟩ := seq_eq_ok.mp h
  cases h
  replace hroom := require_eq_ok.mp hroom
  replace hattachable := require_eq_ok.mp hattachable
  have hnew : given = (newImages db ids).map .attached := by
    rw [hgiven, newImages_eq hi fun asset hasset => (hattachable asset hasset).2]
    rfl
  subst hnew
  refine ⟨?_, ?_, rfl, shelf_write (Db.shelf_owners db ▸ hi.owners) hcard rfl rfl rfl⟩
  · intro asset hasset
    obtain ⟨found, hfound, rfl⟩ := List.mem_map.mp hasset
    exact (hattachable found hfound).1.2.1
  · rw [List.map_map]
    exact hroom

theorem synchronize_handles {data : DraftData} {images : List ImageMutation}
    {primary : Option UUID} (hi : db.shelf.Distinct MediaAsset.id) (hnow : now ∈ event.times)
    (h : synchronize u db id token data images primary actor now later = .ok db') :
    Handling event merge db.shelf db'.shelf := by
  obtain ⟨card, hcard, h⟩ := bind_eq_ok.mp h
  obtain ⟨hcard, -⟩ := lockToken_eq_ok.mp hcard
  obtain ⟨-, h⟩ := seq_eq_ok.mp h
  obtain ⟨-, h⟩ := seq_eq_ok.mp h
  obtain ⟨-, h⟩ := seq_eq_ok.mp h
  obtain ⟨db₁, hattach, h⟩ := bind_eq_ok.mp h
  obtain ⟨db₂, hupdate, hmutate⟩ := bind_eq_ok.mp h
  obtain rfl := Db.id_of_card hcard
  obtain ⟨hkinds, hroom, hfree₁, hfirst⟩ := attachNew_shelf hi hcard rfl hattach
  -- the update of the fields keeps the uploads where they were attached
  have hcards₁ : (db₁.cards.map Card.id).Nodup := by
    rw [← Db.shelf_owners]
    exact hfirst.owners hi.owners
  have hkept := update_shelf hcards₁ hupdate
  have hcards₂ := nodup_of_shelf hcards₁ hkept
  obtain ⟨card₂, hcard₂, hdistinct, hrequested, hprimary, hfree₂, hsecond⟩ :=
    mutateImages_shelf hcards₂ hmutate
  have hmem := shelf_mem hcard₂
  rw [hkept] at hmem
  have hassets := shelf_assets_eq (hfirst.owners hi.owners) hmem hfirst.mem
  rw [hkept, hassets] at hsecond
  rw [hassets] at hrequested
  rw [hassets, hkept, hfree₁] at hfree₂
  exact .arranged rfl hkinds (Or.inr ⟨now, hnow, hroom⟩) hdistinct hrequested hprimary hfree₂
    (hfirst.trans hsecond)

/-! ### Uploads and legacy items -/

theorem reserveUpload_handles {settings : UploadSettings} {assetId : UUID}
    {request : UploadRequest} (hcards : (db.cards.map Card.id).Nodup) (hnow : now ∈ event.times)
    (hnew : event.newAssets = [assetId])
    (h : reserveUpload u settings db assetId request actor now = .ok db') :
    Handling event merge db.shelf db'.shelf := by
  obtain ⟨hvalid, h⟩ := seq_eq_ok.mp h
  obtain ⟨-, hvalid⟩ := seq_eq_ok.mp hvalid
  obtain ⟨hsize, -⟩ := seq_eq_ok.mp hvalid
  replace hsize := (require_eq_ok.mp hsize).2
  split at h
  · cases h
    exact .uploaded hnew hsize rfl rfl rfl
  · obtain ⟨revision, -, h⟩ := bind_eq_ok.mp h
    obtain ⟨card, hroom, htouch⟩ := bind_eq_ok.mp h
    obtain ⟨found, hcard, hroom⟩ := bind_eq_ok.mp hroom
    obtain ⟨-, hroom⟩ := seq_eq_ok.mp hroom
    obtain ⟨hcount, hroom⟩ := seq_eq_ok.mp hroom
    obtain ⟨hbytes, hroom⟩ := seq_eq_ok.mp hroom
    cases hroom
    replace hcard := fromSome_eq_ok.mp hcard
    obtain rfl := Db.id_of_card hcard
    let next : Card := { card with assets := card.assets ++ [request.asset settings assetId actor
      (nextComponentOrder card.assets request.kind)
      (request.kind = .image ∧ imagesOf card.assets = []) now] }
    have hmoves : db.shelf.Moves (db.put next).shelf card.id card.assets next.assets :=
      shelf_write hcards hcard rfl rfl rfl
    rw [touchMediaAttachment_shelf (nodup_of_moves hcards hmoves) htouch]
    exact .reserved hnew hsize hnow (require_eq_ok.mp hcount) (require_eq_ok.mp hbytes)
      decide_eq_true_iff rfl hmoves

/-- The card of a legacy item with its images. -/
theorem linkLegacy_shelf {identity : String} {images : List LegacyImage} {owner : UUID}
    {title : String} (hcards : (db.cards.map Card.id).Nodup)
    (h : linkLegacy db id identity images owner title now = .ok db') :
    ∃ card, db.card id = some card ∧
      requireOnePrimary (withIngested owner title now images card.assets) = .ok () ∧
      db'.shelf.free = db.shelf.free ∧
      db.shelf.Moves db'.shelf id card.assets
        (withIngested owner title now images card.assets) := by
  obtain ⟨card, hcard, h⟩ := bind_eq_ok.mp h
  obtain ⟨hprimary, h⟩ := seq_eq_ok.mp h
  cases h
  replace hcard := locked_eq_ok.mp hcard
  obtain rfl := Db.id_of_card hcard
  exact ⟨card, hcard, hprimary, rfl, shelf_write hcards hcard rfl rfl rfl⟩

theorem applyItem_handles {identity : String} {decision : LegacyDecision} {data : DraftData}
    {images : List LegacyImage} {newId owner : UUID} (hi : db.shelf.Distinct MediaAsset.id)
    (hfresh : db.card newId = none) (hnow : now ∈ event.times)
    (hnew : event.newAssets = images.map LegacyImage.assetId)
    (h : applyItem u db identity decision data images newId owner actor now later = .ok db') :
    Handling event merge db.shelf db'.shelf := by
  obtain ⟨-, h⟩ := seq_eq_ok.mp h
  obtain ⟨⟨db₁, componentId⟩, htarget, h⟩ := bind_eq_ok.mp h
  obtain ⟨db₂, hlink, h⟩ := bind_eq_ok.mp h
  obtain ⟨_, -, htouch⟩ := bind_eq_ok.mp h
  have hcards : (db.cards.map Card.id).Nodup := Db.shelf_owners db ▸ hi.owners
  cases decision with
  | create =>
    obtain ⟨_, hcreate, htarget⟩ := bind_eq_ok.mp htarget
    cases htarget
    have hcards₁ := create_nodup hcards hfresh hcreate
    obtain ⟨card, hcard, -, hfree, hmoves⟩ := linkLegacy_shelf hcards₁ hlink
    rw [touchMediaAttachment_shelf (nodup_of_moves hcards₁ hmoves) htouch]
    -- the new card has no assets before the images of the item
    obtain ⟨hfree₁, hadds⟩ := create_bare hcreate
    have hempty : card.assets = [] := by
      refine shelf_assets_eq (by rw [Db.shelf_owners]; exact hcards₁) (shelf_mem hcard) ?_
      exact hadds.mem_iff.mpr List.mem_cons_self
    rw [hempty] at hmoves
    exact .imported (shelf_fresh hfresh) hnew hnow (hfree.trans hfree₁) (hadds.moves hmoves)
  | merge id revision token =>
    obtain ⟨_, -, htarget⟩ := bind_eq_ok.mp htarget
    obtain ⟨-, htarget⟩ := seq_eq_ok.mp htarget
    obtain ⟨_, hupdate, htarget⟩ := bind_eq_ok.mp htarget
    cases htarget
    have hkept := update_shelf hcards hupdate
    obtain ⟨card, hcard, hprimary, hfree, hmoves⟩ :=
      linkLegacy_shelf (nodup_of_shelf hcards hkept) hlink
    rw [hkept] at hfree hmoves
    rw [touchMediaAttachment_shelf (nodup_of_moves hcards hmoves) htouch]
    exact .ingested hnew hnow hprimary hfree hmoves

/-! ### Merges -/

theorem decideDuplicate_uploads {candidateId : UUID} {decision : DuplicateDecision}
    {left right : Nat} {survivorId : Option UUID} {fieldSources : List (String × UUID)}
    (h : decideDuplicate u db candidateId decision left right survivorId fieldSources actor now =
      .ok db') : db'.uploads = db.uploads := by
  obtain ⟨candidate, -, h⟩ := bind_eq_ok.mp h
  obtain ⟨-, h⟩ := seq_eq_ok.mp h
  obtain ⟨-, h⟩ := seq_eq_ok.mp h
  obtain ⟨-, h⟩ := seq_eq_ok.mp h
  obtain ⟨db₁, hresolve, h⟩ := bind_eq_ok.mp h
  cases h
  replace hresolve := mapError_eq_ok.mp hresolve
  unfold resolveCandidate at hresolve
  split at hresolve
  · obtain ⟨loserId, card, next, loser, data, tags, definitions, merged, -, -, -, rfl⟩ :=
      resolveDuplicatePair_spec hresolve
    rfl
  · obtain ⟨_, -, hresolve⟩ := bind_eq_ok.mp hresolve
    obtain ⟨_, -, hresolve⟩ := bind_eq_ok.mp hresolve
    obtain ⟨-, hresolve⟩ := seq_eq_ok.mp hresolve
    cases hresolve
    rfl

theorem Merge.merged_assets {survivor next loser merged gone : Card}
    (h : Merge u event db db' survivor next loser merged gone) :
    merged.assets = mergedAssets survivor.assets loser.assets ∧ gone.assets = [] := by
  obtain ⟨data, hmerging, db₁, actor, now, -, rfl, rfl⟩ := h.merging
  obtain ⟨row, details, rfl⟩ := hmerging.details
  exact ⟨rfl, rfl⟩

theorem Merge.handles {survivor next loser merged gone : Card}
    (hcards : (db.cards.map Card.id).Nodup) (huploads : db'.uploads = db.uploads)
    (h : Merge u event db db' survivor next loser merged gone) :
    Handling event (event.merge db) db.shelf db'.shelf := by
  obtain ⟨hmerged, hgone⟩ := h.merged_assets
  obtain ⟨db₁, hsame, htables⟩ := h.tables
  have hfound : db.card merged.id = some survivor := by
    rw [h.merged_id]
    exact h.found
  have hfirst := shelf_write hcards hfound hmerged hsame.cards h.merged_id
  have hloser : (db₁.put merged).card gone.id = some loser := by
    rw [Db.put_card_ne (by rw [h.merged_id, h.gone_id]; exact h.ne), hsame.card, h.gone_id]
    exact h.foundLoser
  have hcards₁ : ((db₁.put merged).cards.map Card.id).Nodup := by
    unfold Db.put
    rw [map_key_replace, hsame.cards]
    exact hcards
  have hsecond := shelf_write hcards₁ hloser hgone rfl h.gone_id
  have hheld : db'.shelf.held = ((db₁.put merged).put gone).shelf.held := by
    unfold Db.shelf
    rw [htables.cards]
  have hmerges : db.shelf.Merges db'.shelf survivor.id loser.id survivor.assets loser.assets
      (mergedAssets survivor.assets loser.assets) := by
    have hput := hfirst.merges hsecond h.ne
    unfold Holdings.Merges at hput ⊢
    rw [hheld]
    exact hput
  exact .merged h.event huploads hmerges

theorem decideDuplicate_handles {candidateId : UUID} {decision : DuplicateDecision}
    {left right : Nat} {survivorId : Option UUID} {fieldSources : List (String × UUID)}
    (hcards : (db.cards.map Card.id).Nodup)
    (hevent : event = .decide candidateId decision left right survivorId fieldSources actor now)
    (h : decideDuplicate u db candidateId decision left right survivorId fieldSources actor now =
      .ok db') : Handling event (event.merge db) db.shelf db'.shelf := by
  have huploads := decideDuplicate_uploads h
  subst hevent
  rcases decideDuplicate_merge h with ⟨-, hsame⟩ | ⟨survivor, next, loser, merged, gone, hmerge⟩
  · have hkept : db'.shelf = db.shelf := by
      unfold Db.shelf
      rw [huploads, hsame.cards]
    rw [hkept]
    exact .kept
  · exact hmerge.handles hcards huploads

end Requests

/-! ## Transactions -/

/-- **A transaction handles the assets in one way, or keeps them.** -/
theorem step_handles {env : Env} {db db' : Db} {event : Event}
    (hi : db.shelf.Distinct MediaAsset.id) (hprocesses : event.processes = false)
    (h : step env db event = some db') :
    Handling event (event.merge db) db.shelf db'.shelf := by
  obtain ⟨hnew, hperform⟩ := step_eq_some h
  have hcards : (db.cards.map Card.id).Nodup := Db.shelf_owners db ▸ hi.owners
  have hfresh : ∀ id, event.newId = some id → db.card id = none := by
    intro id hid
    rw [← Option.not_isSome_iff_eq_none]
    exact fun hsome => hnew (Or.inl (by rw [hid]; exact hsome))
  have hkept : db'.shelf = db.shelf → Handling event (event.merge db) db.shelf db'.shelf := by
    intro hsame
    rw [hsame]
    exact .kept
  cases event with
  | createCategory id key name parentId description position =>
    simp only [perform] at hperform
    split at hperform
    · cases hperform
    · obtain ⟨-, hperform⟩ := seq_eq_ok.mp (toOption_eq_some.mp hperform)
      obtain ⟨-, hperform⟩ := seq_eq_ok.mp hperform
      obtain ⟨-, hperform⟩ := seq_eq_ok.mp hperform
      cases hperform
      exact hkept rfl
  | deactivateCategory id =>
    obtain ⟨_, -, hperform⟩ := bind_eq_ok.mp (toOption_eq_some.mp hperform)
    obtain ⟨-, hperform⟩ := seq_eq_ok.mp hperform
    cases hperform
    exact hkept rfl
  | createComponent id data images primary actor now =>
    exact create_handles hi (hfresh id rfl) (toOption_eq_some.mp hperform)
  | createDocument requestId id data actor now =>
    exact createDocument_handles hi (hfresh id rfl) (toOption_eq_some.mp hperform)
  | updateComponent id revision token data actor now =>
    obtain ⟨-, hperform⟩ := seq_eq_ok.mp (toOption_eq_some.mp hperform)
    exact hkept (update_shelf hcards hperform)
  | updateComponentImages id revision token images primary actor now =>
    exact updateComponentImages_handles hi (toOption_eq_some.mp hperform)
  | lifecycle id revision token action actor now =>
    obtain ⟨-, hperform⟩ := seq_eq_ok.mp (toOption_eq_some.mp hperform)
    exact hkept (lifecycle_shelf hcards hperform)
  | synchronize id token data images primary actor now later =>
    exact synchronize_handles hi List.mem_cons_self (toOption_eq_some.mp hperform)
  | command id token action actor now =>
    obtain ⟨-, hperform⟩ := seq_eq_ok.mp (toOption_eq_some.mp hperform)
    obtain ⟨_, -, hperform⟩ := bind_eq_ok.mp hperform
    exact hkept (lifecycle_shelf hcards hperform)
  | approveAndPublish id token actor now later =>
    obtain ⟨_, -, hperform⟩ := bind_eq_ok.mp (toOption_eq_some.mp hperform)
    obtain ⟨-, hperform⟩ := seq_eq_ok.mp hperform
    obtain ⟨db₁, happrove, hpublish⟩ := bind_eq_ok.mp hperform
    have hfirst := transition_shelf hcards happrove
    exact hkept ((transition_shelf (nodup_of_shelf hcards hfirst) hpublish).trans hfirst)
  | reserveUpload assetId request actor now =>
    exact reserveUpload_handles hcards List.mem_cons_self rfl (toOption_eq_some.mp hperform)
  | decide candidateId decision left right survivor fieldSources actor now =>
    exact decideDuplicate_handles hcards rfl (toOption_eq_some.mp hperform)
  | propose candidate =>
    cases hperform
    exact hkept rfl
  | persistDraft sourceId keys draft newId rowId actor now =>
    exact persistDraft_handles hi (hfresh newId rfl) (toOption_eq_some.mp hperform)
  | persistRepositoryDraft sourceId parsed draft newId rowId actor now =>
    exact persistRepositoryDraft_handles hi (hfresh newId rfl) (toOption_eq_some.mp hperform)
  | applyItem identity decision data images newId owner actor now later =>
    exact applyItem_handles hi (hfresh newId rfl) List.mem_cons_self rfl
      (toOption_eq_some.mp hperform)
  | reviewLicense id =>
    obtain ⟨card, hcard, hperform⟩ := bind_eq_ok.mp (toOption_eq_some.mp hperform)
    obtain ⟨-, hperform⟩ := seq_eq_ok.mp hperform
    cases hperform
    obtain rfl := Db.id_of_card (locked_eq_ok.mp hcard)
    exact hkept (shelf_put_same hcards (locked_eq_ok.mp hcard) rfl)
  | processMedia assetId result variants => cases hprocesses
  | administer source =>
    cases hperform
    exact hkept rfl

/-! ## Every asset -/

section Every

variable {event : Event} {merge : Option (UUID × UUID)} {s s' : Shelf} {assets : List MediaAsset}
  {β : Type} {w : MediaAsset → β}

/-- What no transaction of the catalog changes in an asset: `w` reads neither its texts nor its
place among the images. -/
def Lasting (w : MediaAsset → β) : Prop :=
  ∀ (asset : MediaAsset) (purpose altText : String) (caption : Option String) (displayOrder : Nat)
    (isPrimary : Bool),
    w { asset with purpose, altText, caption, displayOrder, isPrimary } = w asset

theorem lasting_id : Lasting MediaAsset.id := fun _ _ _ _ _ _ => rfl

theorem Lasting.mutated (hw : Lasting w) (images : List ImageMutation) (primary : Option UUID)
    (asset : MediaAsset) : w (asset.mutated images primary) = w asset := by
  unfold MediaAsset.mutated
  split
  · exact hw ..
  · rfl

theorem Lasting.attached (hw : Lasting w) (asset : MediaAsset) : w asset.attached = w asset := hw ..

/-- Items that are taken out and put back changed. -/
theorem filter_map_perm {p : MediaAsset → Prop} [DecidablePred p] {f : MediaAsset → MediaAsset}
    (hf : ∀ asset, w (f asset) = w asset) :
    ((assets.filter fun asset => ¬ p asset).map w ++ ((assets.filter p).map f).map w).Perm
      (assets.map w) := by
  have hsame : ((assets.filter p).map f).map w = (assets.filter p).map w := by
    rw [List.map_map]
    exact List.map_congr_left fun asset _ => hf asset
  have hsplit := List.filter_append_perm (fun asset => decide (p asset)) assets
  simp only [← decide_not] at hsplit
  rw [hsame, ← List.map_append]
  exact (List.perm_append_comm.trans hsplit).map _

/-- An edit of the images keeps an asset on its card or takes it off. -/
theorem arranged_perm (hw : Lasting w) (assets : List MediaAsset) (images : List ImageMutation)
    (primary : Option UUID) :
    ((releasedAssets images assets).map w ++ (arrangedAssets images primary assets).map w).Perm
      (assets.map w) := by
  have hreleased : (releasedAssets images assets).map w =
      (assets.filter fun asset => ¬ (asset.kind ≠ .image ∨
        asset.id ∈ images.map ImageMutation.assetId)).map w := by
    unfold releasedAssets
    have hsame : (assets.filter fun asset => asset.kind = .image ∧
          asset.id ∉ images.map ImageMutation.assetId) =
        assets.filter fun asset => ¬ (asset.kind ≠ .image ∨
          asset.id ∈ images.map ImageMutation.assetId) :=
      List.filter_congr fun asset _ => decide_eq_decide.mpr (by tauto)
    rw [List.map_map, hsame]
    exact List.map_congr_left fun asset _ => hw ..
  rw [hreleased]
  refine filter_map_perm fun asset => ?_
  split
  · exact hw.mutated ..
  · rfl

/-- What an edit takes off and keeps was on the card or is attached, and what is attached was
free. -/
theorem attached_perm (hw : Lasting w) (free assets : List MediaAsset) (ids : List UUID)
    (images : List ImageMutation) (primary : Option UUID) :
    let given := (free.filter fun asset => asset.id ∈ ids).map MediaAsset.attached
    ((free.filter (fun asset => asset.id ∉ ids) ++ releasedAssets images (assets ++ given) ++
      arrangedAssets images primary (assets ++ given)).map w).Perm ((free ++ assets).map w) := by
  intro given
  have hfree : ((free.filter fun asset => asset.id ∉ ids).map w ++ given.map w).Perm
      (free.map w) := filter_map_perm fun asset => hw.attached asset
  have hall : ((releasedAssets images (assets ++ given)).map w ++
      (arrangedAssets images primary (assets ++ given)).map w).Perm ((assets ++ given).map w) :=
    arranged_perm hw (assets ++ given) images primary
  simp only [List.map_append, List.append_assoc] at hall ⊢
  refine (hall.append_left _).trans ?_
  refine (List.perm_append_comm.append_left _).trans ?_
  rw [← List.append_assoc]
  exact hfree.append_right _

theorem ingestImages_ids {owner : UUID} {title : String} {now : Time} (images : List LegacyImage)
    (count bytes position : Nat) (shas : List String) :
    ((ingestImages owner title now count bytes position shas images).map MediaAsset.id).Sublist
      (images.map LegacyImage.assetId) := by
  induction images generalizing count bytes position shas with
  | nil => exact List.Sublist.refl _
  | cons image rest ih =>
    unfold ingestImages
    split
    · exact (ih ..).cons _
    · exact (ih ..).cons_cons _

theorem map_zipIdx_perm {f : MediaAsset × Nat → MediaAsset} (hf : ∀ p, w (f p) = w p.1) :
    (assets.zipIdx.map f).map w = assets.map w := by
  rw [List.map_map, ← List.zipIdx_map_fst 0 assets, List.map_map]
  rw [List.zipIdx_map_fst]
  exact List.map_congr_left fun p _ => hf p

/-- The images and the videos of a card are its assets. -/
theorem assetsOf_perm (assets : List MediaAsset) :
    (imagesOf assets ++ assetsOf .video assets).Perm assets := by
  have hvideos : assets.filter (fun asset => asset.kind = .video) =
      assets.filter fun asset => !decide (asset.kind = .image) := by
    refine List.filter_congr fun asset _ => ?_
    cases asset.kind <;> rfl
  have hsorted : (imagesOf assets ++ assetsOf .video assets).Perm
      (assets.filter (fun asset => asset.kind = .image) ++
        assets.filter fun asset => asset.kind = .video) :=
    (List.perm_insertionSort ..).append (List.perm_insertionSort ..)
  rw [hvideos] at hsorted
  exact hsorted.trans (List.filter_append_perm ..)

/-- **A merge moves every asset once.** -/
theorem mergedAssets_perm (hw : Lasting w) (survivor loser : List MediaAsset) :
    ((mergedAssets survivor loser).map w).Perm ((survivor ++ loser).map w) := by
  unfold mergedAssets
  rw [List.map_append, map_zipIdx_perm, map_zipIdx_perm, ← List.map_append]
  · refine List.Perm.map _ ?_
    have hswap : (imagesOf survivor ++ imagesOf loser ++ (assetsOf .video survivor ++
        assetsOf .video loser)).Perm (imagesOf survivor ++ assetsOf .video survivor ++
          (imagesOf loser ++ assetsOf .video loser)) := by
      rw [List.append_assoc, List.append_assoc]
      refine List.Perm.append_left _ ?_
      rw [← List.append_assoc, ← List.append_assoc]
      exact List.perm_append_comm.append_right _
    exact hswap.trans ((assetsOf_perm survivor).append (assetsOf_perm loser))
  · exact fun _ => hw ..
  · exact fun _ => hw ..

/-- `ck_media_declared_size`, as far as it is an upper bound. -/
def MediaAsset.sized (asset : MediaAsset) : Prop := asset.declaredSizeBytes ≤ asset.kind.maxBytes

instance (asset : MediaAsset) : Decidable asset.sized := inferInstanceAs (Decidable (_ ≤ _))

theorem ingestImages_sized {owner : UUID} {title : String} {now : Time}
    (images : List LegacyImage) (count bytes position : Nat) (shas : List String) :
    ∀ a ∈ ingestImages owner title now count bytes position shas images, a.sized := by
  induction images generalizing count bytes position shas with
  | nil => exact fun a ha => absurd ha List.not_mem_nil
  | cons image rest ih =>
    unfold ingestImages
    split
    · exact ih _ _ _ _
    · rename_i hroom
      refine List.forall_mem_cons.mpr ⟨?_, ih _ _ _ _⟩
      simp only [not_or, Nat.not_lt] at hroom
      exact hroom.2.2.2

/-- **Every asset after a transaction was there or is new**: none is lost, and none doubled. -/
theorem Handling.all_perm (h : Handling event merge s s') :
    ∃ new, (new.map MediaAsset.id).Sublist event.newAssets ∧ (∀ a ∈ new, a.sized) ∧
      ∀ {β : Type} (w : MediaAsset → β), Lasting w →
        (s'.all.map w).Perm ((s.all ++ new).map w) := by
  have hsame : (∀ {β : Type} (w : MediaAsset → β), Lasting w →
      (s'.all.map w).Perm ((s.all ++ []).map w)) →
      ∃ new, (new.map MediaAsset.id).Sublist event.newAssets ∧ (∀ a ∈ new, a.sized) ∧
        ∀ {β : Type} (w : MediaAsset → β), Lasting w →
          (s'.all.map w).Perm ((s.all ++ new).map w) :=
    fun hperm => ⟨[], List.nil_sublist _, fun a ha => absurd ha List.not_mem_nil, hperm⟩
  cases h with
  | kept => exact hsame fun w hw => by rw [List.append_nil]
  | drafted hnew hdistinct hstaged hkinds hprimary hfree hadds =>
    refine hsame fun w hw => hadds.all_perm ?_
    rw [hfree, List.append_nil, List.map_append]
    exact filter_map_perm fun asset => hw.mutated ..
  | arranged hgiven hkinds hroom hdistinct hrequested hprimary hfree hmoves =>
    refine hsame fun w hw => hmoves.all_perm ?_
    subst hgiven
    rw [hfree, List.append_nil]
    exact attached_perm hw ..
  | uploaded hnew hsize hprimary hfree hheld =>
    rename_i asset
    refine ⟨[asset], ?_, List.forall_mem_singleton.mpr hsize, fun w hw =>
      Holdings.grows_perm hheld hfree⟩
    rw [hnew]
    exact List.Sublist.refl _
  | reserved hnew hsize hnow hcount hbytes hprimary hfree hmoves =>
    rename_i id assets asset now
    refine ⟨[asset], ?_, List.forall_mem_singleton.mpr hsize, fun w hw => hmoves.all_perm ?_⟩
    · rw [hnew]
      exact List.Sublist.refl _
    · rw [hfree, List.append_assoc]
  | imported hfresh hnew hnow hfree hadds =>
    rename_i id owner title now images
    refine ⟨ingestedAssets owner title now images [], ?_, ingestImages_sized _ _ _ _ _,
      fun w hw => hadds.all_perm ?_⟩
    · rw [hnew]
      exact ingestImages_ids ..
    · rw [hfree]
      exact List.Perm.refl _
  | ingested hnew hnow hprimary hfree hmoves =>
    rename_i id owner title now images assets
    refine ⟨ingestedAssets owner title now images assets, ?_, ingestImages_sized _ _ _ _ _,
      fun w hw => hmoves.all_perm ?_⟩
    · rw [hnew]
      exact ingestImages_ids ..
    · rw [hfree, List.append_assoc]
      exact List.Perm.refl _
  | merged hmerge hfree hmerges =>
    refine hsame fun w hw => ?_
    rw [List.append_nil]
    exact hmerges.all_perm hfree (mergedAssets_perm hw ..)

theorem Handling.owners (h : Handling event merge s s') (hs : (s.held.map Prod.fst).Nodup) :
    (s'.held.map Prod.fst).Nodup := by
  cases h with
  | kept => exact hs
  | drafted hnew _ _ _ _ _ hadds => exact hadds.owners hs hnew
  | arranged _ _ _ _ _ _ _ hmoves => exact hmoves.owners hs
  | uploaded _ _ _ _ hheld => exact hheld ▸ hs
  | reserved _ _ _ _ _ _ _ hmoves => exact hmoves.owners hs
  | imported hnew _ _ _ hadds => exact hadds.owners hs hnew
  | ingested _ _ _ _ hmoves => exact hmoves.owners hs
  | merged _ _ hmerges => exact hmerges.owners hs

/-- **No asset is lost, doubled or given to two cards.** -/
theorem Handling.distinct (h : Handling event merge s s') (hi : s.Distinct MediaAsset.id)
    (hnodup : event.newAssets.Nodup)
    (hfresh : ∀ id ∈ event.newAssets, id ∉ s.all.map MediaAsset.id) :
    s'.Distinct MediaAsset.id := by
  obtain ⟨new, hids, -, hperm⟩ := h.all_perm
  exact hi.of_perm (h.owners hi.owners) (hperm _ lasting_id) (hids.nodup hnodup)
    fun a ha => hfresh _ (hids.mem (List.mem_map_of_mem ha))

end Every

end ComponentKb.Catalog
