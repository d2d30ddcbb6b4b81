import ComponentKb.Catalog.Shelf

/-!
# The media that the revisions of a merge list

`_merge_media` moves the images of the loser in memory only, and the session does not flush them
before a query: the revisions of a merge list what the stored rows still say, with the order and the
primary image of the moved rows.

* `imagesOf_mergedAssets`: the images of the survivor once they are flushed.
* `mediaBeforeFlush_survivor`, `mediaBeforeFlush_loser`: what the two revisions are made of.
* **`resolveDuplicatePair_manifest_iff`**: they list the moved images where they belong iff no image
  of the loser is ready.
-/

namespace ComponentKb.Catalog

open Lib

/-- The media that a revision lists for the assets of a card. -/
def manifest (assets : List MediaAsset) : List MediaSnapshot :=
  ((componentMedia assets).filter (·.status = .ready)).map ComponentMedia.toMediaSnapshot

/-! ## Places -/

section Places

variable {primary : Option UUID} {survivor loser : List MediaAsset}

/-- Images as a merge numbers them, from a position on. -/
def positioned (primary : Option UUID) (images : List MediaAsset) (start : Nat) : List MediaAsset :=
  (images.zipIdx start).map fun (asset, position) => { asset with
    displayOrder := position, isPrimary := primary = some asset.id }

theorem positioned_append (primary : Option UUID) (a b : List MediaAsset) (start : Nat) :
    positioned primary (a ++ b) start =
      positioned primary a start ++ positioned primary b (start + a.length) := by
  rw [positioned, List.zipIdx_append, List.map_append]
  rfl

@[simp] theorem positioned_ids (primary : Option UUID) (images : List MediaAsset) (start : Nat) :
    (positioned primary images start).map MediaAsset.id = images.map MediaAsset.id := by
  have hids : (positioned primary images start).map MediaAsset.id =
      ((images.zipIdx start).map Prod.fst).map MediaAsset.id := by
    rw [positioned, List.map_map, List.map_map]
    rfl
  rw [hids, List.zipIdx_map_fst]

/-- What holds of an image besides its place and whether it is the primary one. -/
theorem positioned_forall {p : MediaAsset → Prop} {images : List MediaAsset} {start : Nat}
    (hp : ∀ (asset : MediaAsset) position isPrimary,
      p { asset with displayOrder := position, isPrimary := isPrimary } ↔ p asset) :
    (∀ asset ∈ positioned primary images start, p asset) ↔ ∀ asset ∈ images, p asset := by
  constructor
  · intro h asset hmem
    obtain ⟨i, hi, rfl⟩ := List.mem_iff_getElem.mp hmem
    have hplaced := h _ (List.mem_map.mpr ⟨(images[i], start + i), ?_, rfl⟩)
    · exact (hp ..).mp hplaced
    · rw [List.mk_mem_zipIdx_iff_le_and_getElem?_sub]
      simp [hi]
  · intro h asset hmem
    obtain ⟨⟨old, position⟩, hold, rfl⟩ := List.mem_map.mp hmem
    exact (hp ..).mpr (h old (List.fst_mem_of_mem_zipIdx hold))

/-- The images of the survivor, as a merge places them. -/
def keptImages (survivor loser : List MediaAsset) : List MediaAsset :=
  positioned (mergedPrimary survivor (imagesOf survivor ++ imagesOf loser)) (imagesOf survivor) 0

/-- The images of the loser, as a merge places them. -/
def movedImages (survivor loser : List MediaAsset) : List MediaAsset :=
  positioned (mergedPrimary survivor (imagesOf survivor ++ imagesOf loser)) (imagesOf loser)
    (imagesOf survivor).length

theorem positioned_kind {kind : Media.MediaKind} {assets : List MediaAsset} {start : Nat} :
    ∀ asset ∈ positioned primary (assetsOf kind assets) start, asset.kind = kind := by
  refine (positioned_forall fun _ _ _ => Iff.rfl).mpr fun asset hmem => ?_
  unfold assetsOf at hmem
  rw [List.mem_insertionSort, List.mem_filter] at hmem
  exact of_decide_eq_true hmem.2

theorem mergedAssets_eq (survivor loser : List MediaAsset) :
    ∃ videos, mergedAssets survivor loser =
        keptImages survivor loser ++ movedImages survivor loser ++ videos ∧
      ∀ asset ∈ videos, asset.kind = .video := by
  refine ⟨(assetsOf .video survivor ++ assetsOf .video loser).zipIdx.map fun (asset, position) =>
    { asset with displayOrder := position, isPrimary := false }, ?_, ?_⟩
  · have himages : keptImages survivor loser ++ movedImages survivor loser =
        positioned (mergedPrimary survivor (imagesOf survivor ++ imagesOf loser))
          (imagesOf survivor ++ imagesOf loser) 0 := by
      rw [positioned_append, Nat.zero_add]
      rfl
    rw [himages]
    rfl
  · intro asset hmem
    obtain ⟨⟨old, position⟩, hold, rfl⟩ := List.mem_map.mp hmem
    have hvideo : ∀ assets, old ∈ assetsOf .video assets → old.kind = .video := by
      intro assets h
      unfold assetsOf at h
      rw [List.mem_insertionSort, List.mem_filter] at h
      exact of_decide_eq_true h.2
    rcases List.mem_append.mp (List.fst_mem_of_mem_zipIdx hold) with h | h
    · exact hvideo survivor h
    · exact hvideo loser h

theorem positioned_sorted (images : List MediaAsset) (start : Nat) :
    (positioned primary images start).Pairwise MediaAsset.before := by
  have hsnd : ((images.zipIdx start).map Prod.snd).Pairwise (· < ·) := by
    rw [List.zipIdx_map_snd]
    exact List.pairwise_lt_range'
  rw [List.pairwise_map] at hsnd
  rw [positioned, List.pairwise_map]
  exact hsnd.imp fun h => Or.inl h

/-- **The images of the survivor once they are flushed**: its own, and those of the loser. -/
theorem imagesOf_mergedAssets (survivor loser : List MediaAsset) :
    imagesOf (mergedAssets survivor loser) =
      keptImages survivor loser ++ movedImages survivor loser := by
  obtain ⟨videos, hmerged, hvideos⟩ := mergedAssets_eq survivor loser
  have himages : (keptImages survivor loser ++ movedImages survivor loser).filter
      (fun asset => asset.kind = .image) =
        keptImages survivor loser ++ movedImages survivor loser := by
    refine List.filter_eq_self.mpr fun asset hmem => decide_eq_true ?_
    rcases List.mem_append.mp hmem with h | h
    · exact positioned_kind asset h
    · exact positioned_kind asset h
  have hnone : videos.filter (fun asset => asset.kind = .image) = [] := by
    refine List.filter_eq_nil_iff.mpr fun asset hmem => ?_
    rw [hvideos asset hmem]
    decide
  have hsorted : (keptImages survivor loser ++ movedImages survivor loser).Pairwise
      MediaAsset.before := by
    have hpositioned := @positioned_sorted (mergedPrimary survivor
      (imagesOf survivor ++ imagesOf loser)) (imagesOf survivor ++ imagesOf loser) 0
    rwa [positioned_append, Nat.zero_add] at hpositioned
  rw [imagesOf, assetsOf, hmerged, List.filter_append, himages, hnone, List.append_nil]
  exact List.Pairwise.insertionSort_eq hsorted

/-! ## Before the flush -/

/-- What a query finds of images whose stored rows are given. -/
theorem mediaBeforeFlush_eq {stored merged images : List MediaAsset}
    (hmerged : (merged.map MediaAsset.id).Nodup) (hsub : ∀ asset ∈ images, asset ∈ merged)
    (hids : images.map MediaAsset.id = (imagesOf stored).map MediaAsset.id) :
    mediaBeforeFlush stored merged = images.map MediaAsset.media := by
  have hfound : ∀ images : List MediaAsset, (∀ asset ∈ images, asset ∈ merged) →
      (images.map MediaAsset.id).filterMap (fun id =>
        (lookup MediaAsset.id merged id).map MediaAsset.media) = images.map MediaAsset.media := by
    intro images hsub
    rw [List.filterMap_map, ← List.filterMap_eq_map]
    refine List.filterMap_congr fun asset hmem => ?_
    rw [Function.comp_apply, lookup_of_mem hmerged (hsub asset hmem)]
    rfl
  rw [mediaBeforeFlush, ← hfound images hsub, hids, List.filterMap_map]
  rfl

variable {db db' : Db}

/-- The ids of the assets that a merge brings together. -/
theorem mergedAssets_nodup {survivor loser : List MediaAsset}
    (h : ((survivor ++ loser).map MediaAsset.id).Nodup) :
    ((mergedAssets survivor loser).map MediaAsset.id).Nodup :=
  (mergedAssets_perm lasting_id survivor loser).nodup_iff.mpr h

/-- The revision of the survivor is made of its own images only. -/
theorem mediaBeforeFlush_survivor (h : ((survivor ++ loser).map MediaAsset.id).Nodup) :
    mediaBeforeFlush survivor (mergedAssets survivor loser) =
      (keptImages survivor loser).map MediaAsset.media := by
  obtain ⟨videos, hmerged, -⟩ := mergedAssets_eq survivor loser
  refine mediaBeforeFlush_eq (mergedAssets_nodup h) (fun asset hmem => ?_) (positioned_ids ..)
  rw [hmerged]
  exact List.mem_append_left _ (List.mem_append_left _ hmem)

/-- The revision of the loser is made of the images that have gone to the survivor. -/
theorem mediaBeforeFlush_loser (h : ((survivor ++ loser).map MediaAsset.id).Nodup) :
    mediaBeforeFlush loser (mergedAssets survivor loser) =
      (movedImages survivor loser).map MediaAsset.media := by
  obtain ⟨videos, hmerged, -⟩ := mergedAssets_eq survivor loser
  refine mediaBeforeFlush_eq (mergedAssets_nodup h) (fun asset hmem => ?_) (positioned_ids ..)
  rw [hmerged]
  exact List.mem_append_left _ (List.mem_append_right _ hmem)

end Places

/-! ## The revisions -/

/-- The revisions of a merge list the media where they belong: the newest one of the survivor those
of its assets, the newest one of the loser none of the assets it had. -/
structure ManifestsMerged (db' : Db) (survivorId loserId : UUID) (moved : List MediaAsset) :
    Prop where
  survivor : ∃ card revision, db'.card survivorId = some card ∧
    card.revisions.getLast? = some revision ∧ revision.content.media = manifest card.assets
  loser : ∃ card revision, db'.card loserId = some card ∧
    card.revisions.getLast? = some revision ∧
      ∀ item ∈ revision.content.media, item.assetId ∉ moved.map MediaAsset.id

/-- The media that a revision lists for images that a query finds. -/
def readyMedia (images : List MediaAsset) : List MediaSnapshot :=
  ((images.map MediaAsset.media).filter (·.status = .ready)).map ComponentMedia.toMediaSnapshot

theorem readyMedia_append (a b : List MediaAsset) :
    readyMedia (a ++ b) = readyMedia a ++ readyMedia b := by
  simp only [readyMedia, List.map_append, List.filter_append]

theorem readyMedia_eq_nil {images : List MediaAsset} :
    readyMedia images = [] ↔ ∀ image ∈ images, image.status ≠ .ready := by
  rw [readyMedia, List.map_eq_nil_iff, List.filter_eq_nil_iff, List.forall_mem_map]
  simp only [decide_eq_true_eq]
  rfl

theorem mem_readyMedia {images : List MediaAsset} {item : MediaSnapshot}
    (h : item ∈ readyMedia images) : item.assetId ∈ images.map MediaAsset.id := by
  obtain ⟨media, hmedia, rfl⟩ := List.mem_map.mp h
  obtain ⟨image, himage, rfl⟩ := List.mem_map.mp (List.mem_of_mem_filter hmedia)
  exact List.mem_map_of_mem himage

section Revisions

variable {survivor loser : List MediaAsset}

/-- The survivor lists its assets iff no image of the loser is ready. -/
theorem survivor_manifest_iff (h : ((survivor ++ loser).map MediaAsset.id).Nodup) :
    ((mediaBeforeFlush survivor (mergedAssets survivor loser)).filter (·.status = .ready)).map
        ComponentMedia.toMediaSnapshot = manifest (mergedAssets survivor loser) ↔
      readyMedia (movedImages survivor loser) = [] := by
  have hkept : readyMedia (keptImages survivor loser) = readyMedia (keptImages survivor loser) ++
      readyMedia (movedImages survivor loser) ↔ readyMedia (movedImages survivor loser) = [] := by
    constructor
    · intro heq
      exact List.append_cancel_left (heq.symm.trans (List.append_nil _).symm)
    · intro hnil
      rw [hnil, List.append_nil]
  have hmanifest : manifest (mergedAssets survivor loser) =
      readyMedia (keptImages survivor loser) ++ readyMedia (movedImages survivor loser) := by
    rw [← readyMedia_append, ← imagesOf_mergedAssets]
    rfl
  rw [mediaBeforeFlush_survivor h, hmanifest]
  exact hkept

/-- The loser lists no asset that it had iff none of its images is ready. -/
theorem loser_manifest_iff (h : ((survivor ++ loser).map MediaAsset.id).Nodup) :
    (∀ item ∈ ((mediaBeforeFlush loser (mergedAssets survivor loser)).filter
        (·.status = .ready)).map ComponentMedia.toMediaSnapshot,
          item.assetId ∉ loser.map MediaAsset.id) ↔
      readyMedia (movedImages survivor loser) = [] := by
  have hmoved : ((mediaBeforeFlush loser (mergedAssets survivor loser)).filter
      (·.status = .ready)).map ComponentMedia.toMediaSnapshot =
        readyMedia (movedImages survivor loser) := by
    rw [mediaBeforeFlush_loser h]
    rfl
  rw [hmoved]
  constructor
  · intro hno
    refine List.eq_nil_iff_forall_not_mem.mpr fun item hitem => hno item hitem ?_
    have hid := mem_readyMedia hitem
    rw [movedImages, positioned_ids] at hid
    obtain ⟨image, himage, heq⟩ := List.mem_map.mp hid
    exact heq ▸ List.mem_map_of_mem (mem_imagesOf.mp himage).1
  · intro hnil item hitem
    rw [hnil] at hitem
    cases hitem

theorem movedImages_ready : readyMedia (movedImages survivor loser) = [] ↔
    ∀ image ∈ loser, image.kind = .image → image.status ≠ .ready := by
  rw [readyMedia_eq_nil, movedImages, positioned_forall fun _ _ _ => Iff.rfl]
  simp only [mem_imagesOf, and_imp]

end Revisions

/-- **When the revisions of a merge list the merged media.** The images of the loser are moved
before the revisions are made and flushed after that, so none of them may be ready. -/
theorem resolveDuplicatePair_manifest_iff {u : Unicode} {db db' : Db}
    {leftId rightId survivorId actor : UUID} {leftRevision rightRevision : Nat} {now : Time}
    {fieldSources : List (String × UUID)} {merge : Bool} (hkeys : db.shelf.Distinct MediaAsset.id)
    (h : resolveDuplicatePair u db leftId rightId leftRevision rightRevision survivorId
      fieldSources actor now merge = .ok db') :
    ∃ loserId loser,
      (survivorId = leftId ∧ loserId = rightId ∨ survivorId = rightId ∧ loserId = leftId) ∧
        db.card loserId = some loser ∧
        (ManifestsMerged db' survivorId loserId loser.assets ↔
          ∀ image ∈ loser.assets, image.kind = .image → image.status ≠ .ready) := by
  obtain ⟨loserId, survivor, next, loser, data, tags, definitions, merged, hids, hmerging, hmerged,
    rfl⟩ := resolveDuplicatePair_spec h
  refine ⟨loserId, loser, hids, hmerging.foundLoser, ?_⟩
  have hnodup : ((survivor.assets ++ loser.assets).map MediaAsset.id).Nodup :=
    hkeys.held_pair (shelf_mem hmerging.found) (shelf_mem hmerging.foundLoser) hmerging.ne
  obtain ⟨row, details, hnext⟩ := hmerging.details
  have hassets : next.assets = survivor.assets := by rw [hnext]
  have hmergedId : merged.id = survivorId := by
    have hid : merged.id = next.id := by
      rw [hmerged]
      rfl
    have hnextId : next.id = survivor.id := by
      change next.row.id = survivor.row.id
      obtain ⟨columns, hrow | hrow⟩ := hmerging.row
      · rw [hrow]
      · rw [hrow]
        rfl
    rw [hid, hnextId]
    exact Db.id_of_card hmerging.found
  have hmergedAssets : merged.assets = mergedAssets survivor.assets loser.assets := by
    rw [hmerged, ← hassets]
    rfl
  generalize htables : ({ db with tags := tags, definitions := definitions } : Db) = db₁ at *
  have hcards : ∀ id, db₁.card id = db.card id := fun id => by
    rw [← htables]
    rfl
  generalize hgone : loser.mergedAway u db₁ merged.assets actor now = gone at *
  have hgoneId : gone.id = loserId := by
    have hid : gone.id = loser.id := by
      rw [← hgone]
      rfl
    rw [hid]
    exact Db.id_of_card hmerging.foundLoser
  -- the two cards as they are found afterwards, and their newest revisions
  have hfirst : (db₁.put merged).card survivorId = some merged := by
    rw [← hmergedId]
    exact Db.put_card_self merged (by rw [hcards, hmergedId]; exact hmerging.found)
  have hsurvivor : ((db₁.put merged).put gone).card survivorId = some merged := by
    rw [Db.put_card_ne (by rw [hgoneId]; exact hmerging.ne.symm)]
    exact hfirst
  have hloser : ((db₁.put merged).put gone).card loserId = some gone := by
    have hfound : (db₁.put merged).card gone.id = some loser := by
      rw [hgoneId, Db.put_card_ne (by rw [hmergedId]; exact hmerging.ne), hcards]
      exact hmerging.foundLoser
    rw [← hgoneId]
    exact Db.put_card_self gone hfound
  have hsurvivorLast : ∃ revision, merged.revisions.getLast? = some revision ∧
      revision.content.media = ((mediaBeforeFlush survivor.assets
        (mergedAssets survivor.assets loser.assets)).filter (·.status = .ready)).map
          ComponentMedia.toMediaSnapshot := by
    rw [hmerged, ← hassets]
    exact ⟨_, List.getLast?_concat .., rfl⟩
  have hloserLast : ∃ revision, gone.revisions.getLast? = some revision ∧
      revision.content.media = ((mediaBeforeFlush loser.assets
        (mergedAssets survivor.assets loser.assets)).filter (·.status = .ready)).map
          ComponentMedia.toMediaSnapshot := by
    rw [← hgone, hmergedAssets]
    exact ⟨_, List.getLast?_concat .., rfl⟩
  obtain ⟨revision, hrevision, hmedia⟩ := hsurvivorLast
  obtain ⟨goneRevision, hgoneRevision, hgoneMedia⟩ := hloserLast
  rw [← movedImages_ready]
  constructor
  · intro hlists
    obtain ⟨card, found, hcard, hfound, hmanifest⟩ := hlists.survivor
    obtain rfl := Option.some.inj (hsurvivor.symm.trans hcard)
    obtain rfl := Option.some.inj (hrevision.symm.trans hfound)
    rw [hmedia, hmergedAssets] at hmanifest
    exact (survivor_manifest_iff hnodup).mp hmanifest
  · intro hnone
    refine ⟨⟨merged, revision, hsurvivor, hrevision, ?_⟩, ⟨gone, goneRevision, hloser,
      hgoneRevision, ?_⟩⟩
    · rw [hmedia, hmergedAssets]
      exact (survivor_manifest_iff hnodup).mpr hnone
    · rw [hgoneMedia]
      exact (loser_manifest_iff hnodup).mpr hnone

/-- A card without images is merged into the one that has them. -/
theorem resolveDuplicatePair_manifest_iff_bare :
    ∃ db ∈ run (step plainEnv) plainDb ((publishing true).take 2),
      ∃ db' ∈ (resolveDuplicatePair plainUnicode db 10 11 1 1 10 [] 7 3 true).toOption,
        ManifestsMerged db' 10 11 [] := by
  have hrun : ∃ db ∈ run (step plainEnv) plainDb ((publishing true).take 2),
      ∃ db' ∈ (resolveDuplicatePair plainUnicode db 10 11 1 1 10 [] 7 3 true).toOption,
        (db.shelf.held.map Prod.fst).Nodup ∧ (db.shelf.all.map MediaAsset.id).Nodup ∧
          (db.card 11).map Card.assets = some [] := by
    decide +kernel
  obtain ⟨db, hdb, db', hdb', howners, hitems, hbare⟩ := hrun
  refine ⟨db, hdb, db', hdb', ?_⟩
  obtain ⟨loserId, loser, hids, hloser, hiff⟩ :=
    resolveDuplicatePair_manifest_iff ⟨howners, hitems⟩ (toOption_eq_some.mp hdb')
  obtain ⟨-, rfl⟩ | ⟨hno, -⟩ := hids
  · rw [hloser] at hbare
    have hassets : loser.assets = [] := Option.some.inj hbare
    rw [hassets] at hiff
    exact hiff.mpr fun image himage => absurd himage List.not_mem_nil
  · exact absurd hno (by decide)

/-- The card with the images is merged into the other one: its own revision lists the image that is
moved. -/
theorem manifest_stale :
    ∃ db ∈ run (step plainEnv) plainDb ((publishing true).take 2),
      ∃ db' ∈ (resolveDuplicatePair plainUnicode db 10 11 1 1 11 [] 7 3 true).toOption,
        ∃ loser ∈ db.card 10, ¬ ManifestsMerged db' 11 10 loser.assets := by
  have hrun : ∃ db ∈ run (step plainEnv) plainDb ((publishing true).take 2),
      ∃ db' ∈ (resolveDuplicatePair plainUnicode db 10 11 1 1 11 [] 7 3 true).toOption,
        ∃ loser ∈ db.card 10, loser.assets.map MediaAsset.id = [20] ∧
          ((db'.card 10).bind fun card => card.revisions.getLast?).map
            (fun revision => revision.content.media.map (·.assetId)) = some [20] := by
    decide +kernel
  obtain ⟨db, hdb, db', hdb', loser, hloser, hids, hlisted⟩ := hrun
  refine ⟨db, hdb, db', hdb', loser, hloser, fun hlists => ?_⟩
  obtain ⟨card, revision, hcard, hrevision, hno⟩ := hlists.loser
  rw [hcard, Option.bind_some, hrevision] at hlisted
  have hmem : 20 ∈ revision.content.media.map (·.assetId) := by
    have hall : revision.content.media.map (·.assetId) = [20] := Option.some.inj hlisted
    rw [hall]
    exact List.mem_cons_self
  obtain ⟨item, hitem, hid⟩ := List.mem_map.mp hmem
  exact hno item hitem (by rw [hid, hids]; exact List.mem_cons_self)

end ComponentKb.Catalog
