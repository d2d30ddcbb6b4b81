import ComponentKb.Catalog.Visibility

/-!
# What is published

A transition to `published` checks the card (`_validate_publication`). Showing a hidden card and
restoring one that was archived while published write a published revision of the card as it is.

* `Fit`: a card as its publication left it; `snapshot_complete`: its revisions are complete.
* `Kept`: what every transaction keeps of a published, hidden or archived card. A merge empties the
  card it archives.
* `published_complete_iff`: every published revision is complete exactly when no card that a merge
  emptied is shown, or restored to `published`, before it is published anew.
* `restored_empty`: such a restoration.
-/

namespace ComponentKb.Catalog

open ComponentKb.Lib

/-! ## Complete revisions -/

/-- Where a card comes from: from its author, from a source that may be published, or from a legacy
item. -/
def Card.hasProvenance (registry : List Source) (card : Card) : Prop :=
  card.row.manualOriginal = true ∨
    (∃ row ∈ componentSourceRows registry card.sources, validatePublishSource row = .ok ()) ∨
      card.legacy ≠ []

instance (registry : List Source) (card : Card) : Decidable (card.hasProvenance registry) :=
  inferInstanceAs (Decidable (_ ∨ _ ∨ _))

/-- What a published snapshot has to contain. -/
structure Content.Complete (content : Content) : Prop where
  title : 2 ≤ (strip content.title).length
  summary : 20 ≤ (strip content.summary).length
  description : isBlank content.description = false
  media : content.media ≠ []
  primary : (content.media.filter (·.isPrimary)).length = 1

instance (content : Content) : Decidable content.Complete :=
  decidable_of_iff
    (2 ≤ (strip content.title).length ∧ 20 ≤ (strip content.summary).length ∧
      isBlank content.description = false ∧ content.media ≠ [] ∧
        (content.media.filter (·.isPrimary)).length = 1)
    ⟨fun ⟨h₁, h₂, h₃, h₄, h₅⟩ => ⟨h₁, h₂, h₃, h₄, h₅⟩,
      fun ⟨h₁, h₂, h₃, h₄, h₅⟩ => ⟨h₁, h₂, h₃, h₄, h₅⟩⟩

/-- A revision that the card has now and had not before. -/
def Written (db : Db) (card' : Card) (r : ComponentRevision) : Prop :=
  r ∈ card'.revisions ∧ ∀ card ∈ db.cards, card.id = card'.id → r ∉ card.revisions

/-- Every published revision that a transaction writes is complete, and its card has a
provenance. -/
def PublishesComplete (db : Db) (_event : Event) (db' : Db) : Prop :=
  ∀ card' ∈ db'.cards, ∀ r, Written db card' r → r.status = .published →
    r.content.Complete ∧ card'.hasProvenance db'.sources

instance (db db' : Db) (event : Event) : Decidable (PublishesComplete db event db') :=
  decidable_of_iff
    (∀ card' ∈ db'.cards, ∀ r ∈ card'.revisions,
      (∀ card ∈ db.cards, card.id = card'.id → r ∉ card.revisions) → r.status = .published →
        r.content.Complete ∧ card'.hasProvenance db'.sources)
    ⟨fun h card' hcard' r hr => h card' hcard' r hr.1 hr.2,
      fun h card' hcard' r hr hnew => h card' hcard' r ⟨hr, hnew⟩⟩

/-- The card has the content, the images and the provenance that publication asks for. -/
structure Fit (registry : List Source) (card : Card) : Prop where
  content : validateReviewContent card.row = .ok ()
  images : validatePublishMedia card.assets = .ok ()
  provenance : card.hasProvenance registry

section Snapshots

variable {u : Unicode} {db : Db} {card : Card} {actor : UUID} {now : Time}
  {action : ComponentChangeAction} {previous : Option ComponentStatus}

theorem validatePublishMedia_eq_ok {assets : List MediaAsset} :
    validatePublishMedia assets = .ok () ↔ imagesOf assets ≠ [] ∧
      (∀ image ∈ imagesOf assets, image.status = .ready) ∧
        ((imagesOf assets).filter (·.isPrimary)).length = 1 := by
  unfold validatePublishMedia
  simp only [seq_eq_ok, require_eq_ok]

/-- A card that passes `_validate_publication` is fit. -/
theorem validatePublication_fit (h : validatePublication db card = .ok ()) :
    Fit db.sources card := by
  obtain ⟨hcontent, h⟩ := seq_eq_ok.mp h
  obtain ⟨-, h⟩ := seq_eq_ok.mp h
  obtain ⟨horigin, h⟩ := seq_eq_ok.mp h
  obtain ⟨-, h⟩ := seq_eq_ok.mp h
  obtain ⟨hsources, hmedia⟩ := seq_eq_ok.mp h
  refine ⟨hcontent, hmedia, ?_⟩
  by_cases hmanual : card.row.manualOriginal = true
  · exact Or.inl hmanual
  rcases require_eq_ok.mp horigin with hyes | hrows | hlegacy
  · exact absurd hyes hmanual
  · obtain ⟨row, hrow⟩ := List.exists_mem_of_ne_nil _ hrows
    have hall := each_eq_ok.mp (ite_check_eq_ok.mp hsources ⟨hmanual, hrows⟩)
    exact Or.inr (Or.inl ⟨row, hrow, hall row hrow⟩)
  · exact Or.inr (Or.inr hlegacy)

/-- The manifest of a card whose images are all ready lists them all. -/
theorem manifest_of_ready {assets : List MediaAsset}
    (h : ∀ image ∈ imagesOf assets, image.status = .ready) :
    ((componentMedia assets).filter (·.status = .ready)).map ComponentMedia.toMediaSnapshot =
      (imagesOf assets).map fun image => image.media.toMediaSnapshot := by
  have hall : (componentMedia assets).filter (·.status = .ready) = componentMedia assets := by
    refine List.filter_eq_self.mpr fun media hmedia => ?_
    obtain ⟨image, himage, rfl⟩ := List.mem_map.mp hmedia
    exact decide_eq_true (h image himage)
  rw [hall, componentMedia, List.map_map]
  rfl

/-- **The revisions of a fit card are complete.** -/
theorem snapshot_complete (h : Fit db.sources card) :
    (card.snapshot u db (readData u db card) actor now action previous).content.Complete := by
  obtain ⟨himages, hready, hprimary⟩ := validatePublishMedia_eq_ok.mp h.images
  have hmedia : (card.snapshot u db (readData u db card) actor now action previous).content.media =
      (imagesOf card.assets).map fun image => image.media.toMediaSnapshot :=
    manifest_of_ready hready
  obtain ⟨htitle, hsummary, hdescription⟩ := require_eq_ok.mp h.content
  refine ⟨htitle, hsummary, Bool.eq_false_of_not_eq_true hdescription, ?_, ?_⟩
  · rw [hmedia]
    simpa using himages
  · rw [hmedia, List.filter_map, List.length_map]
    exact hprimary

/-- A card without images has an empty manifest. -/
theorem snapshot_incomplete (h : imagesOf card.assets = []) :
    ¬ (card.snapshot u db (readData u db card) actor now action previous).content.Complete := by
  intro hcomplete
  refine hcomplete.media ?_
  change ((componentMedia card.assets).filter (·.status = .ready)).map _ = []
  rw [componentMedia, h]
  rfl

end Snapshots

/-! ## Emptied cards -/

/-- A revision that says whether the card was emptied. -/
def ComponentRevision.settles (r : ComponentRevision) : Bool :=
  r.action = .published ∨ r.action = .archivedByMerge

/-- A merge archived the card after it was last published. -/
def Card.emptied (card : Card) : Bool :=
  (card.revisions.reverse.find? ComponentRevision.settles).any (·.action = .archivedByMerge)

section Emptied

variable {card card' : Card} {r : ComponentRevision}

theorem emptied_of_same (h : card'.revisions = card.revisions) : card'.emptied = card.emptied := by
  unfold Card.emptied
  rw [h]

theorem emptied_of_other (h : card'.revisions = card.revisions ++ [r]) (hr : r.settles = false) :
    card'.emptied = card.emptied := by
  unfold Card.emptied
  rw [h, List.reverse_append, List.reverse_singleton, List.singleton_append,
    List.find?_cons_of_neg (by rw [hr]; exact Bool.false_ne_true)]

theorem emptied_of_published (h : card'.revisions = card.revisions ++ [r])
    (hr : r.action = .published) : card'.emptied = false := by
  unfold Card.emptied
  rw [h, List.reverse_append, List.reverse_singleton, List.singleton_append,
    List.find?_cons_of_pos (by simp [ComponentRevision.settles, hr]), Option.any_some, hr]
  rfl

theorem emptied_of_merge (h : card'.revisions = card.revisions ++ [r])
    (hr : r.action = .archivedByMerge) : card'.emptied = true := by
  unfold Card.emptied
  rw [h, List.reverse_append, List.reverse_singleton, List.singleton_append,
    List.find?_cons_of_pos (by simp [ComponentRevision.settles, hr]), Option.any_some, hr]
  rfl

end Emptied

/-! ## The invariant -/

/-- The card is public or hidden, or was when it was archived. -/
def Card.wasPublic (card : Card) : Prop :=
  card.row.former = .published ∨ card.row.former = .hidden

/-- A card that was public is as its publication left it, or was emptied by a merge. -/
structure Kept (registry : List Source) (card : Card) : Prop where
  fit : card.wasPublic → card.emptied = false → Fit registry card
  empty : card.wasPublic → card.emptied = true → imagesOf card.assets = []

section Kept

variable {u : Unicode} {db : Db} {registry : List Source} {card card' : Card} {actor : UUID}
  {now : Time}

theorem Fit.of_same (h : Fit registry card)
    (hcolumns : card'.row.toColumns = card.row.toColumns) (hassets : card'.assets = card.assets)
    (hsources : card'.sources = card.sources) (hlegacy : card'.legacy = card.legacy) :
    Fit registry card' := by
  obtain ⟨hcontent, himages, hprovenance⟩ := h
  unfold validateReviewContent at hcontent
  unfold Card.hasProvenance at hprovenance
  rw [← hcolumns, ← hsources, ← hlegacy] at hprovenance
  rw [← hcolumns] at hcontent
  rw [← hassets] at himages
  exact ⟨hcontent, himages, hprovenance⟩

theorem kept_of_working (h : ¬ card.wasPublic) : Kept registry card :=
  ⟨fun hyes => absurd hyes h, fun hyes => absurd hyes h⟩

theorem not_wasPublic_of_draft (h : card.row.former = .draft) : ¬ card.wasPublic := by
  rintro (hno | hno)
  · rw [h] at hno
    cases hno
  · rw [h] at hno
    cases hno

/-- The card is as it was, and so is what it would come back to. -/
theorem Kept.of_same (h : Kept registry card) (hpublic : card'.wasPublic → card.wasPublic)
    (hemptied : card'.emptied = card.emptied)
    (hcolumns : card'.row.toColumns = card.row.toColumns) (hassets : card'.assets = card.assets)
    (hsources : card'.sources = card.sources) (hlegacy : card'.legacy = card.legacy) :
    Kept registry card' := by
  refine ⟨fun hyes hno => ?_, fun hyes hno => ?_⟩
  · rw [hemptied] at hno
    exact (h.fit (hpublic hyes) hno).of_same hcolumns hassets hsources hlegacy
  · rw [hemptied] at hno
    rw [hassets]
    exact h.empty (hpublic hyes) hno

/-- The status a card that is not archived would come back to is the one it has. -/
theorem former_of_status {categories : List Category} (hok : CardOk categories card)
    (h : card.row.status ≠ .archived) : card.row.former = card.row.status := by
  rw [Component.former, hok.archived h]
  rfl

theorem moved_kept {categories : List Category} {target : ComponentStatus}
    {action : ComponentChangeAction} (hok : CardOk categories card) (hkept : Kept db.sources card)
    (hsource : card.row.status ∈ lifecycleTransitionSources target)
    (haction : lifecycleTransitionAction target = some action)
    (hvalid : validateTarget db card target = .ok ()) :
    Kept db.sources (card.moved u db target action actor now) := by
  cases htarget : target with
  | draft | inReview | changesRequested | approved =>
    refine kept_of_working ?_
    rintro (hno | hno) <;> cases hno
  | published =>
    subst htarget
    cases haction
    have hfit : Fit db.sources card := validatePublication_fit hvalid
    have hemptied : (card.moved u db .published .published actor now).emptied = false :=
      emptied_of_published rfl rfl
    refine ⟨fun _ _ => hfit.of_same rfl rfl rfl rfl, fun _ hno => ?_⟩
    rw [hemptied] at hno
    cases hno
  | hidden =>
    subst htarget
    cases haction
    have hpublished : card.row.status = .published := List.mem_singleton.mp hsource
    refine hkept.of_same (fun _ => Or.inl ?_) (emptied_of_other rfl rfl) rfl rfl rfl rfl
    rw [former_of_status hok (by rw [hpublished]; decide)]
    exact hpublished
  | archived =>
    subst htarget
    cases haction
    have hne := (lifecycleTransitionSources_archived _).mp hsource
    refine hkept.of_same (fun hyes => ?_) (emptied_of_other rfl rfl) rfl rfl rfl rfl
    unfold Card.wasPublic
    rw [former_of_status hok hne]
    exact hyes

theorem shown_kept {categories : List Category} {publishedAt : Time} (hok : CardOk categories card)
    (hkept : Kept registry card) (hhidden : card.row.status = .hidden) :
    Kept registry (card.shown u db publishedAt actor now) := by
  refine hkept.of_same (fun _ => Or.inr ?_) (emptied_of_other rfl rfl) rfl rfl rfl rfl
  rw [former_of_status hok (by rw [hhidden]; decide)]
  exact hhidden

theorem restored_kept {target : ComponentStatus} (hkept : Kept registry card)
    (hfrom : card.row.archivedFromStatus = some target) :
    Kept registry (card.restored u db target actor now) := by
  refine hkept.of_same (fun hyes => ?_) (emptied_of_other rfl rfl) rfl rfl rfl rfl
  unfold Card.wasPublic Component.former
  rw [hfrom]
  exact hyes

/-- The card that a merge archives is emptied. -/
theorem mergedAway_kept {assets : List MediaAsset} :
    (card.mergedAway u db assets actor now).emptied = true ∧
      Kept registry (card.mergedAway u db assets actor now) := by
  have hemptied : (card.mergedAway u db assets actor now).emptied = true :=
    emptied_of_merge rfl rfl
  refine ⟨hemptied, fun _ hno => ?_, fun _ _ => rfl⟩
  rw [hemptied] at hno
  cases hno

theorem mem_componentSourceRows {sources : List ComponentSource} {row : ComponentSource × Source} :
    row ∈ componentSourceRows registry sources ↔
      row.1 ∈ sources ∧ lookup Source.id registry row.1.sourceId = some row.2 := by
  unfold componentSourceRows
  simp only [List.mem_filterMap, List.mem_insertionSort, Option.map_eq_some_iff]
  constructor
  · rintro ⟨relation, hrelation, source, hsource, rfl⟩
    exact ⟨hrelation, hsource⟩
  · rintro ⟨hrelation, hsource⟩
    exact ⟨row.1, hrelation, row.2, hsource, rfl⟩

/-- A card with one more source. -/
theorem sourced_kept {relation : ComponentSource} (hkept : Kept registry card) :
    Kept registry { card with sources := card.sources ++ [relation] } := by
  refine ⟨fun hyes hno => ?_, fun hyes hno => hkept.empty hyes hno⟩
  obtain ⟨hcontent, himages, hprovenance⟩ := hkept.fit hyes hno
  refine ⟨hcontent, himages, ?_⟩
  rcases hprovenance with hmanual | ⟨row, hrow, hvalid⟩ | hlegacy
  · exact Or.inl hmanual
  · obtain ⟨hrelation, hsource⟩ := mem_componentSourceRows.mp hrow
    exact Or.inr (Or.inl ⟨row, mem_componentSourceRows.mpr
      ⟨List.mem_append_left _ hrelation, hsource⟩, hvalid⟩)
  · exact Or.inr (Or.inr hlegacy)

theorem reviewed_kept {review : LegacySourceLink → LegacySourceLink} (hkept : Kept registry card) :
    Kept registry { card with legacy := card.legacy.map review } := by
  refine ⟨fun hyes hno => ?_, fun hyes hno => hkept.empty hyes hno⟩
  obtain ⟨hcontent, himages, hprovenance⟩ := hkept.fit hyes hno
  refine ⟨hcontent, himages, ?_⟩
  rcases hprovenance with hmanual | hsource | hlegacy
  · exact Or.inl hmanual
  · exact Or.inr (Or.inl hsource)
  · exact Or.inr (Or.inr (by simpa using hlegacy))

/-- Processing that leaves ready assets alone leaves the images of a card alone that are all
ready. -/
theorem imagesOf_map {assets : List MediaAsset} {process : MediaAsset → MediaAsset}
    (hkind : ∀ a, (process a).kind = a.kind) (hready : ∀ a, a.status = .ready → process a = a)
    (h : ∀ image ∈ imagesOf assets, image.status = .ready) :
    imagesOf (assets.map process) = imagesOf assets := by
  have hfilter : (assets.map process).filter (·.kind = .image) =
      assets.filter (·.kind = .image) := by
    rw [List.filter_map]
    have hsame : ((fun a : MediaAsset => decide (a.kind = .image)) ∘ process) =
        fun a => decide (a.kind = .image) := by
      funext a
      exact congrArg (fun kind => decide (kind = Media.MediaKind.image)) (hkind a)
    rw [hsame]
    have hleft : ∀ a ∈ assets.filter (·.kind = .image), process a = id a := by
      intro a ha
      obtain ⟨hmem, himage⟩ := List.mem_filter.mp ha
      exact hready a (h a (mem_imagesOf.mpr ⟨hmem, of_decide_eq_true himage⟩))
    rw [List.map_congr_left hleft, List.map_id]
  unfold imagesOf assetsOf
  rw [hfilter]

theorem processed_kept {process : MediaAsset → MediaAsset} (hkind : ∀ a, (process a).kind = a.kind)
    (hready : ∀ a, a.status = .ready → process a = a) (hkept : Kept registry card) :
    Kept registry { card with assets := card.assets.map process } := by
  refine ⟨fun hyes hno => ?_, fun hyes hno => ?_⟩
  · obtain ⟨hcontent, himages, hprovenance⟩ := hkept.fit hyes hno
    refine ⟨hcontent, ?_, hprovenance⟩
    have hsame := imagesOf_map hkind hready (validatePublishMedia_eq_ok.mp himages).2.1
    unfold validatePublishMedia at himages ⊢
    rw [hsame]
    exact himages
  · have hnone : imagesOf card.assets = [] := hkept.empty hyes hno
    have hsame : imagesOf (card.assets.map process) = imagesOf card.assets := by
      refine imagesOf_map hkind hready fun image himage => ?_
      rw [hnone] at himage
      cases himage
    exact hsame.trans hnone

end Kept

/-! ## Transactions -/

/-- Every card is kept. -/
def AllKept (db : Db) : Prop := ∀ card ∈ db.cards, Kept db.sources card

section Transactions

variable {u : Unicode} {event : Event} {db db' : Db}

theorem AllKept.put {new : Card} (h : AllKept db) (hnew : Kept db.sources new) :
    AllKept (db.put new) := by
  intro card hcard
  rcases Db.mem_put hcard with rfl | hcard
  · exact hnew
  · exact h card hcard

theorem AllKept.of_same (h : AllKept db) (hcards : db'.cards = db.cards)
    (hsources : db'.sources = db.sources) : AllKept db' := by
  unfold AllKept
  rw [hcards, hsources]
  exact h

/-- An edited card is a draft. -/
theorem Edited.kept {card card' : Card} {registry : List Source} (h : Edited db card card') :
    Kept registry card' := by
  refine kept_of_working (not_wasPublic_of_draft ?_)
  rw [Component.former, h.archivedFrom]
  exact h.status

/-- **Every effect keeps the cards as publication left them**; the administration of sources is no
operation on the catalog. -/
theorem Effect.kept (h : Effect u event db db') (hcatalog : event.administers = false)
    (hi : Catalogued db) (hk : AllKept db) : AllKept db' := by
  cases h with
  | tables hsame => exact hk.of_same hsame.cards hsame.sources
  | created _ _ _ hcards _ hsources =>
    intro card hcard
    rw [hcards, List.mem_append, List.mem_singleton] at hcard
    rw [hsources]
    rcases hcard with hcard | rfl
    · exact hk card hcard
    · exact kept_of_working (not_wasPublic_of_draft rfl)
  | edited hedit _ =>
    obtain ⟨db₁, hsame, rfl⟩ := hedit.put
    exact (hk.of_same hsame.cards hsame.sources).put hedit.edited.kept
  | moved _ _ hfound hsource haction hvalid =>
    have hmem := Db.mem_of_card hfound
    exact hk.put (moved_kept (hi.cards _ hmem) (hk _ hmem) hsource haction hvalid)
  | shown _ hfound hhidden _ =>
    have hmem := Db.mem_of_card hfound
    exact hk.put (shown_kept (hi.cards _ hmem) (hk _ hmem) hhidden)
  | restored _ hfound _ hfrom _ => exact hk.put (restored_kept (hk _ (Db.mem_of_card hfound)) hfrom)
  | sourced hfound => exact hk.put (sourced_kept (hk _ (Db.mem_of_card hfound)))
  | linked hfound hdraft hfresh hedit hrevision =>
    rename_i card card' assets link
    obtain ⟨db₁, hsame, rfl⟩ := hedit.put
    have hok := hi.cards card (Db.mem_of_card hfound)
    have hformer : card.row.former = .draft :=
      (former_of_status hok (by rw [hdraft]; decide)).trans hdraft
    have hnext : AllKept (db.put { card with assets := assets, legacy := card.legacy ++ [link] }) :=
      hk.put (kept_of_working (not_wasPublic_of_draft hformer))
    exact (hnext.of_same hsame.cards hsame.sources).put hedit.edited.kept
  | reviewed hfound => exact hk.put (reviewed_kept (hk _ (Db.mem_of_card hfound)))
  | processed =>
    intro card' hcard'
    obtain ⟨card, hcard, rfl⟩ := List.mem_map.mp hcard'
    refine processed_kept ?_ ?_ (hk card hcard)
    · intro a
      split <;> rfl
    · intro a hready
      refine if_neg ?_
      rintro ⟨-, hno⟩
      exact hno hready
  | categorized _ hdb =>
    subst hdb
    exact hk.of_same rfl rfl
  | deactivated _ => exact hk.of_same rfl rfl
  | administered hadmin =>
    rw [hadmin] at hcatalog
    cases hcatalog

theorem Merge.kept {survivor next loser merged gone : Card}
    (h : Merge u event db db' survivor next loser merged gone) (hk : AllKept db) : AllKept db' := by
  have hsources : db'.sources = db.sources := by
    obtain ⟨db₁, hsame, htables⟩ := h.tables
    rw [htables.sources, Db.put_sources, Db.put_sources, hsame.sources]
  intro card hcard
  rw [hsources]
  rcases h.mem hcard with rfl | rfl | hcard
  · obtain ⟨data, -, db₁, actor, now, -, rfl, -⟩ := h.merging
    exact kept_of_working (not_wasPublic_of_draft rfl)
  · obtain ⟨data, -, db₁, actor, now, -, -, rfl⟩ := h.merging
    exact mergedAway_kept.2
  · exact hk card hcard

theorem step_kept {env : Env} (hcatalog : event.administers = false)
    (hi : Catalogued db) (hk : AllKept db) (h : step env db event = some db') : AllKept db' := by
  rcases step_effects h with heffects | ⟨survivor, next, loser, merged, gone, hmerge⟩
  · clear h
    induction heffects with
    | refl => exact hk
    | single heffect => exact heffect.kept hcatalog hi hk
    | cons hfirst _ _ ih => exact ih (hfirst.catalogued hi) (hfirst.kept hcatalog hi hk)
  · exact hmerge.kept hk

end Transactions

/-! ## What a transaction publishes -/

/-- The request publishes the card without a check. -/
def Event.republishes (event : Event) (card : Card) : Prop :=
  event.asks card.id .show ∨
    event.asks card.id .restore ∧ card.row.archivedFromStatus = some .published

instance (event : Event) (card : Card) : Decidable (event.republishes card) :=
  inferInstanceAs (Decidable (_ ∨ _ ∧ _))

/-- The request publishes a card that a merge has emptied since its last publication. -/
def publishesEmptied (db : Db) (event : Event) : Prop :=
  ∃ card ∈ db.cards, card.emptied = true ∧ event.republishes card

instance (db : Db) (event : Event) : Decidable (publishesEmptied db event) := by
  unfold publishesEmptied
  infer_instance

section Publishes

variable {u : Unicode} {event : Event} {db db₁ db' : Db}

theorem Unpublished.publishesComplete (h : Unpublished db db') : PublishesComplete db event db' := by
  intro card' hcard' r hwritten hpublished
  obtain ⟨card, hcard, hid, hr⟩ := h card' hcard' r hwritten.1 hpublished
  exact absurd hr (hwritten.2 card hcard hid)

theorem PublishesComplete.after (h : PublishesComplete db₁ event db') (hquiet : Unpublished db db₁) :
    PublishesComplete db event db' := by
  intro card' hcard' r hwritten hpublished
  refine h card' hcard' r ⟨hwritten.1, fun card₁ hcard₁ hid hr => ?_⟩ hpublished
  obtain ⟨card, hcard, hid', hr⟩ := hquiet card₁ hcard₁ r hr hpublished
  exact hwritten.2 card hcard (hid'.trans hid) hr

theorem publishesComplete_put {new old : Card} (hfound : db.card new.id = some old)
    (h : ∀ r ∈ new.revisions, r ∉ old.revisions → r.status = .published →
      r.content.Complete ∧ new.hasProvenance db.sources) :
    PublishesComplete db event (db.put new) := by
  intro card' hcard' r hwritten hpublished
  rcases Db.mem_put hcard' with rfl | hcard
  · have hnew := hwritten.2 old (Db.mem_of_card hfound) (Db.id_of_card hfound)
    exact h r hwritten.1 hnew hpublished
  · exact absurd hwritten.1 (hwritten.2 card' hcard rfl)

/-- A fit card is published. -/
theorem publishesComplete_recorded {new next old : Card} {actor : UUID} {now : Time}
    {action : ComponentChangeAction} {previous : Option ComponentStatus}
    (hfound : db.card new.id = some old) (hfit : Fit db.sources next)
    (hrevisions : new.revisions =
      old.revisions ++ [next.snapshot u db (readData u db next) actor now action previous])
    (hprovenance : new.hasProvenance db.sources) : PublishesComplete db event (db.put new) := by
  refine publishesComplete_put hfound fun r hr hnew _ => ⟨?_, hprovenance⟩
  rw [hrevisions] at hr
  rcases List.mem_append.mp hr with hr | hr
  · exact absurd hr hnew
  · rw [List.mem_singleton.mp hr]
    exact snapshot_complete hfit

theorem unpublished_of_revisions
    (h : ∀ card' ∈ db'.cards, ∃ card ∈ db.cards, card.id = card'.id ∧
      card'.revisions = card.revisions) : Unpublished db db' := by
  intro card' hcard' r hr _
  obtain ⟨card, hcard, hid, hsame⟩ := h card' hcard'
  exact ⟨card, hcard, hid, hsame ▸ hr⟩

theorem unpublished_of_cards (h : db'.cards = db.cards) : Unpublished db db' :=
  unpublished_of_revisions fun card' hcard' => ⟨card', h ▸ hcard', rfl, rfl⟩

/-- An effect that neither shows nor restores a card publishes complete revisions only. -/
theorem Effect.publishesComplete (h : Effect u event db db')
    (hnone : ∀ id, ¬ event.asks id .show ∧ ¬ event.asks id .restore) :
    PublishesComplete db event db' := by
  cases h with
  | tables hsame => exact (unpublished_of_cards hsame.cards).publishesComplete
  | created _ _ _ hcards _ _ =>
    refine Unpublished.publishesComplete fun card' hcard' r hr hpublished => ?_
    rw [hcards, List.mem_append, List.mem_singleton] at hcard'
    rcases hcard' with hcard | rfl
    · exact ⟨card', hcard, rfl, hr⟩
    · rw [List.mem_singleton.mp hr] at hpublished
      cases hpublished
  | edited hedit _ => exact hedit.unpublished.publishesComplete
  | moved hasks hasked hfound hsource haction hvalid =>
    rename_i card asked target action actor now
    by_cases htarget : target = .published
    · subst htarget
      have hfit : Fit db.sources card := validatePublication_fit hvalid
      have hnext : Fit db.sources { card with row := card.row.moved .published actor now } :=
        hfit.of_same rfl rfl rfl rfl
      have hmoved : Fit db.sources (card.moved u db .published action actor now) :=
        hfit.of_same rfl rfl rfl rfl
      exact publishesComplete_recorded hfound hnext rfl hmoved.provenance
    · refine Unpublished.publishesComplete (Unpublished.put hfound fun r hr hpublished => ?_)
      rcases List.mem_append.mp hr with hr | hr
      · exact hr
      · rw [List.mem_singleton.mp hr] at hpublished
        exact absurd hpublished htarget
  | shown hasks _ _ _ => exact absurd hasks (hnone _).1
  | restored hasks _ _ _ _ => exact absurd hasks (hnone _).2
  | sourced hfound =>
    refine Unpublished.publishesComplete ?_
    exact Unpublished.put hfound fun _ hr _ => hr
  | linked hfound _ _ hedit _ =>
    refine hedit.unpublished.publishesComplete.after ?_
    exact Unpublished.put hfound fun _ hr _ => hr
  | reviewed hfound =>
    refine Unpublished.publishesComplete ?_
    exact Unpublished.put hfound fun _ hr _ => hr
  | processed =>
    refine (unpublished_of_revisions fun card' hcard' => ?_).publishesComplete
    obtain ⟨card, hcard, rfl⟩ := List.mem_map.mp hcard'
    exact ⟨card, hcard, rfl, rfl⟩
  | categorized _ hdb =>
    subst hdb
    refine Unpublished.publishesComplete ?_
    exact unpublished_of_cards rfl
  | deactivated _ =>
    refine Unpublished.publishesComplete ?_
    exact unpublished_of_cards rfl
  | administered _ =>
    refine Unpublished.publishesComplete ?_
    exact unpublished_of_cards rfl

theorem Merge.unpublished {survivor next loser merged gone : Card}
    (h : Merge u event db db' survivor next loser merged gone) : Unpublished db db' := by
  intro card hcard r hr hpublished
  rcases h.mem hcard with rfl | rfl | hcard
  · refine ⟨survivor, Db.mem_of_card h.found, h.merged_id.symm, ?_⟩
    obtain ⟨data, hmerging, db₁, actor, now, -, rfl, -⟩ := h.merging
    obtain ⟨row, details, hnext⟩ := hmerging.details
    have hrevisions : next.revisions = survivor.revisions := by rw [hnext]
    rcases List.mem_append.mp hr with hr | hr
    · rw [← hrevisions]
      exact hr
    · rw [List.mem_singleton.mp hr] at hpublished
      cases hpublished
  · refine ⟨loser, Db.mem_of_card h.foundLoser, h.gone_id.symm, ?_⟩
    obtain ⟨data, -, db₁, actor, now, -, -, rfl⟩ := h.merging
    rcases List.mem_append.mp hr with hr | hr
    · exact hr
    · rw [List.mem_singleton.mp hr] at hpublished
      cases hpublished
  · exact ⟨card, hcard, rfl, hr⟩

/-- A request to show or to restore a card does just that. -/
theorem step_returns {env : Env} {id : UUID} {action : LifecycleAction}
    (hasks : event.asks id action) (hreturn : action = .show ∨ action = .restore)
    (h : step env db event = some db') :
    ∃ revision actor now, lifecycle env.unicode db id revision action actor now = .ok db' := by
  obtain ⟨-, h⟩ := step_eq_some h
  cases event with
  | lifecycle component revision token asked actor now =>
    obtain ⟨rfl, rfl⟩ := hasks
    obtain ⟨-, h⟩ := seq_eq_ok.mp (toOption_eq_some.mp h)
    exact ⟨_, _, _, h⟩
  | command component token asked actor now =>
    obtain ⟨rfl, rfl⟩ := hasks
    obtain ⟨-, h⟩ := seq_eq_ok.mp (toOption_eq_some.mp h)
    obtain ⟨_, -, h⟩ := bind_eq_ok.mp h
    exact ⟨_, _, _, h⟩
  | approveAndPublish component token actor now later =>
    obtain ⟨-, hno⟩ := hasks
    rcases hreturn with rfl | rfl <;> rcases hno with hno | hno <;> cases hno
  | _ => cases hasks

/-! ## Showing and restoring -/

/-- A revision with a number that no revision of the card has yet is written. -/
theorem written_of_newer {new old : Card} {r : ComponentRevision} (hi : Catalogued db)
    (hfound : db.card new.id = some old) (hr : r ∈ new.revisions)
    (hnumber : r.revision = old.row.revision + 1) : Written db new r := by
  refine ⟨hr, fun card hcard hid hold => ?_⟩
  have hmem := Db.mem_of_card hfound
  obtain rfl := hi.unique.eq_of_id hcard hmem (hid.trans (Db.id_of_card hfound).symm)
  have := (hi.cards card hmem).newer hnumber r hold
  omega

/-- A published snapshot of a card is complete exactly when the card is not emptied. -/
theorem published_iff {new next old : Card} {actor : UUID} {now : Time}
    {action : ComponentChangeAction} {previous : Option ComponentStatus} (hi : Catalogued db)
    (hkept : Kept db.sources old) (hfound : db.card new.id = some old) (hpublic : old.wasPublic)
    (hnext : ∃ row, next = { old with row := row } ∧ row.toColumns = old.row.toColumns ∧
      row.status = .published ∧ row.revision = old.row.revision + 1)
    (hrevisions : new.revisions =
      old.revisions ++ [next.snapshot u db (readData u db next) actor now action previous])
    (hsame : new.row.toColumns = next.row.toColumns ∧ new.assets = next.assets ∧
      new.sources = next.sources ∧ new.legacy = next.legacy) :
    PublishesComplete db event (db.put new) ↔ old.emptied = false := by
  obtain ⟨row, rfl, hcolumns, hstatus, hrevision⟩ := hnext
  constructor
  · intro hcomplete
    by_contra hemptied
    have hnone : imagesOf ({ old with row := row } : Card).assets = [] :=
      hkept.empty hpublic (by simpa using hemptied)
    have hmem : new ∈ (db.put new).cards := Db.mem_of_card (Db.put_card_self new hfound)
    have hr : { old with row := row }.snapshot u db (readData u db { old with row := row }) actor
        now action previous ∈ new.revisions := by
      rw [hrevisions]
      exact List.mem_append_right _ (List.mem_singleton_self _)
    have hwritten := written_of_newer hi hfound hr hrevision
    exact snapshot_incomplete hnone (hcomplete new hmem _ hwritten hstatus).1
  · intro hemptied
    have hfit := hkept.fit hpublic hemptied
    have hnext : Fit db.sources { old with row := row } := hfit.of_same hcolumns rfl rfl rfl
    obtain ⟨hcolumns', hassets, hsources, hlegacy⟩ := hsame
    have hnew : Fit db.sources new := hnext.of_same hcolumns' hassets hsources hlegacy
    exact publishesComplete_recorded hfound hnext hrevisions hnew.provenance

/-- A request asks for one card. -/
theorem Event.asks_id {id id' : UUID} {action action' : LifecycleAction}
    (h : event.asks id action) (h' : event.asks id' action') : id' = id := by
  cases event with
  | lifecycle | command | approveAndPublish => exact h'.1.symm.trans h.1
  | _ => cases h

/-- A request to restore a card does not show it. -/
theorem Event.not_show_of_restore {id id' : UUID} (h : event.asks id .restore) :
    ¬ event.asks id' .show := by
  intro hshow
  cases event with
  | lifecycle | command =>
    have hsame := h.2.symm.trans hshow.2
    cases hsame
  | approveAndPublish => rcases h.2 with hno | hno <;> cases hno
  | _ => cases h

theorem publishesEmptied_iff {card : Card} {action : LifecycleAction} (hi : Catalogued db)
    (hfound : db.card card.id = some card) (hasks : event.asks card.id action) :
    publishesEmptied db event ↔ card.emptied = true ∧ event.republishes card := by
  constructor
  · rintro ⟨other, hother, hemptied, hrepublishes⟩
    have hid : other.id = card.id := by
      rcases hrepublishes with hshow | ⟨hrestore, -⟩
      · exact Event.asks_id hasks hshow
      · exact Event.asks_id hasks hrestore
    obtain rfl := hi.unique.eq_of_id hother (Db.mem_of_card hfound) hid
    exact ⟨hemptied, hrepublishes⟩
  · rintro ⟨hemptied, hrepublishes⟩
    exact ⟨card, Db.mem_of_card hfound, hemptied, hrepublishes⟩

/-- Showing a card publishes it as it is. -/
theorem shown_publishes_iff {card : Card} {publishedAt : Time} {actor : UUID} {now : Time}
    (hi : Catalogued db) (hk : AllKept db) (hasks : event.asks card.id .show)
    (hfound : db.card card.id = some card) (hhidden : card.row.status = .hidden) :
    PublishesComplete db event (db.put (card.shown u db publishedAt actor now)) ↔
      ¬ publishesEmptied db event := by
  have hmem := Db.mem_of_card hfound
  have hpublic : card.wasPublic := by
    refine Or.inr ((former_of_status (hi.cards card hmem) ?_).trans hhidden)
    rw [hhidden]
    decide
  have hrepublishes : event.republishes card := Or.inl hasks
  rw [publishesEmptied_iff hi hfound hasks, and_iff_left hrepublishes, Bool.not_eq_true]
  exact published_iff hi (hk card hmem) hfound hpublic
    ⟨card.row.returned .published actor now, rfl, rfl, rfl, rfl⟩ rfl ⟨rfl, rfl, rfl, rfl⟩

/-- Restoring a card publishes it as it is when it was archived while it was published. -/
theorem restored_publishes_iff {card : Card} {target : ComponentStatus} {actor : UUID} {now : Time}
    (hi : Catalogued db) (hk : AllKept db) (hasks : event.asks card.id .restore)
    (hfound : db.card card.id = some card) (hfrom : card.row.archivedFromStatus = some target) :
    PublishesComplete db event (db.put (card.restored u db target actor now)) ↔
      ¬ publishesEmptied db event := by
  have hmem := Db.mem_of_card hfound
  rw [publishesEmptied_iff hi hfound hasks]
  by_cases htarget : target = .published
  · subst htarget
    have hpublic : card.wasPublic := by
      refine Or.inl ?_
      rw [Component.former, hfrom]
      rfl
    have hrepublishes : event.republishes card := Or.inr ⟨hasks, hfrom⟩
    rw [and_iff_left hrepublishes, Bool.not_eq_true]
    exact published_iff hi (hk card hmem) hfound hpublic
      ⟨card.row.returned .published actor now, rfl, rfl, rfl, rfl⟩ rfl ⟨rfl, rfl, rfl, rfl⟩
  · have hno : ¬ event.republishes card := by
      rintro (hshow | ⟨-, hsame⟩)
      · exact Event.not_show_of_restore hasks hshow
      · rw [hfrom] at hsame
        exact htarget (Option.some.inj hsame)
    refine iff_of_true (Unpublished.publishesComplete ?_) fun hyes => hno hyes.2
    refine Unpublished.put hfound fun r hr hpublished => ?_
    rcases List.mem_append.mp hr with hr | hr
    · exact hr
    · rw [List.mem_singleton.mp hr] at hpublished
      exact absurd hpublished htarget

/-- **A transaction publishes complete revisions only, unless it publishes an emptied card.** -/
theorem step_publishes_iff {env : Env} (hi : Catalogued db) (hk : AllKept db)
    (h : step env db event = some db') :
    PublishesComplete db event db' ↔ ¬ publishesEmptied db event := by
  by_cases hreturns : ∃ id, event.asks id .show ∨ event.asks id .restore
  · obtain ⟨id, hasks⟩ := hreturns
    rcases hasks with hasks | hasks
    · obtain ⟨revision, actor, now, hshow⟩ := step_returns hasks (Or.inl rfl) h
      obtain ⟨card, publishedAt, hfound, -, hhidden, -, rfl⟩ := showHidden_spec hshow
      obtain rfl := Db.id_of_card hfound
      exact shown_publishes_iff hi hk hasks hfound hhidden
    · obtain ⟨revision, actor, now, hrestore⟩ := step_returns hasks (Or.inr rfl) h
      obtain ⟨card, target, hfound, -, -, hfrom, -, rfl⟩ := restoreArchived_spec hrestore
      obtain rfl := Db.id_of_card hfound
      exact restored_publishes_iff hi hk hasks hfound hfrom
  · have hnone : ∀ id, ¬ event.asks id .show ∧ ¬ event.asks id .restore := by
      intro id
      exact ⟨fun hshow => hreturns ⟨id, Or.inl hshow⟩, fun hrestore => hreturns ⟨id, Or.inr hrestore⟩⟩
    have hno : ¬ publishesEmptied db event := by
      rintro ⟨card, -, -, hshow | ⟨hrestore, -⟩⟩
      · exact (hnone _).1 hshow
      · exact (hnone _).2 hrestore
    refine iff_of_true ?_ hno
    rcases step_effects h with heffects | ⟨survivor, next, loser, merged, gone, hmerge⟩
    · clear h hno hi hk
      induction heffects with
      | refl =>
        refine Unpublished.publishesComplete ?_
        exact unpublished_of_cards rfl
      | single heffect => exact heffect.publishesComplete hnone
      | cons _ hquiet _ ih => exact ih.after hquiet
    · exact hmerge.unpublished.publishesComplete

end Publishes

/-! ## Runs -/

/-- The invariant of runs. -/
structure Preserved (db : Db) : Prop extends Catalogued db where
  kept : AllKept db

theorem Preserved.of_no_cards {db : Db} (h : db.cards = []) : Preserved db where
  toCatalogued := (Shelved.of_no_cards h).toCatalogued
  kept := by unfold AllKept; rw [h]; intro card hcard; cases hcard

/-- **Every published revision is complete exactly as long as no emptied card is published.** From
a catalog without cards on, every revision that a run publishes has its texts, its images with one
primary among them, and a provenance, if and only if no step of the run shows a card, or restores
one to `published`, that a merge has archived since the card was last published. -/
theorem published_complete_iff (env : Env) {db : Db} (hempty : db.cards = []) {events : List Event}
    (hcatalog : ∀ event ∈ events, event.administers = false) :
    Along (step env) PublishesComplete db events ↔
      Along (step env) (fun db event _ => ¬ publishesEmptied db event) db events := by
  have hi : Preserved db := .of_no_cards hempty
  refine along_congr_of_mem (fun db event db' hevent hi h => ?_) (fun db event db' _ hi h => ?_)
    hcatalog hi
  · exact ⟨step_catalogued hi.toCatalogued h, step_kept hevent hi.toCatalogued hi.kept h⟩
  · exact step_publishes_iff hi.toCatalogued hi.kept h

theorem published_complete_hide_show :
    Along (step plainEnv) PublishesComplete plainDb
      (publishing true ++ [.lifecycle 10 4 none .hide 7 5, .lifecycle 10 5 none .show 7 6]) :=
  (published_complete_iff plainEnv rfl (by decide)).mpr (by decide +kernel)

/-- **A card emptied by a merge is published.** Card 10 is published, merged into its duplicate,
and restored: its new published revision has no image. -/
theorem restored_empty :
    ¬ Along (step plainEnv) PublishesComplete plainDb
      (publishing true ++ [.decide 30 .merge 4 1 (some 11) [] 7 5,
        .lifecycle 10 5 none .restore 7 6]) := by
  decide +kernel

end ComponentKb.Catalog
