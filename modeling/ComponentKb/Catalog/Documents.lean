import ComponentKb.Catalog.Publication

/-!
# Search documents

The list of published cards is read from the search documents, and what it shows of a card from its
latest published snapshot. A document is written by a publication, by a return to `published`, and
by the restoration of a card that was a draft when it was archived; everything else keeps it or
takes it away.

* `AllProjected`: every document is the projection of the latest published snapshot. Every
  transaction keeps this, also a merge.
* `AllDated`: it also has the time that is shown with the card. A return to `published` breaks this:
  the document has the time of the publication, the snapshot that of the return.
* `listed_in_order`: the list is in the order of the times shown as long as no card returns.
* `listed_out_of_order`: a card that is shown again.
-/

namespace ComponentKb.Catalog

open ComponentKb.Lib

/-! ## Projections -/

/-- The fields of a document that are those of a snapshot. -/
structure Projects (d : PublishedSearchDocument) (r : ComponentRevision) : Prop where
  revision : d.revision = r.revision
  category : d.categoryId = r.content.primaryCategoryId
  difficulty : d.difficulty = r.content.difficulty
  title : d.title = r.content.title
  aliases : d.aliasesText = joined r.content.aliases
  manufacturer : d.manufacturer = r.content.manufacturer.getD ""
  model : d.model = r.content.model.getD ""
  summary : d.summary = r.content.summary
  tags : d.tagsText = joined r.content.tags

/-- The document of the card, if it has one, and the latest published snapshot satisfy `Q`. -/
def Card.documented (Q : PublishedSearchDocument → ComponentRevision → Prop) (card : Card) : Prop :=
  ∀ d, card.document = some d → ∃ r, latestPublished card.revisions = some r ∧ Q d r

/-- Every document is the projection of the latest published snapshot. -/
def AllProjected (db : Db) : Prop := ∀ card ∈ db.cards, card.documented Projects

/-- The projection, with the time of the snapshot. -/
def Dated (d : PublishedSearchDocument) (r : ComponentRevision) : Prop :=
  Projects d r ∧ d.publishedAt = r.createdAt

def AllDated (db : Db) : Prop := ∀ card ∈ db.cards, card.documented Dated

/-- A step returns a card to `published`, by showing or by restoring it. -/
def Redates (db : Db) (event : Event) : Prop :=
  ∃ card ∈ db.cards, event.asks card.id .show ∨
    event.asks card.id .restore ∧ card.row.archivedFromStatus = some .published

instance (db : Db) (event : Event) : Decidable (Redates db event) :=
  inferInstanceAs (Decidable (∃ card ∈ _, _))

theorem filled_getD (s : Option String) : (filled s).getD "" = s.getD "" := by
  cases s with
  | none => rfl
  | some s =>
    by_cases h : s = ""
    · subst h
      rfl
    · simp [filled, Option.filter_some, h]

section Documents

variable {u : Unicode} {data : DraftData} {registry : List Source} {sources : List ComponentSource}
  {media : List ComponentMedia} {row : Component} {actor : UUID} {now publishedAt : Time}
  {action : ComponentChangeAction} {previous : Option ComponentStatus}
  {Q : PublishedSearchDocument → ComponentRevision → Prop} {db : Db} {card card' : Card}

/-- A document is written from the data that the revision of the same transaction records. -/
theorem searchDocument_projects :
    Projects (searchDocument u data publishedAt row.revision)
      (Catalog.snapshot u registry sources media row data actor now action previous) :=
  ⟨rfl, rfl, rfl, rfl, rfl, rfl, rfl, rfl, rfl⟩

theorem searchDocument_dated :
    Dated (searchDocument u data now row.revision)
      (Catalog.snapshot u registry sources media row data actor now action previous) :=
  ⟨searchDocument_projects, rfl⟩

/-- A document is restored from the published snapshot. -/
theorem restored_dated (r : ComponentRevision) :
    Dated (searchDocument u (publishedData r.content) r.createdAt r.revision) r :=
  ⟨⟨rfl, rfl, rfl, rfl, rfl, filled_getD _, filled_getD _, rfl, rfl⟩, rfl⟩

theorem documented_of_same (h : card.documented Q) (hdocument : card'.document = card.document)
    (hlatest : latestPublished card'.revisions = latestPublished card.revisions) :
    card'.documented Q := by
  unfold Card.documented
  rw [hdocument, hlatest]
  exact h

theorem documented_of_none (h : card.document = none) : card.documented Q := by
  intro d hd
  rw [h] at hd
  cases hd

theorem documented_of_snapshot {d : PublishedSearchDocument} {r : ComponentRevision}
    (hdocument : card.document = some d) (hlatest : latestPublished card.revisions = some r)
    (hQ : Q d r) : card.documented Q := by
  intro d' hd'
  obtain rfl := Option.some.inj (hdocument.symm.trans hd')
  exact ⟨r, hlatest, hQ⟩

theorem moved_documented {target : ComponentStatus} (hok : CardOk db.categories card)
    (hcard : card.documented Q)
    (hwritten : ∀ data registry sources media row actor now action previous,
      Q (searchDocument u data now row.revision)
        (Catalog.snapshot u registry sources media row data actor now action previous)) :
    (card.moved u db target action actor now).documented Q := by
  cases target with
  | published =>
    exact documented_of_snapshot rfl (latestPublished_append rfl (hok.newer rfl)) (hwritten ..)
  | hidden | archived => exact documented_of_none rfl
  | draft | inReview | changesRequested | approved =>
    exact documented_of_same hcard rfl (moved_latest (by decide))

/-- The document of a card that is restored to anything but `published`. -/
theorem restored_documented {target : ComponentStatus} (hnone : card.document = none)
    (hne : target ≠ .published)
    (hrestored : ∀ r, Q (searchDocument u (publishedData r.content) r.createdAt r.revision) r) :
    (card.restored u db target actor now).documented Q := by
  have hlatest : latestPublished (card.restored u db target actor now).revisions =
      latestPublished card.revisions := latestPublished_append_other hne
  intro d hd
  rw [hlatest]
  change documentRestored u db { card with row := card.row.returned target actor now } _ = some d at hd
  have hdocument : restoredDocument u db { card with row := card.row.returned target actor now } =
      some d := by
    cases hat : card.row.publishedAt <;> cases target <;>
      simp_all [documentRestored, Component.returned]
  unfold restoredDocument publishedCard at hdocument
  cases hr : latestPublished card.revisions with
  | none => simp [hr, hnone] at hdocument
  | some r =>
    cases hactive : activeCategory db.categories r.content.primaryCategoryId with
    | none => simp [hr, hactive, hnone] at hdocument
    | some category =>
      simp only [hr, hactive, Option.bind_eq_bind, Option.bind_some] at hdocument
      cases hdocument
      exact ⟨r, rfl, hrestored r⟩

end Documents

/-! ## Transactions -/

section Transactions

variable {u : Unicode} {env : Env} {event : Event} {db db' : Db}
  {Q : PublishedSearchDocument → ComponentRevision → Prop}

/-- Every card is documented by `Q`. -/
def AllDocumented (Q : PublishedSearchDocument → ComponentRevision → Prop) (db : Db) : Prop :=
  ∀ card ∈ db.cards, card.documented Q

theorem AllDocumented.put {new : Card} (h : AllDocumented Q db) (hnew : new.documented Q) :
    AllDocumented Q (db.put new) := by
  intro card hcard
  rcases Db.mem_put hcard with rfl | hcard
  · exact hnew
  · exact h card hcard

theorem AllDocumented.of_cards (h : AllDocumented Q db) (hcards : db'.cards = db.cards) :
    AllDocumented Q db' := by
  unfold AllDocumented
  rw [hcards]
  exact h

theorem AllDocumented.edited {card card' : Card} (h : AllDocumented Q db)
    (hedit : EditsTo db db' card card') : AllDocumented Q db' := by
  obtain ⟨db₁, hsame, rfl⟩ := hedit.put
  refine (h.of_cards hsame.cards).put ?_
  exact documented_of_same (h card (Db.mem_of_card hedit.found)) hedit.edited.document
    hedit.edited.latest

/-- What a document and the snapshot written with it, or the one it is restored from, satisfy. -/
structure Fits (u : Unicode) (Q : PublishedSearchDocument → ComponentRevision → Prop) : Prop where
  written : ∀ data registry sources media row actor now action previous,
    Q (searchDocument u data now row.revision)
      (Catalog.snapshot u registry sources media row data actor now action previous)
  restored : ∀ r, Q (searchDocument u (publishedData r.content) r.createdAt r.revision) r

theorem Effect.documented (h : Effect u event db db') (hQ : Fits u Q) (hi : Catalogued db)
    (hdb : AllDocumented Q db)
    (hnone : ∀ id, ¬ event.asks id .show ∧ ¬ event.asks id .restore) : AllDocumented Q db' := by
  cases h with
  | tables hsame => exact hdb.of_cards hsame.cards
  | created _ _ _ hcards _ _ =>
    intro card hcard
    rw [hcards, List.mem_append, List.mem_singleton] at hcard
    rcases hcard with hcard | rfl
    · exact hdb card hcard
    · exact documented_of_none rfl
  | edited hedit _ => exact hdb.edited hedit
  | moved _ _ hfound _ _ _ =>
    have hmem := Db.mem_of_card hfound
    exact hdb.put (moved_documented (hi.cards _ hmem) (hdb _ hmem) hQ.written)
  | shown hasks _ _ _ => exact absurd hasks (hnone _).1
  | restored hasks _ _ _ _ => exact absurd hasks (hnone _).2
  | sourced hfound =>
    exact hdb.put (documented_of_same (hdb _ (Db.mem_of_card hfound)) rfl rfl)
  | linked hfound _ _ hedit _ =>
    refine AllDocumented.edited ?_ hedit
    exact hdb.put (documented_of_same (hdb _ (Db.mem_of_card hfound)) rfl rfl)
  | reviewed hfound =>
    exact hdb.put (documented_of_same (hdb _ (Db.mem_of_card hfound)) rfl rfl)
  | processed =>
    intro card' hcard'
    obtain ⟨card, hcard, hface⟩ := processMedia_face hcard'
    exact documented_of_same (hdb card hcard) hface.document (by rw [hface.revisions])
  | categorized _ hcategories =>
    subst hcategories
    exact hdb.of_cards rfl
  | deactivated _ => exact hdb.of_cards rfl
  | administered _ => exact hdb.of_cards rfl

theorem Merge.documented {survivor next loser merged gone : Card}
    (h : Merge u event db db' survivor next loser merged gone) (hdb : AllDocumented Q db) :
    AllDocumented Q db' := by
  intro card hcard
  rcases h.mem hcard with rfl | rfl | hcard
  · obtain ⟨data, hmerging, db₁, actor, now, -, rfl, -⟩ := h.merging
    exact documented_of_same (hdb survivor (Db.mem_of_card h.found)) (merged_document hmerging)
      (merged_latest hmerging)
  · obtain ⟨data, -, db₁, actor, now, -, -, rfl⟩ := h.merging
    exact documented_of_none rfl
  · exact hdb card hcard

/-- **What every transaction keeps of the documents**, if it keeps it when it returns a card to
`published`. -/
theorem step_documented (hQ : Fits env.unicode Q) (hi : Catalogued db) (hdb : AllDocumented Q db)
    (hreturned : Redates db event → ∀ data publishedAt registry sources media row actor now action
      previous, Q (searchDocument env.unicode data publishedAt row.revision)
        (Catalog.snapshot env.unicode registry sources media row data actor now action previous))
    (h : step env db event = some db') : AllDocumented Q db' := by
  by_cases hreturns : ∃ id, event.asks id .show ∨ event.asks id .restore
  · obtain ⟨id, hasks | hasks⟩ := hreturns
    · obtain ⟨revision, actor, now, hshow⟩ := step_returns hasks (Or.inl rfl) h
      obtain ⟨card, publishedAt, hfound, -, -, -, rfl⟩ := showHidden_spec hshow
      obtain rfl := Db.id_of_card hfound
      have hmem := Db.mem_of_card hfound
      refine hdb.put (documented_of_snapshot rfl
        (latestPublished_append rfl ((hi.cards card hmem).newer rfl)) ?_)
      exact hreturned ⟨card, hmem, Or.inl hasks⟩ ..
    · obtain ⟨revision, actor, now, hrestore⟩ := step_returns hasks (Or.inr rfl) h
      obtain ⟨card, target, hfound, -, harchived, hfrom, -, rfl⟩ := restoreArchived_spec hrestore
      obtain rfl := Db.id_of_card hfound
      have hmem := Db.mem_of_card hfound
      have hok := hi.cards card hmem
      have hnone : card.document = none := hok.withdrawn (by rw [harchived]; rfl)
      refine hdb.put ?_
      by_cases hpublished : target = .published
      · subst hpublished
        obtain ⟨publishedAt, hat⟩ := Option.isSome_iff_exists.mp
          (hok.published (by rw [Component.former, hfrom]; exact Or.inl rfl))
        refine documented_of_snapshot (restored_document_published hat)
          (latestPublished_append rfl (hok.newer rfl)) ?_
        exact hreturned ⟨card, hmem, Or.inr ⟨hasks, hfrom⟩⟩ _ _ _ _ _
          (card.row.returned .published actor now) ..
      · exact restored_documented hnone hpublished hQ.restored
  · have hnone : ∀ id, ¬ event.asks id .show ∧ ¬ event.asks id .restore := by
      intro id
      exact ⟨fun hshow => hreturns ⟨id, Or.inl hshow⟩, fun hrestore => hreturns ⟨id, Or.inr hrestore⟩⟩
    rcases step_effects h with heffects | ⟨survivor, next, loser, merged, gone, hmerge⟩
    · clear h hreturned
      induction heffects with
      | refl => exact hdb
      | single heffect => exact heffect.documented hQ hi hdb hnone
      | cons hfirst _ _ ih => exact ih (hfirst.catalogued hi) (hfirst.documented hQ hi hdb hnone)
    · exact hmerge.documented hdb

theorem step_projected (hi : Catalogued db) (hdb : AllProjected db)
    (h : step env db event = some db') : AllProjected db' :=
  step_documented ⟨fun _ _ _ _ _ _ _ _ _ => searchDocument_projects, fun r => (restored_dated r).1⟩
    hi hdb (fun _ _ _ _ _ _ _ _ _ _ _ => searchDocument_projects) h

theorem step_dated (hi : Catalogued db) (hdb : AllDated db) (hreturns : ¬ Redates db event)
    (h : step env db event = some db') : AllDated db' :=
  step_documented ⟨fun _ _ _ _ _ _ _ _ _ => searchDocument_dated, restored_dated⟩ hi hdb
    (fun hno => absurd hno hreturns) h

end Transactions

/-! ## The list -/

/-- Cards in the order of the times that are shown with them, the latest first. -/
def Descending (cards : List CatalogCard) : Prop :=
  cards.Pairwise fun a b => ∀ s ∈ a.publishedAt, ∀ t ∈ b.publishedAt, t ≤ s

instance (cards : List CatalogCard) : Decidable (Descending cards) :=
  inferInstanceAs (Decidable (List.Pairwise _ _))

/-- The list is in the order of the times that are shown with the cards. -/
def InOrder (db : Db) : Prop :=
  ∀ categoryId difficulty limit, Descending (listPublished db categoryId difficulty limit).1

/-- Every page is the beginning of one list without repetition. -/
def Paged (db : Db) : Prop :=
  ∀ categoryId difficulty limit, (publishedIds db categoryId difficulty).Nodup ∧
    (listPublished db categoryId difficulty limit).1.map CatalogCard.id =
      (publishedIds db categoryId difficulty).take limit

section Listing

variable {db : Db} {categoryId : Option UUID} {difficulty : Option Difficulty}

instance : Std.Total newestFirst where
  total a b := by
    rcases lt_trichotomy a.2 b.2 with hlt | heq | hgt
    · exact Or.inr (Or.inl hlt)
    · rcases le_total a.1 b.1 with hle | hle
      · exact Or.inl (Or.inr ⟨heq, hle⟩)
      · exact Or.inr (Or.inr ⟨heq.symm, hle⟩)
    · exact Or.inl (Or.inl hgt)

instance : IsTrans (UUID × Time) newestFirst where
  trans a b c := by
    rintro (hab | ⟨hab, hids⟩) (hbc | ⟨hbc, hids'⟩)
    · exact Or.inl (hbc.trans hab)
    · exact Or.inl (hbc ▸ hab)
    · exact Or.inl (hab.symm ▸ hbc)
    · exact Or.inr ⟨hab.trans hbc, hids.trans hids'⟩

/-- The rows that the list is made of, newest first. -/
def listedRows (db : Db) (categoryId : Option UUID) (difficulty : Option Difficulty) :
    List (UUID × Time) :=
  (db.cards.filterMap fun card =>
    (listed db.categories categoryId difficulty card).map fun document =>
      (card.id, document.publishedAt)).insertionSort newestFirst

theorem Unique.card_of_mem (h : Unique db) {card : Card} (hcard : card ∈ db.cards) :
    db.card card.id = some card := by
  cases hfound : db.card card.id with
  | none => exact absurd rfl (lookup_eq_none.mp hfound card hcard)
  | some found =>
    rw [h.eq_of_id (Db.mem_of_card hfound) hcard (Db.id_of_card hfound)]

theorem publishedCard_shown {card : Card} {r : ComponentRevision} {c : CatalogCard}
    (hr : latestPublished card.revisions = some r) (hc : publishedCard db card = some c) :
    c.id = card.id ∧ c.publishedAt = some r.createdAt := by
  obtain ⟨r', hr', hc⟩ := Option.bind_eq_some_iff.mp hc
  obtain rfl := Option.some.inj (hr.symm.trans hr')
  obtain ⟨category, -, hc⟩ := Option.bind_eq_some_iff.mp hc
  cases hc
  exact ⟨rfl, rfl⟩

/-- What is shown for a row of the list. -/
theorem listed_shown (hu : Unique db) {Q : PublishedSearchDocument → ComponentRevision → Prop}
    (hQ : ∀ d r, Q d r → Projects d r) (hdb : AllDocumented Q db) {row : UUID × Time}
    (hrow : row ∈ listedRows db categoryId difficulty) :
    ∃ c d r, (db.card row.1).bind (publishedCard db) = some c ∧ c.id = row.1 ∧
      c.publishedAt = some r.createdAt ∧ d.publishedAt = row.2 ∧ Q d r := by
  rw [listedRows, List.mem_insertionSort, List.mem_filterMap] at hrow
  obtain ⟨card, hcard, hrow⟩ := hrow
  obtain ⟨d, hlisted, rfl⟩ := Option.map_eq_some_iff.mp hrow
  obtain ⟨hd, hconditions⟩ := Option.filter_eq_some_iff.mp hlisted
  obtain ⟨r, hr, hQr⟩ := hdb card hcard d hd
  have hactive : (activeCategory db.categories r.content.primaryCategoryId).isSome := by
    rw [← (hQ d r hQr).category]
    simp only [Bool.and_eq_true] at hconditions
    exact hconditions.1.1.2
  obtain ⟨c, hc⟩ : ∃ c, publishedCard db card = some c :=
    Option.isSome_iff_exists.mp (publishedCard_isSome.mpr ⟨r, hr, hactive⟩)
  obtain ⟨hid, htime⟩ := publishedCard_shown hr hc
  refine ⟨c, d, r, ?_, hid, htime, rfl, hQr⟩
  rw [hu.card_of_mem hcard]
  exact hc

theorem rows_unique (hu : Unique db) :
    ((listedRows db categoryId difficulty).map Prod.fst).Nodup := by
  have hperm : ((listedRows db categoryId difficulty).map Prod.fst).Perm
      ((db.cards.filterMap fun card =>
        (listed db.categories categoryId difficulty card).map fun document =>
          (card.id, document.publishedAt)).map Prod.fst) :=
    (List.perm_insertionSort _ _).map _
  refine hperm.nodup_iff.mpr ?_
  -- the ids of the rows are those of some of the cards, in their order
  have hids : ((db.cards.filterMap fun card =>
      (listed db.categories categoryId difficulty card).map fun document =>
        (card.id, document.publishedAt)).map Prod.fst) =
      (db.cards.filter fun card =>
        (listed db.categories categoryId difficulty card).isSome).map Card.id := by
    rw [List.map_filterMap, ← List.filterMap_eq_filter, List.map_filterMap]
    refine List.filterMap_congr fun card _ => ?_
    cases hlisted : listed db.categories categoryId difficulty card <;>
      simp [Option.guard, hlisted]
  rw [hids]
  exact hu.ids.sublist (List.filter_sublist.map _)

/-- **Every page is the beginning of the list.** -/
theorem paged_of_projected (hu : Unique db) (hdb : AllProjected db) : Paged db := by
  intro categoryId difficulty limit
  refine ⟨rows_unique hu, ?_⟩
  change (List.filterMap (fun id => (db.card id).bind (publishedCard db))
    (((listedRows db categoryId difficulty).map Prod.fst).take limit)).map CatalogCard.id =
      ((listedRows db categoryId difficulty).map Prod.fst).take limit
  rw [← List.map_take, List.filterMap_map, List.map_filterMap]
  have hrows : ∀ row ∈ (listedRows db categoryId difficulty).take limit,
      Option.map CatalogCard.id (((fun id => (db.card id).bind (publishedCard db)) ∘ Prod.fst) row) =
        some row.1 := by
    intro row hrow
    obtain ⟨c, d, r, hc, hid, -⟩ := listed_shown hu (fun _ _ h => h) hdb (List.mem_of_mem_take hrow)
    change Option.map CatalogCard.id ((db.card row.1).bind (publishedCard db)) = some row.1
    rw [hc, Option.map_some, hid]
  rw [List.filterMap_congr hrows]
  change List.filterMap (some ∘ Prod.fst) _ = _
  rw [List.filterMap_eq_map]

/-- **With the times of the snapshots the list is in order.** -/
theorem inOrder_of_dated (hu : Unique db) (hdb : AllDated db) : InOrder db := by
  intro categoryId difficulty limit
  have hsorted : ((listedRows db categoryId difficulty).take limit).Pairwise newestFirst :=
    (List.pairwise_insertionSort newestFirst _).sublist (List.take_sublist _ _)
  change (List.filterMap (fun id => (db.card id).bind (publishedCard db))
    (((listedRows db categoryId difficulty).map Prod.fst).take limit)).Pairwise _
  rw [← List.map_take, List.filterMap_map, List.pairwise_filterMap]
  refine hsorted.imp_of_mem fun {row row'} hrow hrow' hbefore c hc c' hc' s hs t ht => ?_
  obtain ⟨c₁, d, r, hc₁, -, htime, hd, -, hdate⟩ :=
    listed_shown hu (fun _ _ h => h.1) hdb (List.mem_of_mem_take hrow)
  obtain ⟨c₂, d', r', hc₂, -, htime', hd', -, hdate'⟩ :=
    listed_shown hu (fun _ _ h => h.1) hdb (List.mem_of_mem_take hrow')
  obtain rfl := Option.some.inj (hc.symm.trans hc₁)
  obtain rfl := Option.some.inj (hc'.symm.trans hc₂)
  obtain rfl : r.createdAt = s := Option.some.inj (htime.symm.trans hs)
  obtain rfl : r'.createdAt = t := Option.some.inj (htime'.symm.trans ht)
  rw [← hdate, ← hdate', hd, hd']
  rcases hbefore with hlt | ⟨heq, -⟩
  · exact hlt.le
  · exact heq.ge

end Listing

/-! ## Runs -/

/-- The invariant of runs. -/
structure Documented (Q : PublishedSearchDocument → ComponentRevision → Prop) (db : Db) : Prop
    extends Catalogued db where
  documents : AllDocumented Q db

/-- **The search documents.** In every state of a run from a catalog without cards, every document
is the projection of the latest published snapshot, and every page of the list is the beginning of
one list without repetition; while no step of the run returns a card to `published`, the list is in
the order of the times that it shows. -/
theorem listed_in_order (env : Env) {start : Db} (hempty : start.cards = []) (events : List Event) :
    Always (step env) (fun db => AllProjected db ∧ Paged db) start events ∧
      (Along (step env) (fun db event _ => ¬ Redates db event) start events →
        Always (step env) InOrder start events) := by
  have hstart : Catalogued start := (Shelved.of_no_cards hempty).toCatalogued
  have hnone : ∀ Q, AllDocumented Q start := by
    intro Q card hcard
    rw [hempty] at hcard
    cases hcard
  constructor
  · have hinit : Documented Projects start := ⟨hstart, hnone _⟩
    refine always_of_inv (fun db event db' hi _ h => ?_) (fun db hi => ?_) hinit
      (along_true start events)
    · exact ⟨step_catalogued hi.toCatalogued h, step_projected hi.toCatalogued hi.documents h⟩
    · exact ⟨hi.documents, paged_of_projected hi.unique hi.documents⟩
  · intro hreturns
    have hinit : Documented Dated start := ⟨hstart, hnone _⟩
    refine always_of_inv (fun db event db' hi hno h => ?_) (fun db hi => ?_) hinit hreturns
    · exact ⟨step_catalogued hi.toCatalogued h, step_dated hi.toCatalogued hi.documents hno h⟩
    · exact inOrder_of_dated hi.unique hi.documents

/-- The conditions on a run in which a card is hidden and another one published. -/
theorem listed_in_order_hidden :
    let events := publishing true ++ [.lifecycle 10 4 none .hide 7 5]
    Always (step plainEnv) (fun db => AllProjected db ∧ Paged db) plainDb events ∧
      Always (step plainEnv) InOrder plainDb events :=
  ⟨(listed_in_order plainEnv rfl _).1, (listed_in_order plainEnv rfl _).2 (by decide +kernel)⟩

/-- **The list is out of order.** Card 10 is published before card 11, hidden and shown again: it
comes last in the list, with the latest time. -/
theorem listed_out_of_order :
    let start := { plainDb with uploads := [readyImage 20 7, readyImage 21 7], candidates := [] }
    ∃ db ∈ run (step plainEnv) start
        [.createComponent 10 (sensorDraft "sensor" true) [⟨20, "photo", "Sensor", none⟩] none 7 1,
         .createComponent 11 (sensorDraft "sonar" true) [⟨21, "photo", "Sonar", none⟩] none 7 1,
         .command 10 1 .submit 7 2, .approveAndPublish 10 2 7 3 4,
         .command 11 1 .submit 7 5, .approveAndPublish 11 2 7 6 7,
         .lifecycle 10 4 none .hide 7 8, .lifecycle 10 5 none .show 7 9],
      (listPublished db none none 10).1.map (fun c => (c.id, c.publishedAt)) =
          [(11, some 7), (10, some 9)] ∧
        ¬ Descending (listPublished db none none 10).1 := by
  decide +kernel

end ComponentKb.Catalog
