import ComponentKb.Catalog.Documents

/-!
# Archiving and restoring

A card that is archived keeps the status it had, and is taken out of the list and of the public
reads; restoring it brings the status back and writes the search document again. A card that was
`published` gets a new published snapshot on the way, with the time of the restoration; a card that
was a draft gets the document of the latest published snapshot, with the time of that snapshot.

* `archive_restore_iff`: both requests are accepted and the status comes back; what is read in
  public comes back just when the card is `Reversible`.
* `restored_later`: a published card and a draft that do not come back as they were.
-/

namespace ComponentKb.Catalog

open ComponentKb.Lib

/-! ## The whole document -/

/-- The document is made of the snapshot, but for its time. -/
def Rebuilt (u : Unicode) (d : PublishedSearchDocument) (r : ComponentRevision) : Prop :=
  d = searchDocument u (publishedData r.content) d.publishedAt r.revision

section Rebuilt

variable {u : Unicode} {env : Env} {event : Event} {db db' : Db}

theorem searchDocument_rebuilt (data : DraftData) (publishedAt : Time) (registry : List Source)
    (sources : List ComponentSource) (media : List ComponentMedia) (row : Component) (actor : UUID)
    (now : Time) (action : ComponentChangeAction) (previous : Option ComponentStatus) :
    Rebuilt u (searchDocument u data publishedAt row.revision)
      (Catalog.snapshot u registry sources media row data actor now action previous) := by
  unfold Rebuilt searchDocument publishedData
  simp only [filled_getD, Catalog.snapshot, columns]

theorem step_rebuilt (hi : Catalogued db) (hdb : AllDocumented (Rebuilt env.unicode) db)
    (h : step env db event = some db') : AllDocumented (Rebuilt env.unicode) db' := by
  have hfits : Fits env.unicode (Rebuilt env.unicode) :=
    ⟨fun data registry sources media row actor now =>
      searchDocument_rebuilt data now registry sources media row actor now, fun _ => rfl⟩
  exact step_documented hfits hi hdb
    (fun _ data publishedAt registry sources => searchDocument_rebuilt data publishedAt registry sources)
    h

end Rebuilt

/-! ## What is read in public of one card -/

/-- A card is read by its slug, listed and filed as before. -/
structure SameView (db db' : Db) (card card' : Card) : Prop where
  slug : (getPublished db' card'.row.slug).toOption = (getPublished db card.row.slug).toOption
  listed : card'.id ∈ publishedIds db' none none ↔ card.id ∈ publishedIds db none none
  document : card'.document = card.document

instance (db db' : Db) (card card' : Card) : Decidable (SameView db db' card card') :=
  decidable_of_iff (_ ∧ _ ∧ _)
    ⟨fun ⟨hslug, hlisted, hdocument⟩ => ⟨hslug, hlisted, hdocument⟩,
      fun h => ⟨h.slug, h.listed, h.document⟩⟩

section View

variable {db : Db} {card : Card}

theorem getPublished_eq (slug : String) :
    (getPublished db slug).toOption =
      (db.cards.find? fun card => decide (card.row.slug = slug ∧ card.row.status.visible)).bind
        (publishedCard db) := by
  unfold getPublished
  cases db.cards.find? fun card => decide (card.row.slug = slug ∧ card.row.status.visible) with
  | none => rfl
  | some card =>
    change (fromSome (publishedCard db card) CatalogError.componentNotFound).toOption =
      publishedCard db card
    cases publishedCard db card <;> rfl

/-- What `get_published` finds under the slug of a card. -/
theorem getPublished_toOption (hu : Unique db) (hcard : card ∈ db.cards) :
    (getPublished db card.row.slug).toOption =
      if card.row.status.visible then publishedCard db card else none := by
  rw [getPublished_eq]
  by_cases hvisible : card.row.status.visible
  · have hfind : (db.cards.find? fun other =>
        decide (other.row.slug = card.row.slug ∧ other.row.status.visible)) = some card := by
      obtain ⟨found, hfound⟩ : ∃ found, (db.cards.find? fun other =>
          decide (other.row.slug = card.row.slug ∧ other.row.status.visible)) = some found := by
        rw [← Option.isSome_iff_exists, List.find?_isSome]
        exact ⟨card, hcard, by simp [hvisible]⟩
      have hsame : found.row.slug = card.row.slug ∧ found.row.status.visible := by
        simpa using List.find?_some hfound
      have hmem := List.mem_of_find?_eq_some hfound
      rw [hfound, hu.eq_of_id hmem hcard (hu.slugs _ hmem _ hcard hsame.1)]
    rw [hfind, if_pos hvisible, Option.bind_some]
  · have hfind : (db.cards.find? fun other =>
        decide (other.row.slug = card.row.slug ∧ other.row.status.visible)) = none := by
      rw [List.find?_eq_none]
      intro other hother
      simp only [decide_eq_true_eq]
      rintro ⟨hslug, hno⟩
      obtain rfl := hu.eq_of_id hother hcard (hu.slugs _ hother _ hcard hslug)
      exact hvisible hno
    rw [hfind, if_neg hvisible, Option.bind_none]

/-- Writing a card that keeps its assets leaves the media tables as they are. -/
theorem put_assets {new : Card} (hu : Unique db) (hfound : db.card new.id = some card)
    (hassets : new.assets = card.assets) : (db.put new).assets = db.assets := by
  have hcards : (replace Card.id db.cards new).flatMap Card.assets =
      db.cards.flatMap Card.assets := by
    rw [replace, List.flatMap_map]
    refine List.flatMap_congr fun other hother => ?_
    by_cases hid : other.id = new.id
    · rw [if_pos hid, hassets]
      rw [hu.eq_of_id hother (Db.mem_of_card hfound) (hid.trans (Db.id_of_card hfound).symm)]
    · rw [if_neg hid]
  change db.uploads ++ (replace Card.id db.cards new).flatMap Card.assets = _
  rw [hcards]
  rfl

theorem publishedCard_congr {db' : Db} {card' : Card} (hid : card'.id = card.id)
    (hlatest : latestPublished card'.revisions = latestPublished card.revisions)
    (hcategories : db'.categories = db.categories) (hassets : db'.assets = db.assets) :
    publishedCard db' card' = publishedCard db card := by
  unfold publishedCard
  rw [hid, hlatest, hcategories, hassets]

end View

/-! ## Back and forth -/

/-- The card comes back as it was: it is hidden, or it is not `published` and its document has the
time of the snapshot it is made from, if there is one whose category is active. -/
def Reversible (db : Db) (card : Card) : Prop :=
  card.row.status = .hidden ∨ card.row.status ≠ .published ∧
    ∀ r ∈ latestPublished card.revisions,
      if (activeCategory db.categories r.content.primaryCategoryId).isSome then
        ∃ d ∈ card.document, d.publishedAt = r.createdAt
      else card.document = none

instance (db : Db) (card : Card) : Decidable (Reversible db card) :=
  inferInstanceAs (Decidable (_ ∨ _ ∧ ∀ r ∈ _, ite _ _ _))

section Archive

variable {u : Unicode} {db db' : Db} {card card' : Card} {target : ComponentStatus}
  {actor actor' : UUID} {now now' : Time}

/-- The document of a card that is restored to a status in which it can be edited. -/
theorem restored_document (hpublished : target ≠ .published) (hhidden : target ≠ .hidden)
    (hnone : card.document = none)
    (hunpublished : card.row.publishedAt = none → latestPublished card.revisions = none) :
    (card.restored u db target actor now).document =
      (latestPublished card.revisions).bind fun r =>
        (activeCategory db.categories r.content.primaryCategoryId).map fun _ =>
          searchDocument u (publishedData r.content) r.createdAt r.revision := by
  change documentRestored u db { card with row := card.row.returned target actor now } _ = _
  cases hat : card.row.publishedAt with
  | none =>
    rw [hunpublished hat]
    cases target <;> simp_all [documentRestored, Component.returned]
  | some publishedAt =>
    have hdocument : documentRestored u db { card with row := card.row.returned target actor now }
        (readData u db { card with row := card.row.returned target actor now }) =
          restoredDocument u db { card with row := card.row.returned target actor now } := by
      cases target <;> simp_all [documentRestored, Component.returned]
    rw [hdocument]
    unfold restoredDocument publishedCard
    cases latestPublished card.revisions with
    | none => simpa using hnone
    | some r =>
      cases hactive : activeCategory db.categories r.content.primaryCategoryId with
      | none => simpa [hactive] using hnone
      | some category => simp [hactive]

/-- The card after it was archived. -/
def Card.archived (card : Card) (u : Unicode) (db : Db) (actor : UUID) (now : Time) : Card :=
  card.moved u db .archived .archived actor now

theorem archive_ok (hcard : db.card card.id = some card) (hne : card.row.status ≠ .archived) :
    transition u db card.id card.row.revision .archived actor now =
      .ok (db.put (card.archived u db actor now)) := by
  have hsource : card.row.status ∈ lifecycleTransitionSources .archived :=
    (lifecycleTransitionSources_archived _).mpr hne
  unfold transition
  rw [bind_eq_ok]
  refine ⟨card, lockedAt_eq_ok.mpr ⟨hcard, rfl⟩, ?_⟩
  rw [seq_eq_ok]
  refine ⟨require_eq_ok.mpr hsource, rfl⟩

theorem restore_ok {id : UUID} {revision : Nat} (hcard : db.card id = some card)
    (hrevision : card.row.revision = revision) (harchived : card.row.status = .archived)
    (hfrom : card.row.archivedFromStatus = some target) (hne : target ≠ .archived) :
    restoreArchived u db id revision actor now =
      .ok (db.put (card.restored u db target actor now)) := by
  unfold restoreArchived
  rw [bind_eq_ok]
  refine ⟨card, lockedAt_eq_ok.mpr ⟨hcard, hrevision⟩, ?_⟩
  rw [seq_eq_ok]
  refine ⟨require_eq_ok.mpr harchived, ?_⟩
  rw [bind_eq_ok]
  refine ⟨target, fromSome_eq_ok.mpr hfrom, ?_⟩
  rw [seq_eq_ok]
  exact ⟨require_eq_ok.mpr hne, rfl⟩

/-- The card after it was archived and restored. -/
def Card.brought (card : Card) (u : Unicode) (db : Db) (actor actor' : UUID) (now now' : Time) :
    Card :=
  (card.archived u db actor now).restored u (db.put (card.archived u db actor now))
    card.row.status actor' now'

theorem archived_latest : latestPublished (card.archived u db actor now).revisions =
    latestPublished card.revisions := moved_latest (by decide)

theorem brought_latest (hne : card.row.status ≠ .published) :
    latestPublished (card.brought u db actor actor' now now').revisions =
      latestPublished card.revisions :=
  (latestPublished_append_other hne).trans archived_latest

theorem brought_hidden (hhidden : card.row.status = .hidden) :
    (card.brought u db actor actor' now now').document = none := by
  unfold Card.brought
  rw [hhidden]
  rfl

/-- The document of a card that was a draft is made anew from the latest published snapshot. -/
theorem brought_document (hok : CardOk db.categories card) (hpublished : card.row.status ≠ .published)
    (hhidden : card.row.status ≠ .hidden) :
    (card.brought u db actor actor' now now').document =
      (latestPublished card.revisions).bind fun r =>
        (activeCategory db.categories r.content.primaryCategoryId).map fun _ =>
          searchDocument u (publishedData r.content) r.createdAt r.revision := by
  have hunpublished : (card.archived u db actor now).row.publishedAt = none →
      latestPublished (card.archived u db actor now).revisions = none :=
    fun hat => archived_latest.trans (hok.unpublished hat)
  refine (restored_document hpublished hhidden rfl hunpublished).trans ?_
  rw [archived_latest]
  rfl

/-- A published card comes back with a document of a revision that it did not have. -/
theorem brought_published (hok : CardOk db.categories card) (hdocument : card.documented Projects)
    (hpublished : card.row.status = .published) :
    (card.brought u db actor actor' now now').document ≠ card.document := by
  have hformer : card.row.former = .published := by
    rw [Component.former, hok.archived (by rw [hpublished]; decide)]
    exact hpublished
  obtain ⟨publishedAt, hat⟩ := Option.isSome_iff_exists.mp (hok.published (Or.inl hformer))
  have hnew : ∃ d, (card.brought u db actor actor' now now').document = some d ∧
      d.revision = card.row.revision + 2 := by
    unfold Card.brought
    rw [hpublished]
    exact ⟨_, restored_document_published hat, rfl⟩
  obtain ⟨d, hd, hrevision⟩ := hnew
  intro hsame
  obtain ⟨r, hr, hprojects⟩ := hdocument d (hsame ▸ hd)
  have hbound := hok.bounded r (latestPublished_mem hr).1
  have := hprojects.revision
  omega

theorem brought_same_iff (hok : CardOk db.categories card) (hdocument : card.documented (Rebuilt u))
    (hpublished : card.row.status ≠ .published) (hhidden : card.row.status ≠ .hidden) :
    (card.brought u db actor actor' now now').document = card.document ↔ Reversible db card := by
  have hreversible : Reversible db card ↔ ∀ r ∈ latestPublished card.revisions,
      if (activeCategory db.categories r.content.primaryCategoryId).isSome then
        ∃ d ∈ card.document, d.publishedAt = r.createdAt
      else card.document = none := by
    unfold Reversible
    simp only [hpublished, hhidden, false_or, ne_eq, not_false_eq_true, true_and]
  rw [hreversible, brought_document hok hpublished hhidden]
  cases hr : latestPublished card.revisions with
  | none =>
    have hnone : card.document = none := by
      by_contra hsome
      obtain ⟨d, hd⟩ := Option.ne_none_iff_exists'.mp hsome
      obtain ⟨r, hr', -⟩ := hdocument d hd
      rw [hr] at hr'
      cases hr'
    simp [hnone]
  | some r =>
    simp only [Option.mem_some_iff, forall_eq', Option.bind_some]
    cases activeCategory db.categories r.content.primaryCategoryId with
    | none =>
      simp only [Option.map_none, Option.isSome_none, Bool.false_eq_true, if_false]
      exact eq_comm
    | some category =>
      simp only [Option.map_some, Option.isSome_some, if_true]
      constructor
      · intro hsame
        exact ⟨_, hsame.symm, rfl⟩
      · rintro ⟨d, hd, hdate⟩
        obtain ⟨r', hr', hrebuilt⟩ := hdocument d hd
        obtain rfl := Option.some.inj (hr.symm.trans hr')
        rw [Option.mem_def.mp hd, ← hdate, ← hrebuilt]

/-- **What is read in public of the card that comes back.** -/
theorem sameView_iff (hi : Catalogued db) (hi' : Catalogued db') (hcard : card ∈ db.cards)
    (hcard' : card' ∈ db'.cards) (hrow : card'.id = card.id ∧ card'.row.slug = card.row.slug ∧
      card'.row.status = card.row.status)
    (hlatest : card.row.status ≠ .published →
      latestPublished card'.revisions = latestPublished card.revisions)
    (hpublished : card.row.status = .published → card'.document ≠ card.document)
    (htables : db'.categories = db.categories ∧ db'.assets = db.assets) :
    SameView db db' card card' ↔ card'.document = card.document := by
  refine ⟨SameView.document, fun hdocument => ?_⟩
  have hne : card.row.status ≠ .published := fun hyes => hpublished hyes hdocument
  obtain ⟨hid, hslug, hstatus⟩ := hrow
  refine ⟨?_, ?_, hdocument⟩
  · rw [getPublished_toOption hi'.unique hcard', getPublished_toOption hi.unique hcard, hstatus,
      publishedCard_congr hid (hlatest hne) htables.1 htables.2]
  · rw [mem_publishedIds_iff hi'.unique hcard', mem_publishedIds_iff hi.unique hcard]
    unfold Card.servedInList
    rw [hstatus, hdocument, htables.1]

theorem archived_found (hcard : db.card card.id = some card) :
    (db.put (card.archived u db actor now)).card card.id = some (card.archived u db actor now) :=
  Db.put_card_self (card.archived u db actor now) hcard

theorem brought_sameView_iff (hi : Catalogued db) (hdb : AllDocumented (Rebuilt u) db)
    (hprojected : AllProjected db) (hcard : db.card card.id = some card)
    (hne : card.row.status ≠ .archived) :
    SameView db (db.put (card.brought u db actor actor' now now')) card
      (card.brought u db actor actor' now now') ↔ Reversible db card := by
  have hmem := Db.mem_of_card hcard
  have hok := hi.cards card hmem
  have hsource := (lifecycleTransitionSources_archived _).mpr hne
  have hok' : CardOk db.categories (card.brought u db actor actor' now now') :=
    restored_ok (moved_ok hok hsource) rfl hne
  have hi' : Catalogued (db.put (card.brought u db actor actor' now now')) :=
    hi.put hcard (Or.inl rfl) hok'
  have hmem' := Db.mem_of_card (Db.put_card_self (card.brought u db actor actor' now now') hcard)
  have hassets : (db.put (card.brought u db actor actor' now now')).assets = db.assets :=
    put_assets hi.unique hcard rfl
  rw [sameView_iff hi hi' hmem hmem' ⟨rfl, rfl, rfl⟩ brought_latest
    (brought_published hok (hprojected card hmem)) ⟨rfl, hassets⟩]
  by_cases hpublished : card.row.status = .published
  · have hno : ¬ Reversible db card := by
      rintro (hhidden | ⟨hnot, -⟩)
      · rw [hpublished] at hhidden
        cases hhidden
      · exact hnot hpublished
    exact iff_of_false (brought_published hok (hprojected card hmem) hpublished) hno
  · by_cases hhidden : card.row.status = .hidden
    · have hnone : card.document = none := hok.withdrawn (by rw [hhidden]; rfl)
      exact iff_of_true ((brought_hidden hhidden).trans hnone.symm) (Or.inl hhidden)
    · exact brought_same_iff hok (hdb card hmem) hpublished hhidden

end Archive

/-- **Archiving and restoring, exactly.** In every state of a run from a catalog without cards, a
card that is not archived can be archived and then restored, and has the status it had; both public
reads, the card that is shown and the search document are as they were if and only if the card is
`Reversible`. -/
theorem archive_restore_iff (env : Env) {start db : Db} (hempty : start.cards = [])
    {past : List Event} (hrun : run (step env) start past = some db) {card : Card}
    (hcard : db.card card.id = some card) (hne : card.row.status ≠ .archived)
    (actor actor' : UUID) (now now' : Time) :
    ∃ db₁ db₂ card',
      transition env.unicode db card.id card.row.revision .archived actor now = .ok db₁ ∧
      restoreArchived env.unicode db₁ card.id (card.row.revision + 1) actor' now' = .ok db₂ ∧
      db₂.card card.id = some card' ∧ card'.row.status = card.row.status ∧
      (SameView db db₂ card card' ↔ Reversible db card) := by
  have hstart : Catalogued start := (Shelved.of_no_cards hempty).toCatalogued
  have hnone : ∀ Q, AllDocumented Q start := by
    intro Q card hcard
    rw [hempty] at hcard
    cases hcard
  have hi : Documented (Rebuilt env.unicode) db := by
    refine run_inv (fun db event db' hi _ h => ?_) ⟨hstart, hnone _⟩ (along_true _ _) hrun
    exact ⟨step_catalogued hi.toCatalogued h, step_rebuilt hi.toCatalogued hi.documents h⟩
  have hprojected : Documented Projects db := by
    refine run_inv (fun db event db' hi _ h => ?_) ⟨hstart, hnone _⟩ (along_true _ _) hrun
    exact ⟨step_catalogued hi.toCatalogued h, step_projected hi.toCatalogued hi.documents h⟩
  have harchived : (db.put (card.archived env.unicode db actor now)).card card.id =
      some (card.archived env.unicode db actor now) := archived_found hcard
  have hrestore : restoreArchived env.unicode (db.put (card.archived env.unicode db actor now))
      card.id (card.row.revision + 1) actor' now' = .ok ((db.put
        (card.archived env.unicode db actor now)).put
          (card.brought env.unicode db actor actor' now now')) :=
    restore_ok harchived rfl rfl rfl hne
  refine ⟨_, _, card.brought env.unicode db actor actor' now now', archive_ok hcard hne, hrestore,
    ?_, rfl, ?_⟩
  · exact Db.put_card_self _ harchived
  · have hput : (db.put (card.archived env.unicode db actor now)).put
        (card.brought env.unicode db actor actor' now now') =
        db.put (card.brought env.unicode db actor actor' now now') := Db.put_put rfl
    change SameView db ((db.put (card.archived env.unicode db actor now)).put
      (card.brought env.unicode db actor actor' now now')) card _ ↔ _
    rw [hput]
    exact brought_sameView_iff hi.toCatalogued hi.documents hprojected.documents hcard hne

/-- A published card that was edited comes back as the draft it was, with its public view. -/
theorem archive_restore_edited :
    ∃ db ∈ run (step plainEnv) plainDb
        (publishing true ++ [.updateComponent 10 4 none (sensorDraft "sensor" true) 7 5]),
      ∃ card ∈ db.card 10, card.row.status = .draft ∧ card.document.isSome ∧
        ∃ db₁ db₂ card', transition plainUnicode db 10 card.row.revision .archived 7 6 = .ok db₁ ∧
          restoreArchived plainUnicode db₁ 10 (card.row.revision + 1) 7 7 = .ok db₂ ∧
          db₂.card 10 = some card' ∧ card'.row.status = .draft ∧ SameView db db₂ card card' := by
  obtain ⟨db, hrun, card, hcard, hstatus, hsome, hreversible⟩ :
      ∃ db ∈ run (step plainEnv) plainDb
          (publishing true ++ [.updateComponent 10 4 none (sensorDraft "sensor" true) 7 5]),
        ∃ card ∈ db.card 10, card.row.status = .draft ∧ card.document.isSome ∧
          Reversible db card := by
    decide +kernel
  have hid : card.id = 10 := Db.id_of_card hcard
  have hfound : db.card card.id = some card := hid ▸ hcard
  obtain ⟨db₁, db₂, card', harchive, hrestore, hcard', hback, hview⟩ :=
    archive_restore_iff plainEnv rfl hrun hfound (by rw [hstatus]; decide) 7 7 6 7
  rw [hid] at harchive hrestore hcard'
  exact ⟨db, hrun, card, hcard, hstatus, hsome, db₁, db₂, card', harchive, hrestore, hcard',
    hback.trans hstatus, hview.mpr hreversible⟩

/-- **A card comes back with a later publication.** Card 10 is published, archived and restored: it
is shown with the time of the restoration. If it is hidden, shown and edited before, its search
document has the time at which it was shown, and not that of its publication. -/
theorem restored_later :
    (∃ db ∈ run (step plainEnv) plainDb (publishing true), ∃ card ∈ db.card 10,
      ∃ db₁ ∈ (transition plainUnicode db 10 4 .archived 7 5).toOption,
        ∃ db₂ ∈ (restoreArchived plainUnicode db₁ 10 5 7 6).toOption, ∃ card' ∈ db₂.card 10,
          card.row.status = .published ∧ ¬ SameView db db₂ card card' ∧
            (getPublished db "sensor").toOption.map CatalogCard.publishedAt = some (some 4) ∧
            (getPublished db₂ "sensor").toOption.map CatalogCard.publishedAt = some (some 6)) ∧
    ∃ db ∈ run (step plainEnv) plainDb
        (publishing true ++ [.lifecycle 10 4 none .hide 7 5, .lifecycle 10 5 none .show 7 6,
          .updateComponent 10 6 none (sensorDraft "sensor" true) 7 7]), ∃ card ∈ db.card 10,
      ∃ db₁ ∈ (transition plainUnicode db 10 7 .archived 7 8).toOption,
        ∃ db₂ ∈ (restoreArchived plainUnicode db₁ 10 8 7 9).toOption, ∃ card' ∈ db₂.card 10,
          card.row.status = .draft ∧
            card.document.map PublishedSearchDocument.publishedAt = some 4 ∧
            card'.document.map PublishedSearchDocument.publishedAt = some 6 := by
  constructor
  · decide +kernel
  · decide +kernel

end ComponentKb.Catalog
