import ComponentKb.Catalog.Effects

/-!
# Public visibility

A card is read in public in two ways: by its slug, from the snapshot of its latest published
revision (`get_published`), and in the list, through its search document (`list_published`).

* `Coherent`: both ways show the same cards.
* `CardOk`, `Filed`: what every transaction keeps, and what every transaction keeps but a merge into
  a withdrawn card.
* `coherent_iff`: along a run the two ways agree, and cards come back only by being shown, restored
  or published, exactly when no merge takes a withdrawn card that was published as its survivor.
* `merge_reopens`: such a merge.
-/

namespace ComponentKb.Catalog

open ComponentKb.Lib

/-! ## Categories -/

section Categories

variable {categories : List Category} {id : UUID}

/-- A category is there. -/
abbrev Known (categories : List Category) (id : UUID) : Prop :=
  (lookup Category.id categories id).isSome

theorem known_of_active {category : Category} (h : category ∈ categories) :
    Known categories category.id :=
  lookup_isSome.mpr ⟨category, h, rfl⟩

theorem Known.append (h : Known categories id) (category : Category) :
    Known (categories ++ [category]) id := by
  rw [Known, lookup_append_of_isSome h]
  exact h

theorem Known.replace (h : Known categories id) (category : Category) :
    Known (Lib.replace Category.id categories category) id := by
  rw [Known, lookup_replace]
  split
  · simpa using h
  · exact h

theorem activeCategory_append (h : Known categories id) (category : Category) :
    activeCategory (categories ++ [category]) id = activeCategory categories id := by
  unfold activeCategory
  rw [lookup_append_of_isSome h]

/-- Deactivating a category activates none. -/
theorem activeCategory_deactivated {category : Category} {c : Category}
    (h : activeCategory (replace Category.id categories { category with isActive := false }) id =
      some c) : activeCategory categories id = some c := by
  unfold activeCategory at h ⊢
  rw [lookup_replace] at h
  split at h
  · cases hlookup : lookup Category.id categories id with
    | none =>
      rw [hlookup] at h
      cases h
    | some old =>
      rw [hlookup] at h
      obtain ⟨rfl, hactive⟩ : _ ∧ c.isActive = true := by simpa using h
      cases hactive
  · exact h

end Categories

/-! ## The two public reads -/

/-- Both public reads show the same cards. -/
def Coherent (db : Db) : Prop :=
  ∀ card ∈ db.cards,
    (∃ c, getPublished db card.row.slug = .ok c) ↔ card.id ∈ publishedIds db none none

/-- A card can be read in public, in one way or the other. -/
def Readable (db : Db) (id : UUID) : Prop :=
  ∃ card ∈ db.cards, card.id = id ∧
    ((∃ c, getPublished db card.row.slug = .ok c) ∨ id ∈ publishedIds db none none)

instance (db : Db) (slug : String) : Decidable (∃ c, getPublished db slug = .ok c) :=
  match h : getPublished db slug with
  | .ok c => isTrue ⟨c, rfl⟩
  | .error _ => isFalse (by simp)

instance (db : Db) : Decidable (Coherent db) := by
  unfold Coherent
  infer_instance

instance (db : Db) (id : UUID) : Decidable (Readable db id) := by
  unfold Readable
  infer_instance

/-- What `get_published` asks of a card. -/
def Card.servedBySlug (categories : List Category) (card : Card) : Prop :=
  card.row.status.visible ∧ ∃ r, latestPublished card.revisions = some r ∧
    (activeCategory categories r.content.primaryCategoryId).isSome

/-- What `list_published` asks of a card. -/
def Card.servedInList (categories : List Category) (card : Card) : Prop :=
  card.row.status.visible ∧ ∃ d, card.document = some d ∧
    (activeCategory categories d.categoryId).isSome

/-- Ids and slugs are unique. -/
structure Unique (db : Db) : Prop where
  ids : (db.cards.map Card.id).Nodup
  slugs : ∀ a ∈ db.cards, ∀ b ∈ db.cards, a.row.slug = b.row.slug → a.id = b.id

theorem Unique.eq_of_id {db : Db} (h : Unique db) {a b : Card} (ha : a ∈ db.cards)
    (hb : b ∈ db.cards) (hid : a.id = b.id) : a = b :=
  List.inj_on_of_nodup_map h.ids ha hb hid

theorem publishedCard_isSome {db : Db} {card : Card} :
    (publishedCard db card).isSome ↔ ∃ r, latestPublished card.revisions = some r ∧
      (activeCategory db.categories r.content.primaryCategoryId).isSome := by
  unfold publishedCard
  cases latestPublished card.revisions with
  | none => simp
  | some r => cases h : activeCategory db.categories r.content.primaryCategoryId <;> simp [h]

theorem getPublished_iff {db : Db} {card : Card} (hu : Unique db) (hcard : card ∈ db.cards) :
    (∃ c, getPublished db card.row.slug = .ok c) ↔ card.servedBySlug db.categories := by
  unfold getPublished Card.servedBySlug
  rw [← publishedCard_isSome]
  constructor
  · rintro ⟨c, h⟩
    obtain ⟨found, hfound, hserved⟩ := bind_eq_ok.mp h
    replace hfound := fromSome_eq_ok.mp hfound
    have hvisible : found.row.slug = card.row.slug ∧ found.row.status.visible := by
      simpa using List.find?_some hfound
    have hmem := List.mem_of_find?_eq_some hfound
    obtain rfl := hu.eq_of_id hmem hcard (hu.slugs _ hmem _ hcard hvisible.1)
    exact ⟨hvisible.2, Option.isSome_iff_exists.mpr ⟨c, fromSome_eq_ok.mp hserved⟩⟩
  · rintro ⟨hvisible, hpublished⟩
    obtain ⟨found, hfound⟩ : ∃ found, (db.cards.find? fun other =>
        decide (other.row.slug = card.row.slug ∧ other.row.status.visible)) = some found := by
      rw [← Option.isSome_iff_exists, List.find?_isSome]
      exact ⟨card, hcard, by simp [hvisible]⟩
    have hsame : found.row.slug = card.row.slug ∧ found.row.status.visible := by
      simpa using List.find?_some hfound
    have hmem := List.mem_of_find?_eq_some hfound
    obtain rfl := hu.eq_of_id hmem hcard (hu.slugs _ hmem _ hcard hsame.1)
    obtain ⟨c, hc⟩ := Option.isSome_iff_exists.mp hpublished
    exact ⟨c, bind_eq_ok.mpr ⟨found, fromSome_eq_ok.mpr hfound, fromSome_eq_ok.mpr hc⟩⟩

theorem listed_isSome {categories : List Category} {card : Card} :
    (listed categories none none card).isSome ↔ card.servedInList categories := by
  unfold listed Card.servedInList
  cases card.document with
  | none => simp
  | some d => simp [Option.filter]

theorem mem_publishedIds_iff {db : Db} {card : Card} (hu : Unique db) (hcard : card ∈ db.cards) :
    card.id ∈ publishedIds db none none ↔ card.servedInList db.categories := by
  unfold publishedIds
  rw [← listed_isSome]
  simp only [List.mem_map, List.mem_insertionSort, List.mem_filterMap, Option.map_eq_some_iff]
  constructor
  · rintro ⟨_, ⟨found, hfound, d, hd, rfl⟩, hid⟩
    obtain rfl := hu.eq_of_id hfound hcard hid
    rw [hd]
    rfl
  · intro h
    obtain ⟨d, hd⟩ := Option.isSome_iff_exists.mp h
    exact ⟨_, ⟨card, hcard, d, hd, rfl⟩, rfl⟩

/-- A card served in neither way can be read in public in neither way. -/
theorem readable_iff {db : Db} {card : Card} (hu : Unique db) (hcard : card ∈ db.cards) :
    Readable db card.id ↔ card.servedBySlug db.categories ∨ card.servedInList db.categories := by
  rw [← getPublished_iff hu hcard, ← mem_publishedIds_iff hu hcard]
  constructor
  · rintro ⟨found, hfound, hid, h⟩
    obtain rfl := hu.eq_of_id hfound hcard hid
    exact h
  · intro h
    exact ⟨card, hcard, rfl, h⟩

/-! ## The latest published revision -/

section Latest

variable {revisions : List ComponentRevision} {r : ComponentRevision}

theorem latestPublished_eq : latestPublished revisions =
    (revisions.filter (·.status = .published)).foldl (fun latest r =>
      latest.elim (some r) fun l => if l.revision < r.revision then some r else some l) none := by
  unfold latestPublished
  congr
  funext latest r
  cases latest <;> rfl

theorem latestPublished_mem (h : latestPublished revisions = some r) :
    r ∈ revisions ∧ r.status = .published := by
  have hfold : ∀ (rs : List ComponentRevision) (acc : Option ComponentRevision),
      rs.foldl (fun latest r =>
        latest.elim (some r) fun l => if l.revision < r.revision then some r else some l) acc =
          some r →
      acc = some r ∨ r ∈ rs := by
    intro rs
    induction rs with
    | nil =>
      intro acc hacc
      exact Or.inl hacc
    | cons s rs ih =>
      intro acc hacc
      rcases ih _ hacc with hs | hmem
      · cases acc with
        | none => exact Or.inr (List.mem_cons.mpr (Or.inl (Option.some.inj hs).symm))
        | some l =>
          change (if l.revision < s.revision then some s else some l) = some r at hs
          split at hs
          · exact Or.inr (List.mem_cons.mpr (Or.inl (Option.some.inj hs).symm))
          · exact Or.inl hs
      · exact Or.inr (List.mem_cons_of_mem _ hmem)
  rcases hfold _ none (latestPublished_eq ▸ h) with hno | hmem
  · cases hno
  · obtain ⟨hmem, hstatus⟩ := List.mem_filter.mp hmem
    exact ⟨hmem, by simpa using hstatus⟩

theorem latestPublished_append_other (h : r.status ≠ .published) :
    latestPublished (revisions ++ [r]) = latestPublished revisions := by
  unfold latestPublished
  rw [List.filter_append, List.filter_cons_of_neg (by simpa using h), List.filter_nil,
    List.append_nil]

/-- A published revision newer than all others is the latest. -/
theorem latestPublished_append (h : r.status = .published)
    (hnewer : ∀ s ∈ revisions, s.revision < r.revision) :
    latestPublished (revisions ++ [r]) = some r := by
  have hsplit : latestPublished (revisions ++ [r]) = (latestPublished revisions).elim (some r)
      fun l => if l.revision < r.revision then some r else some l := by
    rw [latestPublished_eq, latestPublished_eq, List.filter_append,
      List.filter_cons_of_pos (by simpa using h), List.filter_nil, List.foldl_append]
    rfl
  rw [hsplit]
  cases hlatest : latestPublished revisions with
  | none => rfl
  | some l => exact if_pos (hnewer l (latestPublished_mem hlatest).1)

end Latest

/-! ## The invariant of every transaction -/

/-- The status a card has, or comes back to when it is restored. -/
def Component.former (row : Component) : ComponentStatus := row.archivedFromStatus.getD row.status

/-- What holds of every card. -/
structure CardOk (categories : List Category) (card : Card) : Prop where
  bounded : ∀ r ∈ card.revisions, r.revision ≤ card.row.revision
  category : Known categories card.row.primaryCategoryId
  filed : ∀ r ∈ card.revisions, Known categories r.content.primaryCategoryId
  unpublished : card.row.publishedAt = none → latestPublished card.revisions = none
  published : card.row.former = .published ∨ card.row.former = .hidden →
    card.row.publishedAt.isSome
  archived : card.row.status ≠ .archived → card.row.archivedFromStatus = none
  withdrawn : card.row.status.visible = false → card.document = none

/-- The search document of a visible card is that of its latest published snapshot; it may be
missing when the category of the snapshot was deactivated. -/
def Filed (categories : List Category) (card : Card) : Prop :=
  card.row.status.visible →
    card.document.map PublishedSearchDocument.categoryId =
        (latestPublished card.revisions).map (·.content.primaryCategoryId) ∨
      card.document = none ∧ ∀ r, latestPublished card.revisions = some r →
        activeCategory categories r.content.primaryCategoryId = none

/-- A filed card is served in both ways or in neither. -/
theorem Filed.served_iff {categories : List Category} {card : Card} (h : Filed categories card) :
    card.servedBySlug categories ↔ card.servedInList categories := by
  unfold Card.servedBySlug Card.servedInList
  refine and_congr_right fun hvisible => ?_
  rcases h hvisible with hsame | ⟨hnone, hinactive⟩
  · cases hdocument : card.document with
    | none =>
      rw [hdocument] at hsame
      cases hlatest : latestPublished card.revisions with
      | none => simp
      | some r =>
        rw [hlatest] at hsame
        cases hsame
    | some d =>
      rw [hdocument] at hsame
      cases hlatest : latestPublished card.revisions with
      | none =>
        rw [hlatest] at hsame
        cases hsame
      | some r =>
        rw [hlatest] at hsame
        have hcategory : d.categoryId = r.content.primaryCategoryId := Option.some.inj hsame
        simp [hcategory]
  · constructor
    · rintro ⟨r, hr, hactive⟩
      rw [hinactive r hr] at hactive
      cases hactive
    · rintro ⟨d, hd, -⟩
      rw [hnone] at hd
      cases hd

/-- A card with one more revision. -/
theorem CardOk.recorded {categories : List Category} {card card' : Card} {r : ComponentRevision}
    (h : CardOk categories card) (hrevisions : card'.revisions = card.revisions ++ [r])
    (hrevision : card'.row.revision = card.row.revision + 1)
    (hr : r.revision = card'.row.revision ∧ r.status = card'.row.status ∧
      r.content.primaryCategoryId = card'.row.primaryCategoryId)
    (hcategory : Known categories card'.row.primaryCategoryId)
    (hunpublished : card'.row.publishedAt = none → card.row.publishedAt = none)
    (hpublished : card'.row.former = .published ∨ card'.row.former = .hidden →
      card'.row.publishedAt.isSome)
    (harchived : card'.row.status ≠ .archived → card'.row.archivedFromStatus = none)
    (hwithdrawn : card'.row.status.visible = false → card'.document = none) :
    CardOk categories card' := by
  obtain ⟨hnumber, hstatus, hfiled⟩ := hr
  refine ⟨?_, hcategory, ?_, ?_, hpublished, harchived, hwithdrawn⟩
  · intro s hs
    rw [hrevisions] at hs
    rcases List.mem_append.mp hs with hs | hs
    · have := h.bounded s hs
      omega
    · rw [List.mem_singleton.mp hs, hnumber]
  · intro s hs
    rw [hrevisions] at hs
    rcases List.mem_append.mp hs with hs | hs
    · exact h.filed s hs
    · rw [List.mem_singleton.mp hs, hfiled]
      exact hcategory
  · intro hnone
    have hother : r.status ≠ .published := by
      intro hpub
      rw [hstatus] at hpub
      have hfrom := harchived (by rw [hpub]; decide)
      have hformer : card'.row.former = .published := by rw [Component.former, hfrom]; exact hpub
      have := hpublished (Or.inl hformer)
      rw [hnone] at this
      cases this
    rw [hrevisions, latestPublished_append_other hother]
    exact h.unpublished (hunpublished hnone)

/-- The new revision is newer than those before. -/
theorem CardOk.newer {categories : List Category} {card : Card} {n : Nat}
    (h : CardOk categories card) (hn : n = card.row.revision + 1) :
    ∀ s ∈ card.revisions, s.revision < n := by
  intro s hs
  have := h.bounded s hs
  omega

/-! ## One card -/

section Cards

variable {u : Unicode} {db : Db} {categories : List Category} {card card' : Card} {actor : UUID}
  {now : Time}

/-- Served in public, in one way or the other. -/
def Card.served (categories : List Category) (card : Card) : Prop :=
  card.servedBySlug categories ∨ card.servedInList categories

theorem ComponentStatus.visible_of_editable {s : ComponentStatus} (h : s.editable) :
    s.visible := by
  cases s <;> simp_all [ComponentStatus.editable, ComponentStatus.visible]

theorem Filed.of_same (h : Filed categories card) (hvisible : card.row.status.visible)
    (hdocument : card'.document = card.document)
    (hlatest : latestPublished card'.revisions = latestPublished card.revisions) :
    Filed categories card' := by
  intro _
  rw [hdocument, hlatest]
  exact h hvisible

theorem Filed.of_published {d : PublishedSearchDocument} {r : ComponentRevision}
    (hdocument : card'.document = some d) (hlatest : latestPublished card'.revisions = some r)
    (hcategory : d.categoryId = r.content.primaryCategoryId) : Filed categories card' := by
  intro _
  rw [hdocument, hlatest]
  exact Or.inl (congrArg some hcategory)

theorem Filed.of_withdrawn (h : card'.row.status.visible = false) : Filed categories card' := by
  intro hvisible
  rw [h] at hvisible
  cases hvisible

theorem served_of_same (hvisible : card.row.status.visible)
    (hdocument : card'.document = card.document)
    (hlatest : latestPublished card'.revisions = latestPublished card.revisions)
    (h : card'.served categories) : card.served categories := by
  rcases h with ⟨-, h⟩ | ⟨-, h⟩
  · rw [hlatest] at h
    exact Or.inl ⟨hvisible, h⟩
  · rw [hdocument] at h
    exact Or.inr ⟨hvisible, h⟩

theorem not_served (h : card.row.status.visible = false) : ¬ card.served categories := by
  rintro (⟨hvisible, -⟩ | ⟨hvisible, -⟩)
  · rw [h] at hvisible
    cases hvisible
  · rw [h] at hvisible
    cases hvisible

/-! ### Edits -/

theorem Edited.latest (h : Edited db card card') :
    latestPublished card'.revisions = latestPublished card.revisions := by
  rcases h.revisions with ⟨hsame, -⟩ | ⟨r, hrevisions, -, -, hstatus, -⟩
  · rw [hsame]
  · rw [hrevisions]
    exact latestPublished_append_other (by rw [hstatus]; decide)

theorem Edited.ok (h : Edited db card card') (hok : CardOk db.categories card) :
    CardOk db.categories card' := by
  have hcategory : Known db.categories card'.row.primaryCategoryId := by
    rcases h.category with hsame | ⟨category, hmem, hid, -⟩
    · rw [hsame]
      exact hok.category
    · rw [← hid]
      exact known_of_active hmem
  have hformer : card'.row.former = .draft := by
    rw [Component.former, h.archivedFrom]
    exact h.status
  have hpublished : card'.row.former = .published ∨ card'.row.former = .hidden →
      card'.row.publishedAt.isSome := by
    rintro (hno | hno)
    · rw [hformer] at hno
      cases hno
    · rw [hformer] at hno
      cases hno
  have hwithdrawn : card'.row.status.visible = false → card'.document = none := by
    intro hno
    rw [h.status] at hno
    cases hno
  rcases h.revisions with ⟨hsame, hrevision⟩ | ⟨r, hrevisions, hrevision, hnumber, hstatus, hfiled, -⟩
  · refine ⟨?_, hcategory, ?_, ?_, hpublished, fun _ => h.archivedFrom, hwithdrawn⟩
    · rw [hsame, hrevision]
      exact hok.bounded
    · rw [hsame]
      exact hok.filed
    · rw [hsame, h.publishedAt]
      exact hok.unpublished
  · refine hok.recorded hrevisions hrevision ⟨hnumber, hstatus.trans h.status.symm, hfiled⟩ hcategory
      ?_ hpublished (fun _ => h.archivedFrom) hwithdrawn
    rw [h.publishedAt]
    exact fun hnone => hnone

theorem Edited.filed (h : Edited db card card') (hfiled : Filed categories card) :
    Filed categories card' :=
  hfiled.of_same (ComponentStatus.visible_of_editable h.editable) h.document h.latest

theorem Edited.served (h : Edited db card card') (hserved : card'.served categories) :
    card.served categories :=
  served_of_same (ComponentStatus.visible_of_editable h.editable) h.document h.latest hserved

/-! ### Transitions -/

theorem moved_ok {target : ComponentStatus} {action : ComponentChangeAction}
    (hok : CardOk categories card) (hsource : card.row.status ∈ lifecycleTransitionSources target) :
    CardOk categories (card.moved u db target action actor now) := by
  refine hok.recorded rfl rfl ⟨rfl, rfl, rfl⟩ hok.category ?_ ?_ ?_ ?_
  · intro hnone
    cases target <;> first | exact hnone | cases hnone
  · intro hformer
    cases target with
    | published => rfl
    | hidden =>
      have hpublished : card.row.status = .published := List.mem_singleton.mp hsource
      refine hok.published (Or.inl ?_)
      rw [Component.former, hok.archived (by rw [hpublished]; decide)]
      exact hpublished
    | archived =>
      have hne := (lifecycleTransitionSources_archived _).mp hsource
      refine hok.published ?_
      rw [Component.former, hok.archived hne]
      exact hformer
    | draft | inReview | changesRequested | approved =>
      rcases hformer with hno | hno <;> cases hno
  · intro hne
    exact if_neg hne
  · intro hvisible
    cases target <;> first | rfl | cases hvisible

/-- A transition to any status but `published` leaves the public face as it was, or takes it away. -/
theorem moved_latest {target : ComponentStatus} {action : ComponentChangeAction}
    (hne : target ≠ .published) :
    latestPublished (card.moved u db target action actor now).revisions =
      latestPublished card.revisions :=
  latestPublished_append_other hne

/-- The statuses that a transition to a visible one starts from are visible. -/
theorem visible_of_source {s target : ComponentStatus}
    (h : s ∈ lifecycleTransitionSources target) (hvisible : target.visible) : s.visible := by
  cases target <;> cases s <;> simp_all [lifecycleTransitionSources, ComponentStatus.visible]

theorem moved_filed {target : ComponentStatus} {action : ComponentChangeAction}
    (hok : CardOk categories card) (hfiled : Filed categories card)
    (hsource : card.row.status ∈ lifecycleTransitionSources target) :
    Filed categories (card.moved u db target action actor now) := by
  cases htarget : target with
  | hidden => exact .of_withdrawn rfl
  | archived => exact .of_withdrawn rfl
  | published =>
    exact .of_published rfl (latestPublished_append rfl (hok.newer rfl)) rfl
  | draft | inReview | changesRequested | approved =>
    subst htarget
    exact hfiled.of_same (visible_of_source hsource rfl) rfl (moved_latest (by decide))

theorem moved_served {target : ComponentStatus} {action : ComponentChangeAction}
    (hsource : card.row.status ∈ lifecycleTransitionSources target) (hne : target ≠ .published)
    (hserved : (card.moved u db target action actor now).served categories) :
    card.served categories := by
  cases htarget : target with
  | hidden | archived =>
    subst htarget
    exact absurd hserved (not_served rfl)
  | published => exact absurd htarget hne
  | draft | inReview | changesRequested | approved =>
    subst htarget
    refine served_of_same (visible_of_source hsource rfl) ?_ ?_ hserved
    · rfl
    · exact moved_latest (by decide)

/-! ### Show and restore -/

theorem shown_ok {publishedAt : Time} (hok : CardOk categories card)
    (hpublished : card.row.publishedAt = some publishedAt) :
    CardOk categories (card.shown u db publishedAt actor now) := by
  refine hok.recorded rfl rfl ⟨rfl, rfl, rfl⟩ hok.category (fun h => h) ?_ (fun _ => rfl) ?_
  · intro _
    exact Option.isSome_of_eq_some hpublished
  · intro hno
    cases hno

theorem shown_filed {publishedAt : Time} (hok : CardOk categories card) :
    Filed categories (card.shown u db publishedAt actor now) :=
  .of_published rfl (latestPublished_append rfl (hok.newer rfl)) rfl

theorem restored_ok {target : ComponentStatus} (hok : CardOk categories card)
    (hfrom : card.row.archivedFromStatus = some target) (hne : target ≠ .archived) :
    CardOk categories (card.restored u db target actor now) := by
  refine hok.recorded rfl rfl ⟨rfl, rfl, rfl⟩ hok.category (fun h => h) ?_ (fun _ => rfl) ?_
  · intro hformer
    refine hok.published ?_
    rw [Component.former, hfrom]
    exact hformer
  · intro hno
    cases target with
    | hidden => rfl
    | archived => exact absurd rfl hne
    | draft | inReview | changesRequested | approved | published => cases hno

/-- The document that is restored is that of the latest published snapshot. -/
theorem restoredDocument_filed (hnone : card.document = none) :
    (restoredDocument u db card).map PublishedSearchDocument.categoryId =
        (latestPublished card.revisions).map (·.content.primaryCategoryId) ∨
      restoredDocument u db card = none ∧ ∀ r, latestPublished card.revisions = some r →
        activeCategory db.categories r.content.primaryCategoryId = none := by
  unfold restoredDocument publishedCard
  cases hlatest : latestPublished card.revisions with
  | none =>
    left
    simpa using hnone
  | some r =>
    cases hactive : activeCategory db.categories r.content.primaryCategoryId with
    | none =>
      right
      refine ⟨?_, ?_⟩
      · simpa [hactive] using hnone
      · rintro r' hr
        cases hr
        exact hactive
    | some category =>
      left
      simp only [Option.bind_eq_bind, Option.bind_some, hactive]
      rfl

/-- The document of a card that is restored to `published`, with the time of its publication. -/
theorem restored_document_published {publishedAt : Time}
    (hat : card.row.publishedAt = some publishedAt) :
    (card.restored u db .published actor now).document = some (searchDocument u
      (readData u db { card with row := card.row.returned .published actor now }) publishedAt
      (card.row.revision + 1)) := by
  change documentRestored u db { card with row := card.row.returned .published actor now } _ = _
  simp [documentRestored, Component.returned, hat]

theorem restored_filed {target : ComponentStatus} (hok : CardOk db.categories card)
    (harchived : card.row.status = .archived) (hfrom : card.row.archivedFromStatus = some target) :
    Filed db.categories (card.restored u db target actor now) := by
  have hnone : card.document = none := hok.withdrawn (by rw [harchived]; rfl)
  by_cases hhidden : target = .hidden
  · subst hhidden
    exact .of_withdrawn rfl
  by_cases hpublished : target = .published
  · subst hpublished
    have hsome : card.row.publishedAt.isSome :=
      hok.published (by rw [Component.former, hfrom]; exact Or.inl rfl)
    obtain ⟨publishedAt, hat⟩ := Option.isSome_iff_exists.mp hsome
    exact .of_published (restored_document_published hat) (latestPublished_append rfl (hok.newer rfl)) rfl
  · -- the document comes from the latest published snapshot, if there is one
    intro _
    have hlatest : latestPublished (card.restored u db target actor now).revisions =
        latestPublished card.revisions := latestPublished_append_other hpublished
    rw [hlatest]
    cases hat : card.row.publishedAt with
    | none =>
      left
      have hdocument : (card.restored u db target actor now).document = none := by
        change documentRestored u db { card with row := card.row.returned target actor now } _ = _
        cases target <;> simp_all [documentRestored, Component.returned]
      rw [hdocument, hok.unpublished hat]
      rfl
    | some publishedAt =>
      have hdocument : (card.restored u db target actor now).document =
          restoredDocument u db { card with row := card.row.returned target actor now } := by
        change documentRestored u db { card with row := card.row.returned target actor now } _ = _
        cases target <;> simp_all [documentRestored, Component.returned]
      rw [hdocument]
      exact restoredDocument_filed hnone

/-! ### Merges and new cards -/

/-- The survivor before it goes back to a draft is the card it was, but for its fields. -/
theorem Merging.category_known {survivorId loserId : UUID} {survivor next loser : Card}
    {data : DraftData} (h : Merging u db survivorId loserId survivor next loser data)
    (hok : CardOk db.categories survivor) :
    Known db.categories next.row.primaryCategoryId := by
  rcases h.category with hsame | ⟨category, hmem, hid, -⟩
  · rw [hsame]
    exact hok.category
  · rw [← hid]
    exact known_of_active hmem

theorem merged_ok {survivorId loserId : UUID} {survivor next loser : Card} {data : DraftData}
    {db₁ : Db} (h : Merging u db survivorId loserId survivor next loser data)
    (hok : CardOk db.categories survivor) :
    CardOk db.categories (next.merged u db₁ loser survivor.row.status data actor now) := by
  obtain ⟨row, details, hnext⟩ := h.details
  have hrevisions : next.revisions = survivor.revisions := by rw [hnext]
  have hcolumns : next.row.revision = survivor.row.revision ∧
      next.row.publishedAt = survivor.row.publishedAt := by
    obtain ⟨cols, hrow | hrow⟩ := h.row
    · rw [hrow]
      exact ⟨rfl, rfl⟩
    · rw [hrow]
      exact ⟨rfl, rfl⟩
  refine hok.recorded (r := Catalog.snapshot u db₁.sources (next.sources ++ loser.sources)
    (mediaBeforeFlush next.assets (mergedAssets next.assets loser.assets))
    (next.row.edited actor now true) data actor now .merged (some survivor.row.status))
    ?_ ?_ ⟨rfl, rfl, h.data⟩ (h.category_known hok) ?_ ?_ (fun _ => rfl) ?_
  · rw [← hrevisions]
    rfl
  · rw [← hcolumns.1]
    rfl
  · rw [← hcolumns.2]
    exact fun hnone => hnone
  · rintro (hno | hno) <;> cases hno
  · intro hno
    cases hno

theorem merged_latest {survivorId loserId : UUID} {survivor next loser : Card} {data : DraftData}
    {db₁ : Db} (h : Merging u db survivorId loserId survivor next loser data) :
    latestPublished (next.merged u db₁ loser survivor.row.status data actor now).revisions =
      latestPublished survivor.revisions := by
  obtain ⟨row, details, hnext⟩ := h.details
  have hrevisions : next.revisions = survivor.revisions := by rw [hnext]
  rw [← hrevisions]
  exact latestPublished_append_other (by change ComponentStatus.draft ≠ .published; decide)

theorem merged_document {survivorId loserId : UUID} {survivor next loser : Card} {data : DraftData}
    {db₁ : Db} (h : Merging u db survivorId loserId survivor next loser data) :
    (next.merged u db₁ loser survivor.row.status data actor now).document = survivor.document := by
  obtain ⟨row, details, hnext⟩ := h.details
  rw [hnext]
  rfl

/-- Archived by a merge, a card comes back to the status it had or would have come back to. -/
theorem Component.mergedAway_former {row : Component}
    (h : row.status ≠ .archived → row.archivedFromStatus = none) :
    (row.mergedAway actor now).former = row.former := by
  unfold Component.former
  by_cases harchived : row.status = .archived
  · have hsame : (row.mergedAway actor now).archivedFromStatus = row.archivedFromStatus :=
      if_pos harchived
    rw [hsame, harchived]
    rfl
  · have hsame : (row.mergedAway actor now).archivedFromStatus = some row.status := if_neg harchived
    rw [hsame, h harchived]
    rfl

theorem mergedAway_ok {assets : List MediaAsset} (hok : CardOk categories card) :
    CardOk categories (card.mergedAway u db assets actor now) := by
  refine hok.recorded rfl rfl ⟨rfl, rfl, rfl⟩ hok.category (fun h => h) ?_ ?_ (fun _ => rfl)
  · intro hformer
    refine hok.published ?_
    have hsame : (card.row.mergedAway actor now).former = card.row.former :=
      Component.mergedAway_former hok.archived
    rw [← hsame]
    exact hformer
  · intro hno
    exact absurd rfl hno

theorem newCard_ok {id : UUID} {data : DraftData} {details : Details} {assets : List MediaAsset}
    (hvalid : validate u categories data = .ok ()) :
    CardOk categories (newCard u db id data details assets actor now) := by
  obtain ⟨category, hmem, hid, -⟩ := validate_category hvalid
  have hknown : Known categories data.primaryCategoryId := hid ▸ known_of_active hmem
  refine ⟨?_, hknown, ?_, ?_, ?_, fun _ => rfl, fun _ => rfl⟩
  · intro r hr
    rw [List.mem_singleton.mp hr]
    exact le_refl _
  · intro r hr
    rw [List.mem_singleton.mp hr]
    exact hknown
  · intro _
    rfl
  · rintro (hno | hno) <;> cases hno

/-! ### What else is written to a card -/

/-- The same card but for what is not shown in public. -/
structure SameFace (card card' : Card) : Prop where
  row : card'.row = card.row
  revisions : card'.revisions = card.revisions
  document : card'.document = card.document

theorem SameFace.id (h : SameFace card card') : card'.id = card.id := congrArg Component.id h.row

theorem SameFace.ok (h : SameFace card card') (hok : CardOk categories card) :
    CardOk categories card' := by
  refine ⟨?_, ?_, ?_, ?_, ?_, ?_, ?_⟩
  · rw [h.revisions, h.row]
    exact hok.bounded
  · rw [h.row]
    exact hok.category
  · rw [h.revisions]
    exact hok.filed
  · rw [h.revisions, h.row]
    exact hok.unpublished
  · rw [h.row]
    exact hok.published
  · rw [h.row]
    exact hok.archived
  · rw [h.row, h.document]
    exact hok.withdrawn

theorem SameFace.filed (h : SameFace card card') (hfiled : Filed categories card) :
    Filed categories card' := by
  unfold Filed
  rw [h.row, h.revisions, h.document]
  exact hfiled

theorem SameFace.served (h : SameFace card card') (hserved : card'.served categories) :
    card.served categories := by
  unfold Card.served Card.servedBySlug Card.servedInList at hserved ⊢
  rw [h.row, h.revisions, h.document] at hserved
  exact hserved

end Cards

/-! ## Transactions -/

/-- The invariant of the catalog: unique ids and slugs, and what holds of every card. -/
structure Catalogued (db : Db) : Prop where
  unique : Unique db
  cards : ∀ card ∈ db.cards, CardOk db.categories card

/-- Every card is filed. -/
def AllFiled (db : Db) : Prop := ∀ card ∈ db.cards, Filed db.categories card

section Transactions

variable {u : Unicode} {event : Event} {db db' : Db}

theorem Catalogued.of_same (h : Catalogued db) (hsame : SameTables db db') : Catalogued db' := by
  refine ⟨⟨?_, ?_⟩, ?_⟩
  · rw [hsame.cards]
    exact h.unique.ids
  · rw [hsame.cards]
    exact h.unique.slugs
  · rw [hsame.cards, hsame.categories]
    exact h.cards

theorem AllFiled.of_same (h : AllFiled db) (hsame : SameTables db db') : AllFiled db' := by
  unfold AllFiled
  rw [hsame.cards, hsame.categories]
  exact h

/-- The slug of a changed card is the one it had, or a free one. -/
def SlugFits (db : Db) (old new : Card) : Prop :=
  new.row.slug = old.row.slug ∨
    ∀ other ∈ db.cards, other.row.slug = new.row.slug → other.id = new.id

theorem Catalogued.put {new old : Card} (h : Catalogued db) (hfound : db.card new.id = some old)
    (hslug : SlugFits db old new) (hnew : CardOk db.categories new) : Catalogued (db.put new) := by
  have hold := Db.mem_of_card hfound
  have hid := Db.id_of_card hfound
  have hfree : ∀ other ∈ db.cards, other.row.slug = new.row.slug → other.id = new.id := by
    intro other hother hsame
    rcases hslug with hslug | hslug
    · rw [h.unique.slugs other hother old hold (hsame.trans hslug), hid]
    · exact hslug other hother hsame
  refine ⟨⟨?_, ?_⟩, ?_⟩
  · unfold Db.put
    rw [map_key_replace]
    exact h.unique.ids
  · intro a ha b hb hsame
    rcases Db.mem_put ha with rfl | hold₁
    · rcases Db.mem_put hb with rfl | hold₂
      · rfl
      · exact (hfree b hold₂ hsame.symm).symm
    · rcases Db.mem_put hb with rfl | hold₂
      · exact hfree a hold₁ hsame
      · exact h.unique.slugs a hold₁ b hold₂ hsame
  · intro card hcard
    rcases Db.mem_put hcard with rfl | hcard
    · exact hnew
    · exact h.cards card hcard

theorem AllFiled.put {new : Card} (h : AllFiled db) (hnew : Filed db.categories new) :
    AllFiled (db.put new) := by
  intro card hcard
  rcases Db.mem_put hcard with rfl | hcard
  · exact hnew
  · exact h card hcard

/-- A card that changes nothing that is shown in public. -/
theorem Catalogued.put_face {new old : Card} (h : Catalogued db)
    (hfound : db.card old.id = some old) (hface : SameFace old new) : Catalogued (db.put new) := by
  have hnew : db.card new.id = some old := by
    rw [hface.id]
    exact hfound
  have hslug : new.row.slug = old.row.slug := by rw [hface.row]
  exact h.put hnew (Or.inl hslug) (hface.ok (h.cards old (Db.mem_of_card hfound)))

theorem processMedia_face {assetId : UUID} {result : Media.MediaAsset}
    {variants : List MediaVariant} {card' : Card}
    (h : card' ∈ (processMedia db assetId result variants).cards) :
    ∃ card ∈ db.cards, SameFace card card' := by
  obtain ⟨card, hcard, rfl⟩ := List.mem_map.mp h
  exact ⟨card, hcard, rfl, rfl, rfl⟩

theorem Catalogued.processMedia (h : Catalogued db) (assetId : UUID) (result : Media.MediaAsset)
    (variants : List MediaVariant) : Catalogued (processMedia db assetId result variants) := by
  refine ⟨⟨?_, ?_⟩, ?_⟩
  · have hids : (Catalog.processMedia db assetId result variants).cards.map Card.id =
        db.cards.map Card.id := by
      simp only [Catalog.processMedia, List.map_map]
      rfl
    rw [hids]
    exact h.unique.ids
  · intro a ha b hb hsame
    obtain ⟨a', ha', hface⟩ := processMedia_face ha
    obtain ⟨b', hb', hface'⟩ := processMedia_face hb
    rw [hface.row, hface'.row] at hsame
    rw [hface.id, hface'.id]
    exact h.unique.slugs a' ha' b' hb' hsame
  · intro card hcard
    obtain ⟨card', hcard', hface⟩ := processMedia_face hcard
    exact hface.ok (h.cards card' hcard')

theorem CardOk.recategorize {categories categories' : List Category} {card : Card}
    (h : CardOk categories card) (hknown : ∀ id, Known categories id → Known categories' id) :
    CardOk categories' card :=
  { h with
    category := hknown _ h.category
    filed := fun r hr => hknown _ (h.filed r hr) }

theorem Catalogued.edited {card card' : Card} (h : Catalogued db)
    (hedit : EditsTo db db' card card') : Catalogued db' := by
  obtain ⟨db₁, hsame, rfl⟩ := hedit.put
  have hid := hedit.edited.id
  have hfound : db₁.card card'.id = some card := by
    rw [hsame.card, hid]
    exact hedit.found
  have hok := h.cards card (Db.mem_of_card hedit.found)
  refine (h.of_same hsame).put hfound ?_ ?_
  · unfold SlugFits
    rw [hsame.cards, hid]
    exact hedit.edited.slug
  · rw [hsame.categories]
    exact hedit.edited.ok hok

/-- A new card with a fresh id and a free slug. -/
theorem Catalogued.created {new : Card} (h : Catalogued db) (hfresh : db.card new.id = none)
    (hfree : ∀ other ∈ db.cards, other.row.slug = new.row.slug → other.id = new.id)
    (hcards : db'.cards = db.cards ++ [new]) (hcategories : db'.categories = db.categories)
    (hok : CardOk db.categories new) : Catalogued db' := by
  have hne : ∀ card ∈ db.cards, card.id ≠ new.id := lookup_eq_none.mp hfresh
  refine ⟨⟨?_, ?_⟩, ?_⟩
  · rw [hcards, List.map_append, List.nodup_append]
    refine ⟨h.unique.ids, List.nodup_singleton _, ?_⟩
    intro a ha b hb heq
    obtain ⟨card, hcard, rfl⟩ := List.mem_map.mp ha
    rw [List.map_singleton, List.mem_singleton] at hb
    exact hne card hcard (heq.trans hb)
  · intro a ha b hb hsame
    rw [hcards, List.mem_append, List.mem_singleton] at ha hb
    rcases ha with ha | rfl
    · rcases hb with hb | rfl
      · exact h.unique.slugs a ha b hb hsame
      · exact hfree a ha hsame
    · rcases hb with hb | rfl
      · exact (hfree b hb hsame.symm).symm
      · rfl
  · intro card hcard
    rw [hcards, List.mem_append, List.mem_singleton] at hcard
    rw [hcategories]
    rcases hcard with hcard | rfl
    · exact h.cards card hcard
    · exact hok

/-- **Every effect keeps the invariant.** -/
theorem Effect.catalogued (h : Effect u event db db') (hi : Catalogued db) : Catalogued db' := by
  cases h with
  | tables hsame => exact hi.of_same hsame
  | created hfresh hvalid hfree hcards hcategories _ =>
    refine hi.created ?_ ?_ hcards hcategories (newCard_ok hvalid)
    · exact hfresh
    · exact hfree
  | edited hedit _ => exact hi.edited hedit
  | moved hasks htarget hfound hsource haction hvalid =>
    exact hi.put hfound (Or.inl rfl) (moved_ok (hi.cards _ (Db.mem_of_card hfound)) hsource)
  | shown hasks hfound hhidden hpublished =>
    exact hi.put hfound (Or.inl rfl) (shown_ok (hi.cards _ (Db.mem_of_card hfound)) hpublished)
  | restored hasks hfound harchived hfrom hne =>
    exact hi.put hfound (Or.inl rfl) (restored_ok (hi.cards _ (Db.mem_of_card hfound)) hfrom hne)
  | sourced hfound => exact hi.put_face hfound ⟨rfl, rfl, rfl⟩
  | linked hfound hdraft hfresh hedit hrevision =>
    rename_i card card' assets link
    have hface : SameFace card { card with assets := assets, legacy := card.legacy ++ [link] } :=
      ⟨rfl, rfl, rfl⟩
    exact (hi.put_face hfound hface).edited hedit
  | reviewed hfound => exact hi.put_face hfound ⟨rfl, rfl, rfl⟩
  | processed => exact hi.processMedia _ _ _
  | categorized hnew hdb =>
    subst hdb
    exact ⟨⟨hi.unique.ids, hi.unique.slugs⟩, fun card hcard =>
      (hi.cards card hcard).recategorize fun id hid => hid.append _⟩
  | deactivated hfound =>
    exact ⟨⟨hi.unique.ids, hi.unique.slugs⟩, fun card hcard =>
      (hi.cards card hcard).recategorize fun id hid => hid.replace _⟩
  | administered _ => exact ⟨⟨hi.unique.ids, hi.unique.slugs⟩, hi.cards⟩

/-- A merge keeps the invariant. -/
theorem Merge.catalogued {survivor next loser merged gone : Card}
    (h : Merge u event db db' survivor next loser merged gone) (hi : Catalogued db) :
    Catalogued db' := by
  have hmerged := h.merged_id
  have hgone := h.gone_id
  have hok := hi.cards survivor (Db.mem_of_card h.found)
  have hokLoser := hi.cards loser (Db.mem_of_card h.foundLoser)
  obtain ⟨data, hmerging, db₁, actor, now, hsame, rfl, rfl⟩ := h.merging
  obtain ⟨db₂, hsame₂, htables⟩ := h.tables
  have hfound : db₂.card (next.merged u db₁ loser survivor.row.status data actor now).id =
      some survivor := by
    rw [hsame₂.card, hmerged]
    exact h.found
  have hfirst : Catalogued
      (db₂.put (next.merged u db₁ loser survivor.row.status data actor now)) := by
    refine (hi.of_same hsame₂).put hfound (Or.inl hmerging.slug) ?_
    rw [hsame₂.categories]
    exact merged_ok hmerging hok
  have hsecond : (db₂.put (next.merged u db₁ loser survivor.row.status data actor now)).card
      (loser.mergedAway u db₁ (next.merged u db₁ loser survivor.row.status data actor
        now).assets actor now).id = some loser := by
    rw [Db.put_card_ne (by rw [hmerged, hgone]; exact h.ne), hsame₂.card, hgone]
    exact h.foundLoser
  refine Catalogued.of_same (hfirst.put hsecond (Or.inl rfl) ?_) htables
  rw [Db.put_categories, hsame₂.categories]
  exact mergedAway_ok hokLoser

/-- **Every transaction keeps the invariant.** -/
theorem step_catalogued {env : Env} (hi : Catalogued db) (h : step env db event = some db') :
    Catalogued db' := by
  rcases step_effects h with heffects | ⟨survivor, next, loser, merged, gone, hmerge⟩
  · clear h
    induction heffects with
    | refl => exact hi
    | single heffect => exact heffect.catalogued hi
    | cons hfirst _ _ ih => exact ih (hfirst.catalogued hi)
  · exact hmerge.catalogued hi

end Transactions

/-! ## Runs -/

/-- What every transaction keeps but a merge into a withdrawn card. -/
structure Shelved (db : Db) : Prop extends Catalogued db where
  filed : AllFiled db

/-- The requests that make a card public again. -/
def Event.opens (event : Event) (id : UUID) : Prop :=
  event.asks id .show ∨ event.asks id .restore ∨ event.asks id .publish

instance (event : Event) (id : UUID) : Decidable (event.opens id) :=
  inferInstanceAs (Decidable (_ ∨ _ ∨ _))

/-- No card becomes public but one that is shown, restored or published. -/
def Opening (db : Db) (event : Event) (db' : Db) : Prop :=
  ∀ id, Readable db' id → Readable db id ∨ event.opens id

section Opening

variable {u : Unicode} {event : Event} {db db' : Db}

theorem Shelved.coherent (h : Shelved db) : Coherent db := by
  intro card hcard
  rw [getPublished_iff h.unique hcard, mem_publishedIds_iff h.unique hcard]
  exact (h.filed card hcard).served_iff

theorem Shelved.of_no_cards (h : db.cards = []) : Shelved db where
  unique := ⟨by rw [h]; exact List.nodup_nil, by rw [h]; intro a ha; cases ha⟩
  cards := by rw [h]; intro card hcard; cases hcard
  filed := by unfold AllFiled; rw [h]; intro card hcard; cases hcard

/-- The public reads of a database, card by card. -/
theorem opening_of_served (hu : Unique db) (hu' : Unique db')
    (h : ∀ card' ∈ db'.cards, card'.served db'.categories →
      (∃ card ∈ db.cards, card.id = card'.id ∧ card.served db.categories) ∨
        event.opens card'.id) : Opening db event db' := by
  rintro id ⟨card', hcard', rfl, hread⟩
  have hserved := (readable_iff hu' hcard').mp ⟨card', hcard', rfl, hread⟩
  rcases h card' hcard' hserved with ⟨card, hcard, hid, hserved⟩ | hopens
  · rw [← hid]
    exact Or.inl ((readable_iff hu hcard).mpr hserved)
  · exact Or.inr hopens

/-- A write of one card that is served only when it was, or when it was asked for. -/
theorem opening_put {new old : Card} (hi : Catalogued db) (hu' : Unique (db.put new))
    (hfound : db.card new.id = some old)
    (h : new.served db.categories → old.served db.categories ∨ event.opens new.id) :
    Opening db event (db.put new) := by
  refine opening_of_served hi.unique hu' fun card' hcard' hserved => ?_
  rcases Db.mem_put hcard' with rfl | hcard
  · rcases h hserved with hserved | hopens
    · exact Or.inl ⟨old, Db.mem_of_card hfound, Db.id_of_card hfound, hserved⟩
    · exact Or.inr hopens
  · exact Or.inl ⟨card', hcard, rfl, hserved⟩

theorem Opening.trans {db₁ : Db} (h₁ : Opening db event db₁) (h₂ : Opening db₁ event db') :
    Opening db event db' := by
  intro id hread
  rcases h₂ id hread with hread | hopens
  · exact h₁ id hread
  · exact Or.inr hopens

theorem Opening.of_same {db₁ : Db} (h : Opening db event db₁) (hsame : SameTables db₁ db')
    (hu : Unique db₁) : Opening db event db' := by
  intro id hread
  refine h id ?_
  have hu' : Unique db' := by
    refine ⟨?_, ?_⟩
    · rw [hsame.cards]
      exact hu.ids
    · rw [hsame.cards]
      exact hu.slugs
  obtain ⟨card, hcard, rfl, hread⟩ := hread
  have hserved := (readable_iff hu' hcard).mp ⟨card, hcard, rfl, hread⟩
  rw [hsame.cards] at hcard
  rw [hsame.categories] at hserved
  exact (readable_iff hu hcard).mpr hserved

theorem Filed.recategorize {categories categories' : List Category} {card : Card}
    (h : Filed categories card)
    (hinactive : ∀ r ∈ card.revisions,
      activeCategory categories r.content.primaryCategoryId = none →
        activeCategory categories' r.content.primaryCategoryId = none) :
    Filed categories' card := by
  intro hvisible
  rcases h hvisible with hsame | ⟨hnone, hlatest⟩
  · exact Or.inl hsame
  · exact Or.inr ⟨hnone, fun r hr => hinactive r (latestPublished_mem hr).1 (hlatest r hr)⟩

/-- Categories of which none is active that was not before show no card that was not shown. -/
theorem served_of_fewer {categories categories' : List Category} {card : Card}
    (hfiled : Filed categories' card)
    (hactive : ∀ r ∈ card.revisions,
      (activeCategory categories' r.content.primaryCategoryId).isSome →
        (activeCategory categories r.content.primaryCategoryId).isSome)
    (hserved : card.served categories') : card.served categories := by
  obtain ⟨hvisible, r, hr, hsome⟩ : card.servedBySlug categories' :=
    hserved.elim id hfiled.served_iff.mpr
  exact Or.inl ⟨hvisible, r, hr, hactive r (latestPublished_mem hr).1 hsome⟩

/-- One card is written. -/
theorem Shelved.write {new old : Card} (hi : Shelved db) (hnew : Catalogued (db.put new))
    (hfound : db.card new.id = some old) (hfiled : Filed db.categories new)
    (hserved : new.served db.categories → old.served db.categories ∨ event.opens new.id) :
    Shelved (db.put new) ∧ Opening db event (db.put new) :=
  ⟨⟨hnew, hi.filed.put hfiled⟩, opening_put hi.toCatalogued hnew.unique hfound hserved⟩

/-- One card is written, and nothing of it that is shown in public. -/
theorem Shelved.write_face {new old : Card} (hi : Shelved db) (hfound : db.card old.id = some old)
    (hface : SameFace old new) : Shelved (db.put new) ∧ Opening db event (db.put new) := by
  have hnew : db.card new.id = some old := by
    rw [hface.id]
    exact hfound
  refine hi.write (hi.put_face hfound hface) hnew ?_ fun hserved => Or.inl (hface.served hserved)
  exact hface.filed (hi.filed old (Db.mem_of_card hfound))

theorem Shelved.edited {card card' : Card} (hi : Shelved db) (hedit : EditsTo db db' card card') :
    Shelved db' ∧ Opening db event db' := by
  have hcatalogued := hi.toCatalogued.edited hedit
  have hfiled := hedit.edited.filed (hi.filed card (Db.mem_of_card hedit.found))
  obtain ⟨db₁, hsame, rfl⟩ := hedit.put
  have hi₁ : Shelved db₁ := ⟨hi.toCatalogued.of_same hsame, hi.filed.of_same hsame⟩
  have hfound : db₁.card card'.id = some card := by
    rw [hsame.card, hedit.edited.id]
    exact hedit.found
  rw [← hsame.categories] at hfiled
  obtain ⟨hshelved, hopening⟩ : Shelved (db₁.put card') ∧ Opening db₁ event (db₁.put card') :=
    hi₁.write hcatalogued hfound hfiled fun hserved => Or.inl (hedit.edited.served hserved)
  refine ⟨hshelved, fun id hread => ?_⟩
  rcases hopening id hread with hread | hopens
  · exact Opening.of_same (fun _ hread => Or.inl hread) hsame hi.unique id hread
  · exact Or.inr hopens

/-- A new card is not public. -/
theorem newCard_not_served {id actor : UUID} {data : DraftData} {details : Details}
    {assets : List MediaAsset} {now : Time} {categories : List Category} :
    ¬ (newCard u db id data details assets actor now).served categories := by
  rintro (⟨-, r, hr, -⟩ | ⟨-, d, hd, -⟩)
  · cases hr
  · cases hd

theorem Shelved.created {id actor : UUID} {data : DraftData} {details : Details}
    {assets : List MediaAsset} {now : Time} (hi : Shelved db) (hcatalogued : Catalogued db')
    (hcards : db'.cards = db.cards ++ [newCard u db id data details assets actor now])
    (hcategories : db'.categories = db.categories) : Shelved db' ∧ Opening db event db' := by
  refine ⟨⟨hcatalogued, ?_⟩, opening_of_served hi.unique hcatalogued.unique ?_⟩
  · intro card hcard
    rw [hcards, List.mem_append, List.mem_singleton] at hcard
    rw [hcategories]
    rcases hcard with hcard | rfl
    · exact hi.filed card hcard
    · exact fun _ => Or.inl rfl
  · intro card hcard hserved
    rw [hcards, List.mem_append, List.mem_singleton] at hcard
    rw [hcategories] at hserved
    rcases hcard with hcard | rfl
    · exact Or.inl ⟨card, hcard, rfl, hserved⟩
    · exact absurd hserved newCard_not_served

/-- The categories are written, and no category becomes active that a card is filed under. -/
theorem Shelved.recategorize (hi : Shelved db) (hcatalogued : Catalogued db')
    (hcards : db'.cards = db.cards)
    (hactive : ∀ card ∈ db.cards, ∀ r ∈ card.revisions,
      (activeCategory db'.categories r.content.primaryCategoryId).isSome →
        (activeCategory db.categories r.content.primaryCategoryId).isSome) :
    Shelved db' ∧ Opening db event db' := by
  have hfiled : AllFiled db' := by
    intro card hcard
    rw [hcards] at hcard
    refine (hi.filed card hcard).recategorize fun r hr hnone => ?_
    by_contra hsome
    have := hactive card hcard r hr (Option.ne_none_iff_isSome.mp hsome)
    rw [hnone] at this
    cases this
  refine ⟨⟨hcatalogued, hfiled⟩, opening_of_served hi.unique hcatalogued.unique ?_⟩
  intro card hcard hserved
  have hold : card ∈ db.cards := hcards ▸ hcard
  exact Or.inl ⟨card, hold, rfl, served_of_fewer (hfiled card hcard) (hactive card hold) hserved⟩

/-- **Every effect keeps the cards filed, and makes none public that was not asked for.** -/
theorem Effect.shelved (h : Effect u event db db') (hi : Shelved db) :
    Shelved db' ∧ Opening db event db' := by
  have hcatalogued := h.catalogued hi.toCatalogued
  cases h with
  | tables hsame =>
    refine ⟨⟨hcatalogued, hi.filed.of_same hsame⟩, ?_⟩
    exact Opening.of_same (fun _ hread => Or.inl hread) hsame hi.unique
  | created hfresh hvalid hfree hcards hcategories _ =>
    exact hi.created hcatalogued hcards hcategories
  | edited hedit _ => exact hi.edited hedit
  | moved hasks htarget hfound hsource haction hvalid =>
    rename_i card asked target action actor now
    have hok := hi.cards card (Db.mem_of_card hfound)
    have hfiled := hi.filed card (Db.mem_of_card hfound)
    refine hi.write hcatalogued hfound (moved_filed hok hfiled hsource) fun hserved => ?_
    by_cases hpublished : target = .published
    · have hpublish : asked = .publish := by
        subst hpublished
        cases asked <;> first | rfl | cases htarget
      rw [hpublish] at hasks
      exact Or.inr (Or.inr (Or.inr hasks))
    · exact Or.inl (moved_served hsource hpublished hserved)
  | shown hasks hfound hhidden hpublished =>
    have hok := hi.cards _ (Db.mem_of_card hfound)
    exact hi.write hcatalogued hfound (shown_filed hok) fun _ => Or.inr (Or.inl hasks)
  | restored hasks hfound harchived hfrom hne =>
    have hok := hi.cards _ (Db.mem_of_card hfound)
    exact hi.write hcatalogued hfound (restored_filed hok harchived hfrom) fun _ =>
      Or.inr (Or.inr (Or.inl hasks))
  | sourced hfound => exact hi.write_face hfound ⟨rfl, rfl, rfl⟩
  | linked hfound hdraft hfresh hedit hrevision =>
    rename_i card card' assets link
    have hface : SameFace card { card with assets := assets, legacy := card.legacy ++ [link] } :=
      ⟨rfl, rfl, rfl⟩
    obtain ⟨hlinked, hfirst⟩ : _ ∧ Opening db event _ := hi.write_face hfound hface
    obtain ⟨hshelved, hsecond⟩ : _ ∧ Opening _ event _ := hlinked.edited hedit
    exact ⟨hshelved, hfirst.trans hsecond⟩
  | reviewed hfound => exact hi.write_face hfound ⟨rfl, rfl, rfl⟩
  | processed =>
    refine ⟨⟨hcatalogued, ?_⟩, opening_of_served hi.unique hcatalogued.unique ?_⟩
    · intro card' hcard'
      obtain ⟨card, hcard, hface⟩ := processMedia_face hcard'
      exact hface.filed (hi.filed card hcard)
    · intro card' hcard' hserved
      obtain ⟨card, hcard, hface⟩ := processMedia_face hcard'
      exact Or.inl ⟨card, hcard, hface.id.symm, hface.served hserved⟩
  | categorized hnew hdb =>
    subst hdb
    refine hi.recategorize hcatalogued rfl fun card hcard r hr hsome => ?_
    rwa [activeCategory_append ((hi.cards card hcard).filed r hr)] at hsome
  | deactivated hfound =>
    refine hi.recategorize hcatalogued rfl fun card _ r _ hsome => ?_
    obtain ⟨c, hc⟩ := Option.isSome_iff_exists.mp hsome
    exact Option.isSome_of_eq_some (activeCategory_deactivated hc)
  | administered _ =>
    exact hi.recategorize hcatalogued rfl fun _ _ _ _ hsome => hsome

/-! ## Merges -/

/-- The merge that a request asks for has a survivor that is hidden or archived and was published,
in a category that is still active. -/
def revives (db : Db) (event : Event) : Prop :=
  ∃ ids ∈ event.merge db, ∃ survivor ∈ db.card ids.1,
    survivor.row.status.visible = false ∧ (publishedCard db survivor).isSome

instance (db : Db) (event : Event) : Decidable (revives db event) := by
  unfold revives
  infer_instance

variable {survivor next loser merged gone : Card}

theorem Merge.categories (h : Merge u event db db' survivor next loser merged gone) :
    db'.categories = db.categories := by
  obtain ⟨db₁, hsame, htables⟩ := h.tables
  rw [htables.categories, Db.put_categories, Db.put_categories, hsame.categories]

/-- The survivor of a merge is a draft with the public face it had. -/
theorem Merge.survivor_face (h : Merge u event db db' survivor next loser merged gone) :
    merged.row.status = .draft ∧ merged.document = survivor.document ∧
      latestPublished merged.revisions = latestPublished survivor.revisions := by
  obtain ⟨data, hmerging, db₁, actor, now, -, rfl, -⟩ := h.merging
  exact ⟨rfl, merged_document hmerging, merged_latest hmerging⟩

theorem Merge.gone_status (h : Merge u event db db' survivor next loser merged gone) :
    gone.row.status = .archived := by
  obtain ⟨data, -, db₁, actor, now, -, -, rfl⟩ := h.merging
  rfl

theorem Merge.revives_iff (h : Merge u event db db' survivor next loser merged gone) :
    revives db event ↔
      survivor.row.status.visible = false ∧ (publishedCard db survivor).isSome := by
  unfold revives
  rw [h.event]
  simp [h.found]

/-- A withdrawn survivor that was not published, or whose category is not active, stays unread. -/
theorem Merge.withdrawn_not_served (h : Merge u event db db' survivor next loser merged gone)
    (hok : CardOk db.categories survivor) (hhidden : survivor.row.status.visible = false)
    (hno : ¬ (publishedCard db survivor).isSome) :
    Filed db.categories merged ∧ ¬ merged.served db.categories := by
  obtain ⟨-, hdocument, hlatest⟩ := h.survivor_face
  have hnone : merged.document = none := hdocument.trans (hok.withdrawn hhidden)
  have hinactive : ∀ r, latestPublished merged.revisions = some r →
      activeCategory db.categories r.content.primaryCategoryId = none := by
    intro r hr
    by_contra hactive
    refine hno (publishedCard_isSome.mpr ⟨r, hlatest ▸ hr, ?_⟩)
    exact Option.ne_none_iff_isSome.mp hactive
  refine ⟨fun _ => Or.inr ⟨hnone, hinactive⟩, ?_⟩
  rintro (⟨-, r, hr, hactive⟩ | ⟨-, d, hd, -⟩)
  · rw [hinactive r hr] at hactive
    cases hactive
  · rw [hnone] at hd
    cases hd

theorem Merge.shelved (h : Merge u event db db' survivor next loser merged gone) (hi : Shelved db)
    (hno : ¬ revives db event) : Shelved db' ∧ Opening db event db' := by
  have hcatalogued := h.catalogued hi.toCatalogued
  have hmem := Db.mem_of_card h.found
  obtain ⟨-, hdocument, hlatest⟩ := h.survivor_face
  have hmerged : Filed db.categories merged ∧
      (merged.served db.categories → survivor.served db.categories) := by
    by_cases hvisible : survivor.row.status.visible
    · exact ⟨(hi.filed survivor hmem).of_same hvisible hdocument hlatest,
        served_of_same hvisible hdocument hlatest⟩
    · have hhidden : survivor.row.status.visible = false := by simpa using hvisible
      have hnone : ¬ (publishedCard db survivor).isSome := fun hsome =>
        hno (h.revives_iff.mpr ⟨hhidden, hsome⟩)
      obtain ⟨hfiled, hserved⟩ := h.withdrawn_not_served (hi.cards survivor hmem) hhidden hnone
      exact ⟨hfiled, fun hyes => absurd hyes hserved⟩
  have hgone : gone.row.status.visible = false := by
    rw [h.gone_status]
    rfl
  refine ⟨⟨hcatalogued, ?_⟩, opening_of_served hi.unique hcatalogued.unique ?_⟩
  · intro card hcard
    rw [h.categories]
    rcases h.mem hcard with rfl | rfl | hcard
    · exact hmerged.1
    · exact .of_withdrawn hgone
    · exact hi.filed card hcard
  · intro card hcard hserved
    rw [h.categories] at hserved
    rcases h.mem hcard with rfl | rfl | hcard
    · exact Or.inl ⟨survivor, hmem, h.merged_id.symm, hmerged.2 hserved⟩
    · exact absurd hserved (not_served hgone)
    · exact Or.inl ⟨card, hcard, rfl, hserved⟩

/-- A merge into a withdrawn card that was published makes it readable by its slug, not in the
list. -/
theorem Merge.incoherent (h : Merge u event db db' survivor next loser merged gone)
    (hi : Shelved db) (hrevives : revives db event) : ¬ Coherent db' := by
  intro hcoherent
  obtain ⟨hhidden, hpublished⟩ := h.revives_iff.mp hrevives
  obtain ⟨r, hr, hactive⟩ := publishedCard_isSome.mp hpublished
  obtain ⟨hstatus, hdocument, hlatest⟩ := h.survivor_face
  have hu := (h.catalogued hi.toCatalogued).unique
  have hmem : merged ∈ db'.cards := Db.mem_of_card h.card.1
  have hslug : merged.servedBySlug db'.categories := by
    refine ⟨by rw [hstatus]; rfl, r, hlatest.trans hr, ?_⟩
    rw [h.categories]
    exact hactive
  have hread := (getPublished_iff hu hmem).mpr hslug
  obtain ⟨-, d, hd, -⟩ := (mem_publishedIds_iff hu hmem).mp ((hcoherent merged hmem).mp hread)
  rw [hdocument, (hi.cards survivor (Db.mem_of_card h.found)).withdrawn hhidden] at hd
  cases hd

/-! ## Both public reads, in every state -/

theorem step_shelved {env : Env} (hi : Shelved db) (hno : ¬ revives db event)
    (h : step env db event = some db') : Shelved db' ∧ Opening db event db' := by
  rcases step_effects h with heffects | ⟨survivor, next, loser, merged, gone, hmerge⟩
  · clear h hno
    induction heffects with
    | refl => exact ⟨hi, fun _ hread => Or.inl hread⟩
    | single heffect => exact heffect.shelved hi
    | cons hfirst _ _ ih =>
      obtain ⟨hshelved, hopening⟩ := hfirst.shelved hi
      exact ⟨(ih hshelved).1, hopening.trans (ih hshelved).2⟩
  · exact hmerge.shelved hi hno

theorem step_not_revives {env : Env} (hi : Shelved db) (h : step env db event = some db')
    (hcoherent : Coherent db') : ¬ revives db event := by
  intro hrevives
  have ⟨ids, hids, _⟩ := hrevives
  obtain ⟨survivor, next, loser, merged, gone, hmerge⟩ := step_merges h hids
  exact hmerge.incoherent hi hrevives hcoherent

/-- **Visibility is coherent exactly as long as no merge revives a card.** From a catalog without
cards on, the two public reads agree in every state of a run and cards become public only by being
shown, restored or published, if and only if no merge of the run takes as its survivor a hidden or
archived card whose last published revision is in an active category. -/
theorem coherent_iff (env : Env) {db : Db} (hempty : db.cards = []) (events : List Event) :
    Always (step env) Coherent db events ∧ Along (step env) Opening db events ↔
      Along (step env) (fun db event _ => ¬ revives db event) db events := by
  have hi : Shelved db := .of_no_cards hempty
  have hstep : ∀ db event db', Shelved db → ¬ revives db event → step env db event = some db' →
      Shelved db' := fun _ _ _ hi hno h => (step_shelved hi hno h).1
  constructor
  · rintro ⟨halways, -⟩
    exact along_of_always hstep (fun _ _ _ hi h => step_not_revives hi h) hi halways
  · intro hno
    exact ⟨always_of_inv hstep (fun _ hi => hi.coherent) hi hno,
      along_of_inv hstep (fun _ _ _ hi hno h => (step_shelved hi hno h).2) hi hno⟩

end Opening

/-- A card that is hidden and shown again. -/
theorem coherent_hide_show :
    let events := publishing true ++ [.lifecycle 10 4 none .hide 7 5, .lifecycle 10 5 none .show 7 6]
    Always (step plainEnv) Coherent plainDb events ∧ Along (step plainEnv) Opening plainDb events :=
  (coherent_iff plainEnv rfl _).mpr (by decide +kernel)

/-- **A merge makes a hidden card public.** Card 10 is published and hidden, and its duplicate is
merged into it: it can be read by its slug again, and is not in the list. -/
theorem merge_reopens :
    let merge : Event := .decide 30 .merge 5 1 (some 10) [] 7 6
    ∃ db ∈ run (step plainEnv) plainDb (publishing true ++ [.lifecycle 10 4 none .hide 7 5]),
      ∃ db' ∈ step plainEnv db merge,
        ¬ Readable db 10 ∧ Readable db' 10 ∧ ¬ merge.opens 10 ∧ ¬ Coherent db' := by
  decide +kernel

end ComponentKb.Catalog
