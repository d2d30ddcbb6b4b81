import ComponentKb.Catalog.Restore
import Mathlib.Data.List.Find

/-!
# What students see

The public API shows the published snapshot of a card without the notes for teachers and without the
examples that are for teachers only (`public_response`, `api/catalog.py`). Two drafts that differ in
these only are saved, reviewed and published here side by side.

* `Twin`: two cards that differ in what they hold for teachers only. Saving two such drafts makes
  twins, and no request on the lifecycle of the card tells them apart.
* `public_same_iff`: the search documents and the lists are the same, and the cards that are shown
  are the same just when the examples for students stand at the same places of the two drafts: an
  example is shown with its position among all examples.
* `position_leaks`: two drafts that are told apart.
-/

namespace ComponentKb.Catalog

open ComponentKb.Lib

/-! ## The public API -/

structure PublicComponentMediaVariantResponse where
  name : String
  mime : String
  width : Nat
  height : Nat
  sha256 : String
  url : String
  deriving DecidableEq, Repr

structure PublicComponentMediaResponse where
  assetId : UUID
  kind : Media.MediaKind
  purpose : String
  altText : String
  caption : Option String
  displayOrder : Nat
  isPrimary : Bool
  width : Option Nat
  height : Option Nat
  variants : List PublicComponentMediaVariantResponse
  deriving DecidableEq, Repr

structure PublicComponentResponse where
  id : UUID
  slug : String
  title : String
  summary : String
  primaryCategory : CategoryItem
  aliases : List String
  manufacturer : Option String
  model : Option String
  tags : List String
  description : String
  purpose : Option String
  usageNotes : Option String
  safetyNotes : Option String
  difficulty : Difficulty
  publishedAt : Time
  specifications : List TechnicalSpecification
  compatibility : List CompatibilityItem
  codeExamples : List CodeExample
  sources : List SourceSnapshot
  media : List PublicComponentMediaResponse
  deriving DecidableEq, Repr

section Responses

variable (presigned : UUID → String → String)

def publicVariantResponse (asset : MediaAsset) (variant : MediaVariant) :
    PublicComponentMediaVariantResponse :=
  { name := variant.name
    mime := variant.mime
    width := variant.width
    height := variant.height
    sha256 := variant.sha256
    url := presigned asset.id variant.name }

/-- `public_component_media_response`; `presigned` is the storage's answer for a stored variant. -/
def publicComponentMediaResponse (assets : List MediaAsset) (item : ComponentMedia) :
    Option PublicComponentMediaResponse := do
  let asset ← (lookup MediaAsset.id assets item.assetId).filter fun asset =>
    asset.status = item.status ∧ asset.kind = item.kind
  let variants := verifiedVariants asset item.variants
  if variants.isEmpty then none
  else some {
    assetId := item.assetId
    kind := item.kind
    purpose := item.purpose
    altText := item.altText
    caption := item.caption
    displayOrder := item.displayOrder
    isPrimary := item.isPrimary
    width := item.width
    height := item.height
    variants := variants.map (publicVariantResponse presigned asset) }

/-- `public_response`. -/
def publicResponse (assets : List MediaAsset) (card : CatalogCard) :
    Option PublicComponentResponse :=
  card.publishedAt.map fun publishedAt =>
    { id := card.id
      slug := card.data.slug
      title := card.data.title
      summary := card.data.summary
      primaryCategory := card.category
      aliases := card.data.aliases
      manufacturer := card.data.manufacturer
      model := card.data.model
      tags := card.data.tags
      description := card.data.description
      purpose := card.data.purpose
      usageNotes := card.data.usageNotes
      safetyNotes := card.data.safetyNotes
      difficulty := card.data.difficulty
      publishedAt := publishedAt
      specifications := card.data.specifications
      compatibility := card.data.compatibility
      codeExamples := card.data.codeExamples
      sources := card.sources
      media := card.media.filterMap (publicComponentMediaResponse presigned assets) }

/-- `public_component`: the card under a slug. -/
def publicComponent (db : Db) (slug : String) : Option PublicComponentResponse :=
  (getPublished db slug).toOption.bind (publicResponse presigned db.assets)

/-- `public_components` without a query: a page of cards and the total. -/
def publicComponents (db : Db) (categoryId : Option UUID) (difficulty : Option Difficulty)
    (limit : Nat) : List PublicComponentResponse × Nat :=
  let page := listPublished db categoryId difficulty limit
  (page.1.filterMap (publicResponse presigned db.assets), page.2)

end Responses

/-! ## Drafts without what is for teachers -/

/-- An example without its number, which is the place it has in the list. -/
def CodeExample.unnumbered (item : CodeExample) : CodeExample := { item with position := 0 }

/-- A draft without the notes and the examples for teachers. -/
def DraftData.forStudents (data : DraftData) : DraftData :=
  { data with
    teacherNotes := none
    codeExamples :=
      (data.codeExamples.filter (·.visibility = .student)).map CodeExample.unnumbered }

/-- The examples for students with the places they have among all examples. -/
def placed (items : List CodeExample) : List (CodeExample × Nat) :=
  items.zipIdx.filter fun p => p.1.visibility = .student

/-- The places of the examples for students. -/
def places (items : List CodeExample) : List Nat := (placed items).map Prod.snd

/-- The examples that a snapshot shows. -/
def shownExamples (items : List CodeExample) : List CodeExample :=
  (items.filter (·.visibility = .student)).map fun item =>
    { item with explanation := filled item.explanation }

section Examples

variable {items items' : List CodeExample}

/-- An example as it is stored and shown. -/
def CodeExample.shownAt (item : CodeExample) (position : Nat) : CodeExample :=
  { item with
    title := strip item.title
    practicalTask := strip item.practicalTask
    hints := item.hints.map strip
    libraries := item.libraries.map strip
    explanation := filled (stripped item.explanation)
    position := position }

theorem placed_unnumbered : (placed items).map (fun p => p.1.unnumbered) =
    (items.filter (·.visibility = .student)).map CodeExample.unnumbered := by
  have hfst : (placed items).map Prod.fst = items.filter (·.visibility = .student) := by
    have hitems : items.zipIdx.map Prod.fst = items := List.zipIdx_map_fst 0 items
    unfold placed
    conv_rhs => rw [← hitems]
    rw [List.filter_map]
    rfl
  rw [← hfst, List.map_map]
  rfl

theorem shownExamples_stored :
    shownExamples (storedExamples items) = (placed items).map fun p => p.1.shownAt p.2 := by
  unfold shownExamples storedExamples placed
  rw [List.filter_map, List.map_map]
  rfl

/-- **The examples that are shown of two drafts** are the same when their places are. -/
theorem shownExamples_eq_iff
    (hsame : (items.filter (·.visibility = .student)).map CodeExample.unnumbered =
      (items'.filter (·.visibility = .student)).map CodeExample.unnumbered) :
    shownExamples (storedExamples items) = shownExamples (storedExamples items') ↔
      places items = places items' := by
  rw [shownExamples_stored, shownExamples_stored]
  constructor
  · intro h
    have hpositions := congrArg (List.map CodeExample.position) h
    rw [List.map_map, List.map_map] at hpositions
    exact hpositions
  · intro h
    have hpairs : (placed items).map (fun p => (p.1.unnumbered, p.2)) =
        (placed items').map fun p => (p.1.unnumbered, p.2) := by
      rw [← placed_unnumbered, ← placed_unnumbered] at hsame
      rw [← List.zip_map', ← List.zip_map', hsame]
      exact congrArg _ h
    have hshown := congrArg (List.map fun p : CodeExample × Nat => p.1.shownAt p.2) hpairs
    rw [List.map_map, List.map_map] at hshown
    exact hshown

/-- Two drafts that are the same for students. -/
theorem forStudents_eq {data data' : DraftData} (h : data.forStudents = data'.forStudents) :
    data' = { data with
      teacherNotes := data'.teacherNotes, codeExamples := data'.codeExamples } := by
  cases data
  cases data'
  simp only [DraftData.forStudents, DraftData.mk.injEq] at h ⊢
  simp [h]

end Examples

/-! ## Twins -/

/-- A revision without what is for teachers. -/
def ComponentRevision.forStudents (r : ComponentRevision) : ComponentRevision :=
  { r with content := { r.content with teacherNotes := none, codeExamples := [] } }

/-- A card with other notes and examples, and with other revisions. -/
def Card.rewritten (card : Card) (notes : Option String) (examples : List CodeExample)
    (revisions : List ComponentRevision) : Card :=
  { card with
    row := { card.row with teacherNotes := notes }
    details := { card.details with codeExamples := examples }
    revisions := revisions }

theorem Card.eq_rewritten {card card' : Card} {notes : Option String} {examples : List CodeExample}
    (hrow : card'.row = { card.row with teacherNotes := notes })
    (hdetails : card'.details = { card.details with codeExamples := examples })
    (hassets : card'.assets = card.assets) (hdocument : card'.document = card.document)
    (hsources : card'.sources = card.sources) (hlegacy : card'.legacy = card.legacy) :
    card' = card.rewritten notes examples card'.revisions := by
  cases card'
  simp_all [Card.rewritten]

/-- Two cards that differ in what they hold for teachers only. -/
structure Twin (card card' : Card) : Prop where
  shape : ∃ notes examples, card' = card.rewritten notes examples card'.revisions
  latest : (latestPublished card'.revisions).map ComponentRevision.forStudents =
    (latestPublished card.revisions).map ComponentRevision.forStudents

/-- A card holds these examples, and shows them when it is published. -/
structure Card.holds (examples : List CodeExample) (card : Card) : Prop where
  stored : card.details.codeExamples = examples
  published : card.row.status = .published →
    ∃ r, latestPublished card.revisions = some r ∧ r.content.codeExamples = examples

/-- The second database is the first with the twin of one of its cards. -/
structure Twins (examples examples' : List CodeExample) (id : UUID) (db db' : Db)
    (card card' : Card) : Prop where
  key : card.id = id
  found : db.card id = some card
  twin : Twin card card'
  put : db' = db.put card'
  holds : card.holds examples
  holds' : card'.holds examples'

theorem latest_twins {revisions revisions' : List ComponentRevision} {r r' : ComponentRevision}
    (h : (latestPublished revisions').map ComponentRevision.forStudents =
      (latestPublished revisions).map ComponentRevision.forStudents)
    (hr : r'.forStudents = r.forStudents) (hnewer : ∀ s ∈ revisions, s.revision < r.revision)
    (hnewer' : ∀ s ∈ revisions', s.revision < r'.revision) :
    (latestPublished (revisions' ++ [r'])).map ComponentRevision.forStudents =
      (latestPublished (revisions ++ [r])).map ComponentRevision.forStudents := by
  have hstatus : r'.forStudents.status = r.forStudents.status := congrArg _ hr
  replace hstatus : r'.status = r.status := hstatus
  by_cases hpublished : r.status = .published
  · rw [latestPublished_append hpublished hnewer,
      latestPublished_append (hstatus.trans hpublished) hnewer', Option.map_some, Option.map_some, hr]
  · rw [latestPublished_append_other hpublished,
      latestPublished_append_other (fun hyes => hpublished (hstatus.symm.trans hyes)), h]

section Twins

variable {u : Unicode} {db db' db₁ db₁' : Db} {card card' : Card} {id actor : UUID} {now : Time}

theorem Twin.id_eq (h : Twin card card') : card'.id = card.id := by
  obtain ⟨notes, examples, hshape⟩ := h.shape
  rw [hshape]
  rfl

theorem Twin.status_eq (h : Twin card card') : card'.row.status = card.row.status := by
  obtain ⟨notes, examples, hshape⟩ := h.shape
  rw [hshape]
  rfl

theorem Twin.moved {target : ComponentStatus} {action : ComponentChangeAction} (h : Twin card card')
    (hok : CardOk db.categories card) (hok' : CardOk db.categories card') :
    Twin (card.moved u db target action actor now)
      (card'.moved u (db.put card') target action actor now) := by
  obtain ⟨notes, examples, hshape⟩ := h.shape
  refine ⟨⟨notes, examples, ?_⟩, latest_twins h.latest ?_ (hok.newer rfl) (hok'.newer rfl)⟩
  · rw [hshape]
    cases target <;> rfl
  · rw [hshape]
    rfl

theorem Twin.shown {publishedAt : Time} (h : Twin card card') (hok : CardOk db.categories card)
    (hok' : CardOk db.categories card') :
    Twin (card.shown u db publishedAt actor now)
      (card'.shown u (db.put card') publishedAt actor now) := by
  obtain ⟨notes, examples, hshape⟩ := h.shape
  refine ⟨⟨notes, examples, ?_⟩, latest_twins h.latest ?_ (hok.newer rfl) (hok'.newer rfl)⟩
  · rw [hshape]
    rfl
  · rw [hshape]
    rfl

/-- The document that is restored does not depend on what is for teachers. -/
theorem restoredDocument_eq : restoredDocument u db card =
    match (latestPublished card.revisions).map ComponentRevision.forStudents with
    | some r =>
      if (activeCategory db.categories r.content.primaryCategoryId).isSome then
        some (searchDocument u (publishedData r.content) r.createdAt r.revision)
      else card.document
    | none => card.document := by
  unfold restoredDocument publishedCard
  cases latestPublished card.revisions with
  | none => rfl
  | some r =>
    change _ = if (activeCategory db.categories r.content.primaryCategoryId).isSome then _ else _
    cases hactive : activeCategory db.categories r.content.primaryCategoryId with
    | none => simp [hactive]
    | some category =>
      simp only [Option.bind_eq_bind, Option.bind_some, hactive]
      rfl

theorem Twin.same_restored (h : Twin card card') (hcategories : db'.categories = db.categories) :
    restoredDocument u db' card' = restoredDocument u db card := by
  obtain ⟨notes, examples, hshape⟩ := h.shape
  have hdocument : card'.document = card.document := by
    rw [hshape]
    rfl
  rw [restoredDocument_eq, restoredDocument_eq, h.latest, hdocument, hcategories]

theorem Twin.same_document {data data' : DraftData} (h : Twin card card')
    (hcategories : db'.categories = db.categories)
    (hsearch : ∀ publishedAt revision, searchDocument u data' publishedAt revision =
      searchDocument u data publishedAt revision) :
    documentRestored u db' card' data' = documentRestored u db card data := by
  have hrestored : restoredDocument u db' card' = restoredDocument u db card :=
    h.same_restored hcategories
  obtain ⟨_, _, hshape⟩ := h.shape
  have hrow : card'.row.status = card.row.status ∧ card'.row.publishedAt = card.row.publishedAt ∧
      card'.row.revision = card.row.revision ∧ card'.document = card.document := by
    rw [hshape]
    exact ⟨rfl, rfl, rfl, rfl⟩
  obtain ⟨hstatus, hat, hrevision, hdocument⟩ := hrow
  unfold documentRestored
  rw [hstatus, hat, hrevision, hdocument, hrestored]
  simp only [hsearch]

theorem Twin.restored {target : ComponentStatus} (h : Twin card card')
    (hok : CardOk db.categories card) (hok' : CardOk db.categories card') :
    Twin (card.restored u db target actor now)
      (card'.restored u (db.put card') target actor now) := by
  obtain ⟨notes, examples, hshape⟩ := h.shape
  refine ⟨⟨notes, examples, ?_⟩, latest_twins h.latest ?_ (hok.newer rfl) (hok'.newer rfl)⟩
  · have hreturned : Twin { card with row := card.row.returned target actor now }
        { card' with row := card'.row.returned target actor now } := by
      refine ⟨⟨notes, examples, ?_⟩, h.latest⟩
      rw [hshape]
      rfl
    have hdocument : (card'.restored u (db.put card') target actor now).document =
        (card.restored u db target actor now).document := by
      rw [hshape]
      rw [hshape] at hreturned
      exact hreturned.same_document rfl fun _ _ => rfl
    refine Card.eq_rewritten ?_ ?_ ?_ hdocument ?_ ?_
    all_goals
      rw [hshape]
      rfl
  · rw [hshape]
    rfl

end Twins

/-! ## Lifecycle requests -/

section Lifecycle

variable {env : Env} {u : Unicode} {db db' db₁ db₁' : Db} {card card' next next' : Card}
  {id actor : UUID} {now : Time} {examples examples' : List CodeExample}

theorem moved_holds {target : ComponentStatus} {action : ComponentChangeAction}
    (h : card.holds examples) (hok : CardOk db.categories card) :
    (card.moved u db target action actor now).holds examples := by
  refine ⟨h.stored, fun hpublished => ?_⟩
  replace hpublished : target = .published := hpublished
  subst hpublished
  exact ⟨_, latestPublished_append rfl (hok.newer rfl), h.stored⟩

theorem shown_holds {publishedAt : Time} (h : card.holds examples)
    (hok : CardOk db.categories card) :
    (card.shown u db publishedAt actor now).holds examples :=
  ⟨h.stored, fun _ => ⟨_, latestPublished_append rfl (hok.newer rfl), h.stored⟩⟩

theorem restored_holds {target : ComponentStatus} (h : card.holds examples)
    (hok : CardOk db.categories card) :
    (card.restored u db target actor now).holds examples := by
  refine ⟨h.stored, fun hpublished => ?_⟩
  replace hpublished : target = .published := hpublished
  subst hpublished
  exact ⟨_, latestPublished_append rfl (hok.newer rfl), h.stored⟩

/-- The twin is found in the second database. -/
theorem Twins.found' (h : Twins examples examples' id db db' card card') :
    db'.card id = some card' := by
  have hsame : card'.id = id := h.twin.id_eq.trans h.key
  have hfound := h.found
  rw [h.put, ← hsame]
  rw [← hsame] at hfound
  exact Db.put_card_self card' hfound

/-- The twins are written to their databases. -/
theorem Twins.write (h : Twins examples examples' id db db' card card') (hnext : next.id = card.id)
    (htwin : Twin next next') (hholds : next.holds examples) (hholds' : next'.holds examples') :
    Twins examples examples' id (db.put next) (db'.put next') next next' := by
  have hid : next.id = id := hnext.trans h.key
  have hsame : next'.id = next.id := htwin.id_eq
  refine ⟨hid, ?_, htwin, ?_, hholds, hholds'⟩
  · have hfound := h.found
    rw [← hid] at hfound ⊢
    exact Db.put_card_self next hfound
  · rw [h.put, Db.put_put (h.twin.id_eq.trans (hnext.symm.trans hsame.symm)), Db.put_put hsame.symm]

/-- One card is written to a database, and its twin. -/
theorem Twins.of_put {old : Card} (hfound : db.card id = some old) (hkey : next.id = id)
    (htwin : Twin next next') (hholds : next.holds examples) (hholds' : next'.holds examples') :
    Twins examples examples' id (db.put next) (db.put next') next next' := by
  refine ⟨hkey, ?_, htwin, ?_, hholds, hholds'⟩
  · rw [← hkey] at hfound ⊢
    exact Db.put_card_self next hfound
  · rw [Db.put_put htwin.id_eq.symm]

theorem transition_catalogued {revision : Nat} {target : ComponentStatus} (hi : Catalogued db)
    (h : transition u db id revision target actor now = .ok db₁) : Catalogued db₁ := by
  obtain ⟨card, action, hfound, -, hsource, -, -, rfl⟩ := transition_spec h
  obtain rfl := Db.id_of_card hfound
  exact hi.put hfound (Or.inl rfl) (moved_ok (hi.cards card (Db.mem_of_card hfound)) hsource)

theorem transition_twins {revision : Nat} {target : ComponentStatus} (hi : Catalogued db)
    (hi' : Catalogued db') (h : Twins examples examples' id db db' card card')
    (h₁ : transition u db id revision target actor now = .ok db₁)
    (h₁' : transition u db' id revision target actor now = .ok db₁') :
    ∃ next next', Twins examples examples' id db₁ db₁' next next' := by
  obtain ⟨card₁, action, hfound, -, -, haction, -, rfl⟩ := transition_spec h₁
  obtain ⟨card₁', action', hfound', -, -, haction', -, rfl⟩ := transition_spec h₁'
  obtain rfl := Option.some.inj (h.found.symm.trans hfound)
  obtain rfl := Option.some.inj (h.found'.symm.trans hfound')
  obtain rfl := Option.some.inj (haction.symm.trans haction')
  have hok := hi.cards card (Db.mem_of_card hfound)
  have hok' := hi'.cards card' (Db.mem_of_card hfound')
  have htwin : Twin (card.moved u db target action actor now)
      (card'.moved u db' target action actor now) := by
    rw [h.put] at hok' ⊢
    exact h.twin.moved hok hok'
  exact ⟨_, _, h.write rfl htwin (moved_holds h.holds hok) (moved_holds h.holds' hok')⟩

theorem lifecycle_twins {revision : Nat} {action : LifecycleAction} (hi : Catalogued db)
    (hi' : Catalogued db') (h : Twins examples examples' id db db' card card')
    (h₁ : lifecycle u db id revision action actor now = .ok db₁)
    (h₁' : lifecycle u db' id revision action actor now = .ok db₁') :
    ∃ next next', Twins examples examples' id db₁ db₁' next next' := by
  cases action with
  | submit | requestChanges | approve | publish | hide | archive =>
    exact transition_twins hi hi' h h₁ h₁'
  | «show» =>
    obtain ⟨card₁, publishedAt, hfound, -, -, hat, rfl⟩ := showHidden_spec h₁
    obtain ⟨card₁', publishedAt', hfound', -, -, hat', rfl⟩ := showHidden_spec h₁'
    obtain rfl := Option.some.inj (h.found.symm.trans hfound)
    obtain rfl := Option.some.inj (h.found'.symm.trans hfound')
    have hok := hi.cards card (Db.mem_of_card hfound)
    have hok' := hi'.cards card' (Db.mem_of_card hfound')
    have hsame : card'.row.publishedAt = card.row.publishedAt := by
      obtain ⟨notes, examples, hshape⟩ := h.twin.shape
      rw [hshape]
      rfl
    obtain rfl : publishedAt = publishedAt' := Option.some.inj (hat.symm.trans (hsame ▸ hat'))
    have htwin : Twin (card.shown u db publishedAt actor now)
        (card'.shown u db' publishedAt actor now) := by
      rw [h.put] at hok' ⊢
      exact h.twin.shown hok hok'
    exact ⟨_, _, h.write rfl htwin (shown_holds h.holds hok) (shown_holds h.holds' hok')⟩
  | restore =>
    obtain ⟨card₁, target, hfound, -, -, hfrom, -, rfl⟩ := restoreArchived_spec h₁
    obtain ⟨card₁', target', hfound', -, -, hfrom', -, rfl⟩ := restoreArchived_spec h₁'
    obtain rfl := Option.some.inj (h.found.symm.trans hfound)
    obtain rfl := Option.some.inj (h.found'.symm.trans hfound')
    have hok := hi.cards card (Db.mem_of_card hfound)
    have hok' := hi'.cards card' (Db.mem_of_card hfound')
    have hsame : card'.row.archivedFromStatus = card.row.archivedFromStatus := by
      obtain ⟨notes, examples, hshape⟩ := h.twin.shape
      rw [hshape]
      rfl
    obtain rfl : target = target' := Option.some.inj (hfrom.symm.trans (hsame ▸ hfrom'))
    have htwin : Twin (card.restored u db target actor now)
        (card'.restored u db' target actor now) := by
      rw [h.put] at hok' ⊢
      exact h.twin.restored hok hok'
    exact ⟨_, _, h.write rfl htwin (restored_holds h.holds hok) (restored_holds h.holds' hok')⟩

end Lifecycle

/-! ## Saving a draft -/

/-- The ways in which a draft is saved. -/
inductive Save where
  | create (images : List ImageMutation) (primaryAssetId : Option UUID) (actor : UUID) (now : Time)
  | update (revision : Nat) (editToken : Option Nat) (actor : UUID) (now : Time)
  | synchronize (editToken : Nat) (images : List ImageMutation) (primaryAssetId : Option UUID)
      (actor : UUID) (now later : Time)

/-- The transaction that saves a draft of the card. -/
def Save.event (id : UUID) (data : DraftData) : Save → Event
  | .create images primary actor now => .createComponent id data images primary actor now
  | .update revision token actor now => .updateComponent id revision token data actor now
  | .synchronize token images primary actor now later =>
    .synchronize id token data images primary actor now later

section Saves

variable {env : Env} {u : Unicode} {db db' db₁ db₁' : Db} {card card' : Card} {id actor : UUID}
  {now : Time} {data : DraftData} {notes : Option String} {items : List CodeExample}
  {examples examples' : List CodeExample}

theorem replaceChildren_twins {details details' : Details}
    (h : replaceChildren u db data = .ok (db₁, details))
    (h' : replaceChildren u db { data with teacherNotes := notes, codeExamples := items } =
      .ok (db₁', details')) :
    db₁' = db₁ ∧ details.codeExamples = storedExamples data.codeExamples ∧
      details' = { details with codeExamples := storedExamples items } := by
  obtain ⟨⟨definitions, properties⟩, hstored, h⟩ := bind_eq_ok.mp h
  obtain ⟨⟨definitions', properties'⟩, hstored', h'⟩ := bind_eq_ok.mp h'
  cases hstored.symm.trans hstored'
  cases h
  cases h'
  exact ⟨rfl, rfl, rfl⟩

/-- An edit makes a draft of both twins, whatever it stores for teachers. -/
theorem Twin.edited {data data' : DraftData} {action : ComponentChangeAction} {recordHistory : Bool}
    (h : Twin card card') :
    Twin (card.edited u db data actor now action recordHistory)
      (card'.edited u db' data' actor now action recordHistory) := by
  obtain ⟨notes, examples, hshape⟩ := h.shape
  refine ⟨⟨notes, examples, ?_⟩, ?_⟩
  · have hrow : card'.row = { card.row with teacherNotes := notes } := by
      rw [hshape]
      rfl
    refine Card.eq_rewritten ?_ ?_ ?_ ?_ ?_ ?_
    · rw [Card.edited_row, Card.edited_row, hrow]
      rfl
    all_goals
      simp only [Card.edited_details, Card.edited_assets, Card.edited_document,
        Card.edited_sources, Card.edited_legacy]
      rw [hshape]
      rfl
  · rw [Card.edited_revisions, Card.edited_revisions]
    cases recordHistory with
    | false => exact h.latest
    | true =>
      rw [if_pos rfl, if_pos rfl, latestPublished_append_other (by exact nofun),
        latestPublished_append_other (by exact nofun)]
      exact h.latest

theorem edited_holds {data : DraftData} {action : ComponentChangeAction} {recordHistory : Bool}
    (h : card.details.codeExamples = examples) :
    (card.edited u db data actor now action recordHistory).holds examples := by
  refine ⟨?_, fun hpublished => ?_⟩
  · rw [Card.edited_details]
    exact h
  · rw [Card.edited_row] at hpublished
    cases hpublished

theorem update_twins {revision : Nat} {recordHistory : Bool}
    (h : update u db id revision data actor now recordHistory = .ok db₁)
    (h' : update u db id revision { data with teacherNotes := notes, codeExamples := items } actor
      now recordHistory = .ok db₁') :
    ∃ card card', Twins (storedExamples data.codeExamples) (storedExamples items) id db₁ db₁'
      card card' := by
  obtain ⟨card, tags, definitions, details, hfound, -, -, -, -, hchildren, -, rfl⟩ := update_spec h
  obtain ⟨card₁, tags', definitions', details', hfound', -, -, -, -, hchildren', -, rfl⟩ :=
    update_spec h'
  obtain rfl := Option.some.inj (hfound.symm.trans hfound')
  obtain ⟨hdb, hexamples, rfl⟩ := replaceChildren_twins hchildren hchildren'
  rw [hdb]
  have hid : card.id = id := Db.id_of_card hfound
  have hfilled : Twin (card.filled u data details)
      (card.filled u { data with teacherNotes := notes, codeExamples := items }
        { details with codeExamples := storedExamples items }) :=
    ⟨⟨notes, storedExamples items, rfl⟩, rfl⟩
  refine ⟨_, _, Twins.of_put hfound ?_ hfilled.edited (edited_holds hexamples) (edited_holds rfl)⟩
  rw [Card.edited_id]
  exact hid

theorem mutateImages_twins {revision : Nat} {images : List ImageMutation} {primary : Option UUID}
    {recordHistory : Bool} (h : Twins examples examples' id db db' card card')
    (h₁ : mutateImages u db id revision images primary actor now recordHistory = .ok db₁)
    (h₁' : mutateImages u db' id revision images primary actor now recordHistory = .ok db₁') :
    ∃ next next', Twins examples examples' id db₁ db₁' next next' := by
  obtain ⟨card₁, hlocked, h₁⟩ := bind_eq_ok.mp h₁
  obtain ⟨card₁', hlocked', h₁'⟩ := bind_eq_ok.mp h₁'
  obtain rfl := Option.some.inj (h.found.symm.trans (lockedAt_eq_ok.mp hlocked).1)
  obtain rfl := Option.some.inj (h.found'.symm.trans (lockedAt_eq_ok.mp hlocked').1)
  obtain ⟨-, h₁⟩ := seq_eq_ok.mp h₁
  obtain ⟨-, h₁⟩ := seq_eq_ok.mp h₁
  obtain ⟨-, h₁⟩ := seq_eq_ok.mp h₁
  obtain ⟨-, h₁⟩ := seq_eq_ok.mp h₁
  obtain ⟨-, h₁⟩ := seq_eq_ok.mp h₁
  obtain ⟨-, h₁'⟩ := seq_eq_ok.mp h₁'
  obtain ⟨-, h₁'⟩ := seq_eq_ok.mp h₁'
  obtain ⟨-, h₁'⟩ := seq_eq_ok.mp h₁'
  obtain ⟨-, h₁'⟩ := seq_eq_ok.mp h₁'
  obtain ⟨-, h₁'⟩ := seq_eq_ok.mp h₁'
  have ⟨notes, items, hshape⟩ := h.twin.shape
  have hassets : card'.assets = card.assets := by
    rw [hshape]
    rfl
  have huploads : db'.uploads = db.uploads := by
    rw [h.put]
    rfl
  rw [hassets, huploads] at h₁'
  cases h₁
  cases h₁'
  -- the uploads and the assets are changed alike
  have hbase : Twins examples examples' id
      { db with uploads := db.uploads ++ releasedAssets images card.assets }
      { db' with uploads := db.uploads ++ releasedAssets images card.assets } card card' := by
    refine ⟨h.key, h.found, h.twin, ?_, h.holds, h.holds'⟩
    rw [h.put]
    rfl
  have hmutated : ∀ assets, Twin { card with assets := assets } { card' with assets := assets } := by
    intro assets
    refine ⟨⟨notes, items, ?_⟩, h.twin.latest⟩
    rw [hshape]
    rfl
  refine ⟨_, _, hbase.write ?_ (hmutated _).edited (edited_holds h.holds.stored)
    (edited_holds h.holds'.stored)⟩
  rw [Card.edited_id]
  rfl

theorem synchronize_twins {token : Nat} {images : List ImageMutation} {primary : Option UUID}
    {later : Time} (h : synchronize u db id token data images primary actor now later = .ok db₁)
    (h' : synchronize u db id token { data with teacherNotes := notes, codeExamples := items } images
      primary actor now later = .ok db₁') :
    ∃ card card', Twins (storedExamples data.codeExamples) (storedExamples items) id db₁ db₁'
      card card' := by
  obtain ⟨card, hlocked, h⟩ := bind_eq_ok.mp h
  obtain ⟨-, h⟩ := seq_eq_ok.mp h
  obtain ⟨-, h⟩ := seq_eq_ok.mp h
  obtain ⟨-, h⟩ := seq_eq_ok.mp h
  obtain ⟨db₂, hattach, h⟩ := bind_eq_ok.mp h
  obtain ⟨db₃, hupdate, hmutate⟩ := bind_eq_ok.mp h
  obtain ⟨card', hlocked', h'⟩ := bind_eq_ok.mp h'
  obtain ⟨-, h'⟩ := seq_eq_ok.mp h'
  obtain ⟨-, h'⟩ := seq_eq_ok.mp h'
  obtain ⟨-, h'⟩ := seq_eq_ok.mp h'
  obtain ⟨db₂', hattach', h'⟩ := bind_eq_ok.mp h'
  obtain ⟨db₃', hupdate', hmutate'⟩ := bind_eq_ok.mp h'
  cases hlocked.symm.trans hlocked'
  cases hattach.symm.trans hattach'
  obtain ⟨next, next', htwins⟩ := update_twins hupdate hupdate'
  exact mutateImages_twins htwins hmutate hmutate'

/-- The draft of a new card, with what is for teachers changed. -/
theorem newData_rewritten : newData id { data with teacherNotes := notes, codeExamples := items } =
    { newData id data with teacherNotes := notes, codeExamples := items } := by
  unfold newData
  split <;> rfl

theorem newData_codeExamples : (newData id data).codeExamples = data.codeExamples := by
  unfold newData
  split <;> rfl

/-- Writing the card that was added last. -/
theorem replace_added {α κ : Type*} [DecidableEq κ] {key : α → κ} {rows : List α} {old new : α}
    (hfresh : lookup key rows (key new) = none) (hsame : key old = key new) :
    replace key (rows ++ [old]) new = rows ++ [new] := by
  have hrows : replace key rows new = rows := by
    unfold replace
    refine (List.map_congr_left fun row hrow => ?_).trans (List.map_id rows)
    exact if_neg (lookup_eq_none.mp hfresh row hrow)
  change (rows ++ [old]).map _ = _
  rw [List.map_append]
  change replace key rows new ++ [if key old = key new then new else old] = _
  rw [hrows, if_pos hsame]

theorem create_twins {images : List ImageMutation} {primary : Option UUID}
    (hfresh : db.card id = none) (h : create u db id data images primary actor now = .ok db₁)
    (h' : create u db id { data with teacherNotes := notes, codeExamples := items } images primary
      actor now = .ok db₁') :
    ∃ card card', Twins (storedExamples data.codeExamples) (storedExamples items) id db₁ db₁'
      card card' := by
  obtain ⟨-, h⟩ := seq_eq_ok.mp h
  obtain ⟨-, h⟩ := seq_eq_ok.mp h
  obtain ⟨⟨db₂, details⟩, hchildren, h⟩ := bind_eq_ok.mp h
  obtain ⟨assets, hassets, hcreated⟩ := bind_eq_ok.mp h
  obtain ⟨-, h'⟩ := seq_eq_ok.mp h'
  obtain ⟨-, h'⟩ := seq_eq_ok.mp h'
  obtain ⟨⟨db₂', details'⟩, hchildren', h'⟩ := bind_eq_ok.mp h'
  obtain ⟨assets', hassets', hcreated'⟩ := bind_eq_ok.mp h'
  change replaceChildren u db (newData id data) = _ at hchildren
  change replaceChildren u db (newData id
    { data with teacherNotes := notes, codeExamples := items }) = _ at hchildren'
  rw [newData_rewritten] at hchildren'
  obtain ⟨rfl, hexamples, rfl⟩ := replaceChildren_twins hchildren hchildren'
  cases hassets.symm.trans hassets'
  rw [newData_codeExamples] at hexamples
  obtain ⟨tags, definitions, rfl⟩ := replaceChildren_frame hchildren
  cases hcreated
  cases hcreated'
  let next := newCard u db id (newData id data) details assets actor now
  let next' := newCard u db id
    (newData id { data with teacherNotes := notes, codeExamples := items })
    { details with codeExamples := storedExamples items } assets actor now
  have hrow : next'.row = { next.row with teacherNotes := notes } := by
    change newRow u id (newData id _) actor now = _
    rw [newData_rewritten]
    rfl
  have htwin : Twin next next' := ⟨⟨notes, storedExamples items, by
    refine Card.eq_rewritten hrow rfl rfl rfl rfl rfl⟩, rfl⟩
  have hsame : next'.id = next.id := htwin.id_eq
  refine ⟨next, next', rfl, ?_, htwin, ?_, ⟨hexamples, nofun⟩, ⟨rfl, nofun⟩⟩
  · change lookup Card.id (db.cards ++ [next]) id = some next
    change lookup Card.id db.cards id = none at hfresh
    rw [lookup_append, hfresh, Option.none_or]
    exact if_pos rfl
  · have hcards : replace Card.id (db.cards ++ [next]) next' = db.cards ++ [next'] :=
      replace_added hfresh hsame.symm
    let written (cards : List Card) : Db := { db with
      tags := tags
      definitions := definitions
      uploads := db.uploads.filter fun asset => asset.id ∉ images.map ImageMutation.assetId
      cards := cards }
    exact congrArg written hcards.symm

/-- **Two drafts that are the same for students make twins.** -/
theorem save_twins {data' : DraftData} (save : Save) (hsame : data.forStudents = data'.forStudents)
    (h : step env db (save.event id data) = some db₁)
    (h' : step env db (save.event id data') = some db₁') :
    ∃ card card', Twins (storedExamples data.codeExamples) (storedExamples data'.codeExamples) id
      db₁ db₁' card card' := by
  obtain ⟨notes, items, hdata⟩ : ∃ notes items,
      data' = { data with teacherNotes := notes, codeExamples := items } :=
    ⟨_, _, forStudents_eq hsame⟩
  subst hdata
  obtain ⟨hnew, h⟩ := step_eq_some h
  obtain ⟨-, h'⟩ := step_eq_some h'
  cases save with
  | create images primary actor now =>
    have hfresh : db.card id = none := by
      by_contra hsome
      exact hnew (Or.inl (Option.ne_none_iff_isSome.mp hsome))
    exact create_twins hfresh (toOption_eq_some.mp h) (toOption_eq_some.mp h')
  | update revision token actor now =>
    obtain ⟨-, h⟩ := seq_eq_ok.mp (toOption_eq_some.mp h)
    obtain ⟨-, h'⟩ := seq_eq_ok.mp (toOption_eq_some.mp h')
    exact update_twins h h'
  | synchronize token images primary actor now later =>
    exact synchronize_twins (toOption_eq_some.mp h) (toOption_eq_some.mp h')

end Saves

/-! ## Side by side -/

/-- A request on the lifecycle of the card. -/
def Event.reviews (event : Event) (id : UUID) : Prop :=
  match event with
  | .lifecycle component .. => component = id
  | .command component .. => component = id
  | .approveAndPublish component .. => component = id
  | _ => False

instance (event : Event) (id : UUID) : Decidable (event.reviews id) :=
  match event with
  | .lifecycle component .. => inferInstanceAs (Decidable (component = id))
  | .command component .. => inferInstanceAs (Decidable (component = id))
  | .approveAndPublish component .. => inferInstanceAs (Decidable (component = id))
  | .createCategory .. | .deactivateCategory .. | .createComponent .. | .createDocument ..
  | .updateComponent .. | .updateComponentImages .. | .synchronize .. | .reserveUpload ..
  | .decide .. | .propose .. | .persistDraft .. | .persistRepositoryDraft .. | .applyItem ..
  | .reviewLicense .. | .processMedia .. | .administer .. => inferInstanceAs (Decidable False)

section Runs

variable {env : Env} {db db' db₁ db₁' : Db} {card card' : Card} {id : UUID}
  {examples examples' : List CodeExample}

theorem Twins.token_eq (h : Twins examples examples' id db db' card card') :
    card'.row.editToken = card.row.editToken ∧ card'.row.revision = card.row.revision := by
  obtain ⟨notes, items, hshape⟩ := h.twin.shape
  rw [hshape]
  exact ⟨rfl, rfl⟩

theorem step_twins {event : Event} (hreviews : event.reviews id) (hi : Catalogued db)
    (hi' : Catalogued db') (h : Twins examples examples' id db db' card card')
    (h₁ : step env db event = some db₁) (h₁' : step env db' event = some db₁') :
    ∃ next next', Twins examples examples' id db₁ db₁' next next' := by
  obtain ⟨-, h₁⟩ := step_eq_some h₁
  obtain ⟨-, h₁'⟩ := step_eq_some h₁'
  cases event with
  | lifecycle component revision token action actor now =>
    obtain rfl : component = id := hreviews
    obtain ⟨-, h₁⟩ := seq_eq_ok.mp (toOption_eq_some.mp h₁)
    obtain ⟨-, h₁'⟩ := seq_eq_ok.mp (toOption_eq_some.mp h₁')
    exact lifecycle_twins hi hi' h h₁ h₁'
  | command component token action actor now =>
    obtain rfl : component = id := hreviews
    obtain ⟨-, h₁⟩ := seq_eq_ok.mp (toOption_eq_some.mp h₁)
    obtain ⟨-, h₁'⟩ := seq_eq_ok.mp (toOption_eq_some.mp h₁')
    obtain ⟨card₁, hlocked, hlifecycle⟩ := bind_eq_ok.mp h₁
    obtain ⟨card₁', hlocked', hlifecycle'⟩ := bind_eq_ok.mp h₁'
    obtain rfl := Option.some.inj (h.found.symm.trans (lockToken_eq_ok.mp hlocked).1)
    obtain rfl := Option.some.inj (h.found'.symm.trans (lockToken_eq_ok.mp hlocked').1)
    rw [h.token_eq.2] at hlifecycle'
    exact lifecycle_twins hi hi' h hlifecycle hlifecycle'
  | approveAndPublish component token actor now later =>
    obtain rfl : component = id := hreviews
    obtain ⟨card₁, hlocked, h₁⟩ := bind_eq_ok.mp (toOption_eq_some.mp h₁)
    obtain ⟨card₁', hlocked', h₁'⟩ := bind_eq_ok.mp (toOption_eq_some.mp h₁')
    obtain rfl := Option.some.inj (h.found.symm.trans (lockToken_eq_ok.mp hlocked).1)
    obtain rfl := Option.some.inj (h.found'.symm.trans (lockToken_eq_ok.mp hlocked').1)
    obtain ⟨-, h₁⟩ := seq_eq_ok.mp h₁
    obtain ⟨-, h₁'⟩ := seq_eq_ok.mp h₁'
    obtain ⟨db₂, happroved, hpublished⟩ := bind_eq_ok.mp h₁
    obtain ⟨db₂', happroved', hpublished'⟩ := bind_eq_ok.mp h₁'
    rw [h.token_eq.2] at happroved' hpublished'
    obtain ⟨next, next', htwins⟩ := transition_twins hi hi' h happroved happroved'
    exact transition_twins (transition_catalogued hi happroved)
      (transition_catalogued hi' happroved') htwins hpublished hpublished'
  | _ => exact hreviews.elim

/-- **No request on the lifecycle tells twins apart.** -/
theorem run_twins {review : List Event} (hreview : ∀ event ∈ review, event.reviews id)
    (hi : Catalogued db) (hi' : Catalogued db')
    (h : Twins examples examples' id db db' card card')
    (h₁ : run (step env) db review = some db₁) (h₁' : run (step env) db' review = some db₁') :
    ∃ next next', Twins examples examples' id db₁ db₁' next next' := by
  induction review generalizing db db' card card' with
  | nil =>
    obtain rfl := Option.some.inj h₁
    obtain rfl := Option.some.inj h₁'
    exact ⟨card, card', h⟩
  | cons event review ih =>
    obtain ⟨db₂, hstep, hrest⟩ := run_cons_eq_some.mp h₁
    obtain ⟨db₂', hstep', hrest'⟩ := run_cons_eq_some.mp h₁'
    obtain ⟨hfirst, hothers⟩ := List.forall_mem_cons.mp hreview
    obtain ⟨next, next', htwins⟩ := step_twins hfirst hi hi' h hstep hstep'
    exact ih hothers (step_catalogued hi hstep) (step_catalogued hi' hstep') htwins hrest hrest'

end Runs

/-! ## What is shown of twins -/

/-- The public API answers alike: a card by its slug, and every page of the list. -/
structure SamePublic (presigned : UUID → String → String) (db db' : Db) : Prop where
  card : ∀ slug, publicComponent presigned db' slug = publicComponent presigned db slug
  list : ∀ categoryId difficulty limit,
    publicComponents presigned db' categoryId difficulty limit =
      publicComponents presigned db categoryId difficulty limit

section Shown

variable {db db' : Db} {card card' : Card} {id : UUID} {examples examples' : List CodeExample}

/-- The public card with other examples. -/
def CatalogCard.withExamples (examples : List CodeExample) (card : CatalogCard) : CatalogCard :=
  { card with data := { card.data with codeExamples := examples } }

theorem CatalogCard.withExamples_withExamples (card : CatalogCard)
    (examples examples' : List CodeExample) :
    (card.withExamples examples).withExamples examples' = card.withExamples examples' := rfl

/-- The public card made of a snapshot. -/
def snapshotCard (assets : List MediaAsset) (id : UUID) (snapshot : ComponentRevision)
    (category : Category) : CatalogCard :=
  { id := id
    status := .published
    data := publishedData snapshot.content
    category := category.item
    revision := snapshot.revision
    updatedAt := snapshot.createdAt
    publishedAt := some snapshot.createdAt
    sources := snapshot.content.sources.map publishedSource
    media := publishedMedia assets snapshot.content.media
    archivedFromStatus := none
    editToken := 1
    hasLegacyProvenance := false }

/-- The examples of a snapshot, and everything else of it that is shown. -/
theorem publishedCard_of_latest {r : ComponentRevision}
    (hr : latestPublished card.revisions = some r) :
    publishedCard db card =
      (activeCategory db.categories r.forStudents.content.primaryCategoryId).map fun category =>
        (snapshotCard db.assets card.id r.forStudents category).withExamples
          (shownExamples r.content.codeExamples) := by
  unfold publishedCard
  rw [hr]
  change _ = (activeCategory db.categories r.content.primaryCategoryId).map _
  cases hactive : activeCategory db.categories r.content.primaryCategoryId with
  | none => simp [hactive]
  | some category =>
    simp only [Option.bind_eq_bind, Option.bind_some, hactive]
    rfl

theorem Twins.assets_eq (h : Twins examples examples' id db db' card card') (hu : Unique db) :
    db'.assets = db.assets := by
  obtain ⟨notes, items, hshape⟩ := h.twin.shape
  have hfound : db.card card'.id = some card := by
    rw [h.twin.id_eq, h.key]
    exact h.found
  rw [h.put, put_assets hu hfound]
  rw [hshape]
  rfl

/-- The public card of a published twin. -/
theorem Twins.publishedCard_eq (h : Twins examples examples' id db db' card card')
    (hu : Unique db) (hpublished : card.row.status = .published) :
    publishedCard db' card' =
        (publishedCard db card).map (CatalogCard.withExamples (shownExamples examples')) ∧
      ∀ c ∈ publishedCard db card, c.data.codeExamples = shownExamples examples := by
  obtain ⟨r, hr, hexamples⟩ := h.holds.published hpublished
  obtain ⟨r', hr', hexamples'⟩ := h.holds'.published (h.twin.status_eq.trans hpublished)
  have hsame : r'.forStudents = r.forStudents := by
    have hlatest := h.twin.latest
    rw [hr, hr'] at hlatest
    exact Option.some.inj hlatest
  have hcategories : db'.categories = db.categories := by
    rw [h.put]
    rfl
  rw [publishedCard_of_latest hr, publishedCard_of_latest hr', h.assets_eq hu, h.twin.id_eq,
    hcategories, hsame, hexamples, hexamples']
  cases activeCategory db.categories r.forStudents.content.primaryCategoryId with
  | none =>
    refine ⟨by rw [Option.map_none, Option.map_none, Option.map_none], ?_⟩
    intro c hc
    rw [Option.map_none] at hc
    cases hc
  | some category =>
    rw [Option.map_some, Option.map_some, Option.map_some, CatalogCard.withExamples_withExamples]
    refine ⟨rfl, ?_⟩
    intro c hc
    rw [← Option.some.inj hc]
    rfl

theorem publicResponse_examples {presigned : UUID → String → String} {assets : List MediaAsset}
    {c : CatalogCard} :
    (publicResponse presigned assets c).map PublicComponentResponse.codeExamples =
      c.publishedAt.map fun _ => c.data.codeExamples := by
  unfold publicResponse
  rw [Option.map_map]
  rfl

/-- A search that does not tell the new row from the old one finds it in its place. -/
theorem find_put {p : Card → Bool} {new old : Card} (hu : Unique db)
    (hfound : db.card new.id = some old) (hp : p new = p old) :
    (db.put new).cards.find? p =
      (db.cards.find? p).map fun card => if card.id = new.id then new else card := by
  change (db.cards.map fun card => if card.id = new.id then new else card).find? p = _
  rw [List.find?_map]
  congr 1
  refine List.find?_congr fun card hcard => ?_
  change p (if card.id = new.id then new else card) = p card
  by_cases hid : card.id = new.id
  · rw [if_pos hid, hp, hu.eq_of_id (Db.mem_of_card hfound) hcard
      ((Db.id_of_card hfound).trans hid.symm)]
  · rw [if_neg hid]

/-- The ids in the list are the same for twins. -/
theorem Twins.ids_eq (h : Twins examples examples' id db db' card card') (hu : Unique db)
    (categoryId : Option UUID) (difficulty : Option Difficulty) :
    publishedIds db' categoryId difficulty = publishedIds db categoryId difficulty := by
  obtain ⟨notes, items, hshape⟩ := h.twin.shape
  have hlisted : listed db.categories categoryId difficulty card' =
      listed db.categories categoryId difficulty card := by
    rw [hshape]
    rfl
  have hrows : (db'.cards.filterMap fun card =>
      (listed db'.categories categoryId difficulty card).map fun document =>
        (card.id, document.publishedAt)) =
      db.cards.filterMap fun card =>
        (listed db.categories categoryId difficulty card).map fun document =>
          (card.id, document.publishedAt) := by
    rw [h.put]
    change (db.cards.map fun card => if card.id = card'.id then card' else card).filterMap _ = _
    rw [List.filterMap_map]
    refine List.filterMap_congr fun other hother => ?_
    rw [Function.comp_apply, Db.put_categories]
    by_cases hid : other.id = card'.id
    · have hsame : other = card := hu.eq_of_id hother (Db.mem_of_card h.found)
        (hid.trans h.twin.id_eq)
      rw [if_pos hid, hlisted, h.twin.id_eq, hsame]
    · rw [if_neg hid]
  unfold publishedIds
  rw [hrows]

/-- With the same examples shown, the public cards are the same. -/
theorem Twins.cards_eq (h : Twins examples examples' id db db' card card') (hu : Unique db)
    (hpublished : card.row.status = .published)
    (hshown : shownExamples examples = shownExamples examples') {other : Card}
    (hother : other ∈ db.cards) :
    publishedCard db' (if other.id = card'.id then card' else other) = publishedCard db other := by
  by_cases hid : other.id = card'.id
  · have hsame : other = card := hu.eq_of_id hother (Db.mem_of_card h.found)
      (hid.trans h.twin.id_eq)
    obtain ⟨hcard, hexamples⟩ := h.publishedCard_eq hu hpublished
    rw [if_pos hid, hsame, hcard, ← hshown]
    cases hpublic : publishedCard db card with
    | none => rfl
    | some c =>
      rw [Option.map_some, ← hexamples c hpublic]
      rfl
  · have hcategories : db'.categories = db.categories := by
      rw [h.put]
      rfl
    rw [if_neg hid, publishedCard_congr rfl rfl hcategories (h.assets_eq hu)]

/-- **Twins that show the same examples cannot be told apart.** -/
theorem Twins.samePublic (h : Twins examples examples' id db db' card card') (hu : Unique db)
    (hpublished : card.row.status = .published)
    (hshown : shownExamples examples = shownExamples examples')
    (presigned : UUID → String → String) : SamePublic presigned db db' := by
  obtain ⟨notes, items, hshape⟩ := h.twin.shape
  have hfound : db.card card'.id = some card := by
    rw [h.twin.id_eq, h.key]
    exact h.found
  constructor
  · intro slug
    have hsame : (decide (card'.row.slug = slug ∧ card'.row.status.visible)) =
        decide (card.row.slug = slug ∧ card.row.status.visible) := by
      rw [hshape]
      rfl
    unfold publicComponent
    rw [h.assets_eq hu, getPublished_eq, getPublished_eq]
    congr 1
    rw [h.put, find_put hu hfound hsame, ← h.put, Option.bind_map]
    refine Option.bind_congr fun other hother => ?_
    exact h.cards_eq hu hpublished hshown (List.mem_of_find?_eq_some hother)
  · intro categoryId difficulty limit
    have hitems : ∀ i, (db'.card i).bind (publishedCard db') =
        (db.card i).bind (publishedCard db) := by
      intro i
      by_cases hi : card'.id = i
      · have hother := h.cards_eq hu hpublished hshown (Db.mem_of_card h.found)
        rw [if_pos h.twin.id_eq.symm] at hother
        rw [← hi, hfound, h.twin.id_eq, h.key, h.found', Option.bind_some, Option.bind_some, hother]
      · have hput : db'.card i = db.card i := by
          rw [h.put]
          exact Db.put_card_ne hi
        rw [hput]
        refine Option.bind_congr fun other hother => ?_
        have hkey : ¬ other.id = card'.id := fun hid => hi (hid.symm.trans (Db.id_of_card hother))
        have hother := h.cards_eq hu hpublished hshown (Db.mem_of_card hother)
        rwa [if_neg hkey] at hother
    unfold publicComponents listPublished
    simp only [h.ids_eq hu, h.assets_eq hu, hitems]

/-- **Twins that show other examples are told apart** by the card under their slug. -/
theorem Twins.shown_eq (h : Twins examples examples' id db db' card card') (hu : Unique db)
    (hu' : Unique db') (hpublished : card.row.status = .published)
    {presigned : UUID → String → String}
    (hsome : (publicComponent presigned db card.row.slug).isSome)
    (hsame : SamePublic presigned db db') : shownExamples examples = shownExamples examples' := by
  obtain ⟨notes, items, hshape⟩ := h.twin.shape
  have hslug : card'.row.slug = card.row.slug := by
    rw [hshape]
    rfl
  have hvisible : card.row.status.visible := by
    rw [hpublished]
    rfl
  have hvisible' : card'.row.status.visible := by
    rw [h.twin.status_eq]
    exact hvisible
  have hread : publicComponent presigned db card.row.slug =
      (publishedCard db card).bind (publicResponse presigned db.assets) := by
    unfold publicComponent
    rw [getPublished_toOption hu (Db.mem_of_card h.found), if_pos hvisible]
  have hread' : publicComponent presigned db' card.row.slug =
      (publishedCard db' card').bind (publicResponse presigned db.assets) := by
    unfold publicComponent
    rw [← hslug, getPublished_toOption hu' (Db.mem_of_card h.found'), if_pos hvisible',
      h.assets_eq hu]
  obtain ⟨hcard, hexamples⟩ := h.publishedCard_eq hu hpublished
  have hequal := hsame.card card.row.slug
  rw [hread', hread, hcard] at hequal
  rw [hread] at hsome
  cases hpublic : publishedCard db card with
  | none =>
    rw [hpublic] at hsome
    cases hsome
  | some c =>
    rw [hpublic, Option.map_some, Option.bind_some, Option.bind_some] at hequal
    rw [hpublic, Option.bind_some] at hsome
    have hshown := congrArg (Option.map PublicComponentResponse.codeExamples) hequal
    rw [publicResponse_examples, publicResponse_examples] at hshown
    change c.publishedAt.map _ = c.publishedAt.map _ at hshown
    unfold publicResponse at hsome
    obtain ⟨publishedAt, hat⟩ := Option.isSome_iff_exists.mp (Option.isSome_map ▸ hsome)
    rw [hat, Option.map_some, Option.map_some] at hshown
    rw [← hexamples c hpublic]
    exact (Option.some.inj hshown).symm

end Shown

/-! ## Two drafts -/

/-- **What the public API shows of two drafts.** In a state of a run from a catalog without cards,
two drafts of a card that are the same without the notes and the examples for teachers are saved by
the same transaction and go through the same requests, until the card is published and shown. The
search document and the list are the same for both; what the API answers is the same if and only if
the examples for students stand at the same places of the two drafts. -/
theorem public_same_iff (env : Env) {start db : Db} (hempty : start.cards = []) {past : List Event}
    (hrun : run (step env) start past = some db) (save : Save) {id : UUID} {data data' : DraftData}
    (hsame : data.forStudents = data'.forStudents) {review : List Event}
    (hreview : ∀ event ∈ review, event.reviews id) {db₁ db₂ : Db}
    (h₁ : run (step env) db (save.event id data :: review) = some db₁)
    (h₂ : run (step env) db (save.event id data' :: review) = some db₂) {card : Card}
    (hcard : db₁.card id = some card) (hpublished : card.row.status = .published)
    (presigned : UUID → String → String)
    (hshown : (publicComponent presigned db₁ card.row.slug).isSome) :
    (db₂.card id).bind Card.document = card.document ∧
      (∀ categoryId difficulty,
        publishedIds db₂ categoryId difficulty = publishedIds db₁ categoryId difficulty) ∧
      (SamePublic presigned db₁ db₂ ↔ places data.codeExamples = places data'.codeExamples) := by
  have hstart : Catalogued start := (Shelved.of_no_cards hempty).toCatalogued
  have hkept : ∀ {before after : Db} {events : List Event}, Catalogued before →
      run (step env) before events = some after → Catalogued after := by
    intro before after events hbefore hafter
    exact run_inv (fun _ _ _ hi _ h => step_catalogued hi h) hbefore (along_true _ _) hafter
  have hi := hkept hstart hrun
  have hi₁ := hkept hi h₁
  have hi₂ := hkept hi h₂
  obtain ⟨saved, hsaved, hrest⟩ := run_cons_eq_some.mp h₁
  obtain ⟨saved', hsaved', hrest'⟩ := run_cons_eq_some.mp h₂
  obtain ⟨_, _, hstored⟩ := save_twins save hsame hsaved hsaved'
  obtain ⟨next, next', htwins⟩ := run_twins hreview (step_catalogued hi hsaved)
    (step_catalogued hi hsaved') hstored hrest hrest'
  obtain rfl : card = next := Option.some.inj (hcard.symm.trans htwins.found)
  have hexamples : (data.codeExamples.filter (·.visibility = .student)).map CodeExample.unnumbered =
      (data'.codeExamples.filter (·.visibility = .student)).map CodeExample.unnumbered :=
    congrArg DraftData.codeExamples hsame
  refine ⟨?_, htwins.ids_eq hi₁.unique, ?_⟩
  · obtain ⟨notes, items, hshape⟩ := htwins.twin.shape
    rw [htwins.found', Option.bind_some, hshape]
    rfl
  · rw [← shownExamples_eq_iff hexamples]
    constructor
    · exact htwins.shown_eq hi₁.unique hi₂.unique hpublished hshown
    · intro h
      exact htwins.samePublic hi₁.unique hpublished h presigned

/-! ## An example for teachers -/

def blinkExample (visibility : CodeExampleVisibility) : CodeExample :=
  { title := "Blink"
    language := "cpp"
    practicalTask := "Make the sensor blink."
    hints := []
    body := "void loop() {}"
    libraries := []
    explanation := none
    visibility := visibility
    position := 0 }

/-- A draft of the sensor with examples and notes. -/
def taughtDraft (notes : Option String) (visibilities : List CodeExampleVisibility) : DraftData :=
  { sensorDraft "sensor" true with
    teacherNotes := notes
    codeExamples := visibilities.map blinkExample }

/-- The requests that take the new card 10 to publication. -/
def reviewing : List Event :=
  [.command 10 1 .submit 7 2, .approveAndPublish 10 2 7 3 4]

def plainUrl (_ : UUID) (name : String) : String := name

/-- An example for teachers that comes last is not shown in any way. -/
theorem public_same_last :
    let save : Save := .create [⟨20, "photo", "Sensor", none⟩] none 7 1
    ∃ db₁ ∈ run (step plainEnv) plainDb (save.event 10 (taughtDraft none [.student]) :: reviewing),
      ∃ db₂ ∈ run (step plainEnv) plainDb
          (save.event 10 (taughtDraft (some "Solution") [.student, .teacher]) :: reviewing),
        (publicComponent plainUrl db₁ "sensor").isSome ∧ SamePublic plainUrl db₁ db₂ := by
  intro save
  obtain ⟨db₁, h₁, db₂, h₂, card, hcard, hpublished, hslug, hshown⟩ :
      ∃ db₁ ∈ run (step plainEnv) plainDb
          (save.event 10 (taughtDraft none [.student]) :: reviewing),
        ∃ db₂ ∈ run (step plainEnv) plainDb
            (save.event 10 (taughtDraft (some "Solution") [.student, .teacher]) :: reviewing),
          ∃ card ∈ db₁.card 10, card.row.status = .published ∧ card.row.slug = "sensor" ∧
            (publicComponent plainUrl db₁ card.row.slug).isSome := by
    decide +kernel
  have hsame : (taughtDraft none [.student]).forStudents =
      (taughtDraft (some "Solution") [.student, .teacher]).forStudents := rfl
  have hiff := (public_same_iff plainEnv rfl (run_nil plainDb) save hsame (by decide) h₁ h₂ hcard
    hpublished plainUrl hshown).2.2
  rw [hslug] at hshown
  exact ⟨db₁, h₁, db₂, h₂, hshown, hiff.mpr (by decide)⟩

/-- **The position of an example tells of the hidden ones before it.** Two drafts of card 10 differ in
an example for teachers only, which comes first: the example for students is shown with position 0
and with position 1. -/
theorem position_leaks :
    let save : Save := .create [⟨20, "photo", "Sensor", none⟩] none 7 1
    (taughtDraft none [.student]).forStudents =
        (taughtDraft none [.teacher, .student]).forStudents ∧
      ∃ db₁ ∈ run (step plainEnv) plainDb
          (save.event 10 (taughtDraft none [.student]) :: reviewing),
        ∃ db₂ ∈ run (step plainEnv) plainDb
            (save.event 10 (taughtDraft none [.teacher, .student]) :: reviewing),
          (publicComponent plainUrl db₁ "sensor").map
              (fun r => r.codeExamples.map CodeExample.position) = some [0] ∧
            (publicComponent plainUrl db₂ "sensor").map
              (fun r => r.codeExamples.map CodeExample.position) = some [1] := by
  decide +kernel

end ComponentKb.Catalog
