import ComponentKb.Catalog.World

/-!
# What each transaction does

One lemma for each writing function of the catalog: when it succeeds, the cards it worked on, what
it checked of them, and the database it leaves behind. The proofs about runs use these lemmas and
unfold no transaction.

* `update_spec`, `mutateImages_spec`, `transition_spec`, `resolveDuplicatePair_spec` and so on: the
  functions, one by one.
* `step_effects`: a transaction is a sequence of `Effect`s or a `Merge`. An `Effect` says once what
  can happen to a card, whichever request asked for it.
-/

namespace ComponentKb.Catalog

open ComponentKb.Lib

variable {u : Unicode} {db db' : Db} {id actor : UUID} {revision token : Nat} {now later : Time}

/-! ## Edited cards -/

section Edited

variable (card : Card) (data : DraftData) (action : ComponentChangeAction) (recordHistory : Bool)

@[simp] theorem Card.edited_row :
    (card.edited u db data actor now action recordHistory).row =
      (card.row.edited actor now recordHistory).flushed := by
  unfold Card.edited
  split <;> rfl

@[simp] theorem Card.edited_id :
    (card.edited u db data actor now action recordHistory).id = card.id := by
  rw [Card.id, Card.edited_row]
  rfl

@[simp] theorem Card.edited_details :
    (card.edited u db data actor now action recordHistory).details = card.details := by
  unfold Card.edited
  split <;> rfl

@[simp] theorem Card.edited_assets :
    (card.edited u db data actor now action recordHistory).assets = card.assets := by
  unfold Card.edited
  split <;> rfl

@[simp] theorem Card.edited_document :
    (card.edited u db data actor now action recordHistory).document = card.document := by
  unfold Card.edited
  split <;> rfl

@[simp] theorem Card.edited_sources :
    (card.edited u db data actor now action recordHistory).sources = card.sources := by
  unfold Card.edited
  split <;> rfl

@[simp] theorem Card.edited_legacy :
    (card.edited u db data actor now action recordHistory).legacy = card.legacy := by
  unfold Card.edited
  split <;> rfl

/-- The revisions after an edit: the same, or one more. -/
theorem Card.edited_revisions :
    (card.edited u db data actor now action recordHistory).revisions =
      if recordHistory then
        card.revisions ++
          [Catalog.snapshot u db.sources card.sources (componentMedia card.assets)
            (card.row.edited actor now true) data actor now action (some card.row.status)]
      else card.revisions := by
  unfold Card.edited
  cases recordHistory <;> rfl

end Edited

/-! ## Locks -/

theorem locked_eq_ok {card : Card} : locked db id = .ok card ↔ db.card id = some card :=
  fromSome_eq_ok

theorem lockedAt_eq_ok {card : Card} :
    lockedAt db id revision = .ok card ↔ db.card id = some card ∧ card.row.revision = revision := by
  unfold lockedAt
  rw [bind_eq_ok]
  constructor
  · rintro ⟨card', hcard, h⟩
    obtain ⟨hrevision, h⟩ := seq_eq_ok.mp h
    cases h
    exact ⟨locked_eq_ok.mp hcard, require_eq_ok.mp hrevision⟩
  · rintro ⟨hcard, hrevision⟩
    exact ⟨card, locked_eq_ok.mpr hcard, seq_eq_ok.mpr ⟨require_eq_ok.mpr hrevision, rfl⟩⟩

theorem lockToken_eq_ok {card : Card} :
    lockToken db id token = .ok card ↔ db.card id = some card ∧ card.row.editToken = token := by
  unfold lockToken
  rw [bind_eq_ok]
  constructor
  · rintro ⟨card', hcard, h⟩
    obtain ⟨htoken, h⟩ := seq_eq_ok.mp h
    cases h
    exact ⟨locked_eq_ok.mp hcard, require_eq_ok.mp htoken⟩
  · rintro ⟨hcard, htoken⟩
    exact ⟨card, locked_eq_ok.mpr hcard, seq_eq_ok.mpr ⟨require_eq_ok.mpr htoken, rfl⟩⟩

theorem legacyTokenGuard_eq_ok {editToken : Option Nat} {r : Unit} :
    legacyTokenGuard db id revision editToken = .ok r ↔
      ∃ card, db.card id = some card ∧ card.row.editToken = editToken.getD revision := by
  unfold legacyTokenGuard
  simp only [bind_eq_ok, locked_eq_ok, require_eq_ok]

/-! ## Drafts and images -/

/-- Storing a draft adds tags and definitions and changes nothing else outside the card. -/
theorem replaceChildren_frame {data : DraftData} {details : Details}
    (h : replaceChildren u db data = .ok (db', details)) :
    ∃ tags definitions, db' = { db with tags := tags, definitions := definitions } := by
  obtain ⟨⟨definitions, properties⟩, -, h⟩ := bind_eq_ok.mp h
  cases h
  exact ⟨_, _, rfl⟩

/-- The card that `update` works on, once its new fields are stored. -/
def Card.filled (card : Card) (u : Unicode) (data : DraftData) (details : Details) : Card :=
  { card with row := { card.row with toColumns := columns u data }, details := details }

theorem update_spec {data : DraftData} {recordHistory : Bool}
    (h : update u db id revision data actor now recordHistory = .ok db') :
    ∃ card tags definitions details,
      db.card id = some card ∧ card.row.revision = revision ∧ card.row.status.editable ∧
        (card.row.publishedAt.isSome → data.slug = card.row.slug) ∧
        validate u db.categories data = .ok () ∧
        replaceChildren u db data =
          .ok ({ db with tags := tags, definitions := definitions }, details) ∧
        (∀ other ∈ db.cards, other.row.slug = data.slug → other.id = id) ∧
        db' = ({ db with tags := tags, definitions := definitions } : Db).put
          ((card.filled u data details).edited u
            { db with tags := tags, definitions := definitions } data actor now .updated
            recordHistory) := by
  obtain ⟨card, hcard, h⟩ := bind_eq_ok.mp h
  obtain ⟨hcard, hrevision⟩ := lockedAt_eq_ok.mp hcard
  obtain ⟨heditable, h⟩ := seq_eq_ok.mp h
  obtain ⟨hslug, h⟩ := seq_eq_ok.mp h
  obtain ⟨hvalid, h⟩ := seq_eq_ok.mp h
  obtain ⟨⟨db₁, details⟩, hchildren, h⟩ := bind_eq_ok.mp h
  obtain ⟨hfree, h⟩ := seq_eq_ok.mp h
  cases h
  obtain ⟨tags, definitions, rfl⟩ := replaceChildren_frame hchildren
  refine ⟨card, tags, definitions, details, hcard, hrevision, require_eq_ok.mp heditable,
    require_eq_ok.mp hslug, hvalid, hchildren, ?_, rfl⟩
  intro other hother hsame
  have hid : card.row.id = id := Db.id_of_card hcard
  exact (require_eq_ok.mp hfree other hother hsame).trans hid

theorem mutateImages_spec {images : List ImageMutation} {primary : Option UUID}
    {recordHistory : Bool}
    (h : mutateImages u db id revision images primary actor now recordHistory = .ok db') :
    ∃ card uploads next,
      db.card id = some card ∧ card.row.revision = revision ∧ card.row.status.editable ∧
        next = { card with
          assets := mutatedAssets images (selectedPrimary (imagesOf card.assets) images primary)
            card.assets } ∧
        db' = ({ db with uploads := uploads } : Db).put
          (next.edited u { db with uploads := uploads } (readData u db next) actor now
            .imagesUpdated recordHistory) := by
  obtain ⟨card, hcard, h⟩ := bind_eq_ok.mp h
  obtain ⟨hcard, hrevision⟩ := lockedAt_eq_ok.mp hcard
  obtain ⟨heditable, h⟩ := seq_eq_ok.mp h
  obtain ⟨-, h⟩ := seq_eq_ok.mp h
  obtain ⟨-, h⟩ := seq_eq_ok.mp h
  obtain ⟨-, h⟩ := seq_eq_ok.mp h
  obtain ⟨-, h⟩ := seq_eq_ok.mp h
  cases h
  exact ⟨card, _, _, hcard, hrevision, require_eq_ok.mp heditable, rfl, rfl⟩

theorem touchMediaAttachment_spec (h : touchMediaAttachment u db id revision actor now = .ok db') :
    ∃ card, db.card id = some card ∧ card.row.revision = revision ∧ card.row.status.editable ∧
      db' = db.put (card.edited u db (readData u db card) actor now .mediaAttached true) := by
  obtain ⟨card, hcard, h⟩ := bind_eq_ok.mp h
  obtain ⟨hcard, hrevision⟩ := lockedAt_eq_ok.mp hcard
  obtain ⟨heditable, h⟩ := seq_eq_ok.mp h
  cases h
  exact ⟨card, hcard, hrevision, require_eq_ok.mp heditable, rfl⟩

/-- The draft of a new card, with its slug. -/
def newData (id : UUID) (data : DraftData) : DraftData :=
  if data.slug = "" then { data with slug := defaultSlug id } else data

/-- A new card; its only revision records its creation. -/
def newCard (u : Unicode) (db : Db) (id : UUID) (data : DraftData) (details : Details)
    (assets : List MediaAsset) (actor : UUID) (now : Time) : Card :=
  let card : Card :=
    { row := newRow u id data actor now, details := details, assets := assets, revisions := [],
      document := none, sources := [], legacy := [] }
  { card with revisions := [card.snapshot u db data actor now .created none] }

theorem create_spec {data : DraftData} {images : List ImageMutation} {primary : Option UUID}
    (h : create u db id data images primary actor now = .ok db') :
    ∃ tags definitions details assets,
      validate u db.categories (newData id data) = .ok () ∧
        (∀ other ∈ db.cards, other.row.slug = (newData id data).slug → other.id = id) ∧
        attachStagedImages { db with tags := tags, definitions := definitions } images primary
          actor = .ok assets ∧
        db' = { db with
          tags := tags
          definitions := definitions
          uploads := db.uploads.filter fun asset =>
            asset.id ∉ images.map ImageMutation.assetId
          cards := db.cards ++ [newCard u db id (newData id data) details assets actor now] } := by
  obtain ⟨hvalid, h⟩ := seq_eq_ok.mp h
  obtain ⟨hfree, h⟩ := seq_eq_ok.mp h
  obtain ⟨⟨db₁, details⟩, hchildren, h⟩ := bind_eq_ok.mp h
  obtain ⟨assets, hassets, h⟩ := bind_eq_ok.mp h
  cases h
  obtain ⟨tags, definitions, rfl⟩ := replaceChildren_frame hchildren
  exact ⟨tags, definitions, details, assets, hvalid, require_eq_ok.mp hfree, hassets, rfl⟩

/-! ## The lifecycle -/

/-- The card after a transition. -/
def Card.moved (card : Card) (u : Unicode) (db : Db) (target : ComponentStatus)
    (action : ComponentChangeAction) (actor : UUID) (now : Time) : Card :=
  let next := { card with row := card.row.moved target actor now }
  { next.recorded (next.snapshot u db (readData u db next) actor now action
      (some card.row.status)) with
    document := documentAfter u next (readData u db next) target now }

theorem transition_spec {target : ComponentStatus}
    (h : transition u db id revision target actor now = .ok db') :
    ∃ card action, db.card id = some card ∧ card.row.revision = revision ∧
      card.row.status ∈ lifecycleTransitionSources target ∧
      lifecycleTransitionAction target = some action ∧
      validateTarget db card target = .ok () ∧
      db' = db.put (card.moved u db target action actor now) := by
  obtain ⟨card, hcard, h⟩ := bind_eq_ok.mp h
  obtain ⟨hcard, hrevision⟩ := lockedAt_eq_ok.mp hcard
  obtain ⟨hsource, h⟩ := seq_eq_ok.mp h
  obtain ⟨action, haction, h⟩ := bind_eq_ok.mp h
  obtain ⟨hvalid, h⟩ := seq_eq_ok.mp h
  cases h
  exact ⟨card, action, hcard, hrevision, require_eq_ok.mp hsource, fromSome_eq_ok.mp haction,
    hvalid, rfl⟩

/-- The card shown again. -/
def Card.shown (card : Card) (u : Unicode) (db : Db) (publishedAt : Time) (actor : UUID)
    (now : Time) : Card :=
  let next := { card with row := card.row.returned .published actor now }
  { next.recorded (next.snapshot u db (readData u db next) actor now .shown (some .hidden)) with
    document := some (searchDocument u (readData u db next) publishedAt next.row.revision) }

theorem showHidden_spec (h : showHidden u db id revision actor now = .ok db') :
    ∃ card publishedAt, db.card id = some card ∧ card.row.revision = revision ∧
      card.row.status = .hidden ∧ card.row.publishedAt = some publishedAt ∧
      db' = db.put (card.shown u db publishedAt actor now) := by
  obtain ⟨card, hcard, h⟩ := bind_eq_ok.mp h
  obtain ⟨hcard, hrevision⟩ := lockedAt_eq_ok.mp hcard
  obtain ⟨hhidden, h⟩ := seq_eq_ok.mp h
  obtain ⟨publishedAt, hpublished, h⟩ := bind_eq_ok.mp h
  cases h
  exact ⟨card, publishedAt, hcard, hrevision, require_eq_ok.mp hhidden,
    fromSome_eq_ok.mp hpublished, rfl⟩

/-- The card restored to a status. -/
def Card.restored (card : Card) (u : Unicode) (db : Db) (target : ComponentStatus) (actor : UUID)
    (now : Time) : Card :=
  let next := { card with row := card.row.returned target actor now }
  { next.recorded (next.snapshot u db (readData u db next) actor now .restored
      (some .archived)) with
    document := documentRestored u db next (readData u db next) }

theorem restoreArchived_spec (h : restoreArchived u db id revision actor now = .ok db') :
    ∃ card target, db.card id = some card ∧ card.row.revision = revision ∧
      card.row.status = .archived ∧ card.row.archivedFromStatus = some target ∧
      target ≠ .archived ∧ db' = db.put (card.restored u db target actor now) := by
  obtain ⟨card, hcard, h⟩ := bind_eq_ok.mp h
  obtain ⟨hcard, hrevision⟩ := lockedAt_eq_ok.mp hcard
  obtain ⟨harchived, h⟩ := seq_eq_ok.mp h
  obtain ⟨target, htarget, h⟩ := bind_eq_ok.mp h
  obtain ⟨hne, h⟩ := seq_eq_ok.mp h
  cases h
  exact ⟨card, target, hcard, hrevision, require_eq_ok.mp harchived, fromSome_eq_ok.mp htarget,
    require_eq_ok.mp hne, rfl⟩

/-! ## Merges -/

/-- The fields of a merge: the survivor keeps its slug and its origin, and everything that is not a
field. -/
theorem mergeFields_spec {survivor loser next : Card} {fieldSources : List (String × UUID)}
    {data : DraftData} (h : mergeFields u db survivor loser fieldSources = .ok (db', next, data)) :
    ∃ tags definitions details row,
      db' = { db with tags := tags, definitions := definitions } ∧
        validate u db.categories data = .ok () ∧ data.slug = survivor.row.slug ∧
        data.manualOriginal = survivor.row.manualOriginal ∧
        (row = { survivor.row with toColumns := columns u data } ∨
          row = { survivor.row with toColumns := columns u data }.flushed) ∧
        next = { survivor with row := row, details := details } := by
  obtain ⟨-, h⟩ := seq_eq_ok.mp h
  obtain ⟨hvalid, h⟩ := seq_eq_ok.mp h
  obtain ⟨⟨db₁, details⟩, hchildren, h⟩ := bind_eq_ok.mp h
  cases h
  obtain ⟨tags, definitions, rfl⟩ := replaceChildren_frame hchildren
  refine ⟨tags, definitions, details, _, rfl, hvalid, ?_, ?_, ?_, rfl⟩
  · simp [chosenData, readData]
  · simp [chosenData, readData]
  · split
    · exact Or.inl rfl
    · exact Or.inr rfl

/-- What a merge works on: the survivor as found, the survivor with the chosen fields, and the
loser. -/
structure Merging (u : Unicode) (db : Db) (survivorId loserId : UUID) (survivor next loser : Card)
    (data : DraftData) : Prop where
  found : db.card survivorId = some survivor
  foundLoser : db.card loserId = some loser
  ne : survivorId ≠ loserId
  details : ∃ row details, next = { survivor with row := row, details := details }
  row : ∃ columns, next.row = { survivor.row with toColumns := columns } ∨
    next.row = { survivor.row with toColumns := columns }.flushed
  slug : next.row.slug = survivor.row.slug
  origin : next.row.manualOriginal = survivor.row.manualOriginal
  category : next.row.primaryCategoryId = survivor.row.primaryCategoryId ∨
    ∃ category ∈ db.categories, category.id = next.row.primaryCategoryId ∧ category.isActive
  data : data.primaryCategoryId = next.row.primaryCategoryId

/-- Which of the two cards survives. -/
theorem pair_survives {leftId rightId survivorId : UUID} {left right : Card}
    (hleft : db.card leftId = some left) (hright : db.card rightId = some right)
    (hne : leftId ≠ rightId) (htarget : survivorId = leftId ∨ survivorId = rightId) :
    ∃ loserId survivor loser,
      (survivorId = leftId ∧ loserId = rightId ∨ survivorId = rightId ∧ loserId = leftId) ∧
        db.card survivorId = some survivor ∧ db.card loserId = some loser ∧
        survivorId ≠ loserId ∧
        (if survivorId = leftId then left else right) = survivor ∧
        (if survivorId = leftId then right else left) = loser := by
  rcases htarget with rfl | rfl
  · exact ⟨rightId, left, right, Or.inl ⟨rfl, rfl⟩, hleft, hright, hne, by simp, by simp⟩
  · exact ⟨leftId, right, left, Or.inr ⟨rfl, rfl⟩, hright, hleft, hne.symm,
      by simp [hne.symm], by simp [hne.symm]⟩

theorem resolveDuplicatePair_spec {leftId rightId survivorId : UUID} {leftRevision rightRevision : Nat}
    {fieldSources : List (String × UUID)} {merge : Bool}
    (h : resolveDuplicatePair u db leftId rightId leftRevision rightRevision survivorId fieldSources
      actor now merge = .ok db') :
    ∃ loserId survivor next loser data tags definitions merged,
      (survivorId = leftId ∧ loserId = rightId ∨ survivorId = rightId ∧ loserId = leftId) ∧
        Merging u db survivorId loserId survivor next loser data ∧
        merged = next.merged u { db with tags := tags, definitions := definitions } loser
          survivor.row.status data actor now ∧
        db' = (({ db with tags := tags, definitions := definitions } : Db).put merged).put
          (loser.mergedAway u { db with tags := tags, definitions := definitions } merged.assets
            actor now) := by
  obtain ⟨left, hleft, h⟩ := bind_eq_ok.mp h
  obtain ⟨right, hright, h⟩ := bind_eq_ok.mp h
  obtain ⟨hne, h⟩ := seq_eq_ok.mp h
  obtain ⟨-, h⟩ := seq_eq_ok.mp h
  obtain ⟨htarget, h⟩ := seq_eq_ok.mp h
  obtain ⟨⟨db₁, next, data⟩, hnext, h⟩ := bind_eq_ok.mp h
  cases h
  replace hleft := locked_eq_ok.mp hleft
  replace hright := locked_eq_ok.mp hright
  have hne : leftId ≠ rightId := require_eq_ok.mp hne
  obtain ⟨loserId, survivor, loser, hids, hsurvivor, hloser, hids', hcards⟩ :=
    pair_survives hleft hright hne (require_eq_ok.mp htarget)
  obtain ⟨hs, hl⟩ := hcards
  rw [hs, hl] at hnext ⊢
  cases merge with
  | false =>
    cases hnext
    refine ⟨loserId, next, next, loser, readData u db next, db.tags, db.definitions, _, hids, ?_,
      rfl, rfl⟩
    exact ⟨hsurvivor, hloser, hids', ⟨_, _, rfl⟩, ⟨next.row.toColumns, Or.inl rfl⟩, rfl, rfl,
      Or.inl rfl, rfl⟩
  | true =>
    obtain ⟨tags, definitions, details, row, rfl, hvalid, hslug, horigin, hrow, rfl⟩ :=
      mergeFields_spec hnext
    refine ⟨loserId, survivor, _, loser, _, tags, definitions, _, hids, ?_, rfl, rfl⟩
    refine ⟨hsurvivor, hloser, hids', ⟨_, _, rfl⟩, ⟨columns u data, hrow⟩, ?_, ?_, ?_, ?_⟩
    · rcases hrow with rfl | rfl
      · exact hslug
      · exact hslug
    · rcases hrow with rfl | rfl
      · exact horigin
      · exact horigin
    · have hcategory := validate_category hvalid
      rcases hrow with rfl | rfl
      · exact Or.inr hcategory
      · exact Or.inr hcategory
    · rcases hrow with rfl | rfl
      · rfl
      · rfl

/-! ## Edits -/

/-- What an edit makes of a card: a draft, with the same history but for at most one revision. -/
structure Edited (db : Db) (card card' : Card) : Prop where
  editable : card.row.status.editable
  id : card'.id = card.id
  status : card'.row.status = .draft
  archivedFrom : card'.row.archivedFromStatus = none
  publishedAt : card'.row.publishedAt = card.row.publishedAt
  slug : card'.row.slug = card.row.slug ∨
    ∀ other ∈ db.cards, other.row.slug = card'.row.slug → other.id = card.id
  category : card'.row.primaryCategoryId = card.row.primaryCategoryId ∨
    ∃ category ∈ db.categories, category.id = card'.row.primaryCategoryId ∧ category.isActive
  document : card'.document = card.document
  sources : card'.sources = card.sources
  legacy : card'.legacy = card.legacy
  token : card.row.editToken < card'.row.editToken
  revisions : (card'.revisions = card.revisions ∧ card'.row.revision = card.row.revision) ∨
    ∃ r, card'.revisions = card.revisions ++ [r] ∧ card'.row.revision = card.row.revision + 1 ∧
      r.revision = card'.row.revision ∧ r.status = .draft ∧
      r.content.primaryCategoryId = card'.row.primaryCategoryId ∧
      r.action ∈ [ComponentChangeAction.updated, .imagesUpdated, .mediaAttached]

/-- The card after `Card.edited`, when only fields and assets were changed before. -/
theorem Edited.of_edited {card next : Card} {data : DraftData} {action : ComponentChangeAction}
    {recordHistory : Bool} {db₁ : Db} (heditable : card.row.status.editable)
    (hrow : ∃ cols, next.row = { card.row with toColumns := cols })
    (hslug : next.row.slug = card.row.slug ∨
      ∀ other ∈ db.cards, other.row.slug = next.row.slug → other.id = card.id)
    (hcategory : next.row.primaryCategoryId = card.row.primaryCategoryId ∨
      ∃ category ∈ db.categories, category.id = next.row.primaryCategoryId ∧ category.isActive)
    (hdata : data.primaryCategoryId = next.row.primaryCategoryId)
    (hrest : next.document = card.document ∧ next.sources = card.sources ∧
      next.legacy = card.legacy ∧ next.revisions = card.revisions)
    (haction : action ∈ [ComponentChangeAction.updated, .imagesUpdated, .mediaAttached]) :
    Edited db card (next.edited u db₁ data actor now action recordHistory) := by
  obtain ⟨cols, hrow⟩ := hrow
  obtain ⟨hdocument, hsources, hlegacy, hrevisions⟩ := hrest
  have hrow' : (next.edited u db₁ data actor now action recordHistory).row =
      (next.row.edited actor now recordHistory).flushed := Card.edited_row ..
  refine
    { editable := heditable
      id := ?_
      status := ?_
      archivedFrom := ?_
      publishedAt := ?_
      slug := ?_
      category := ?_
      document := (Card.edited_document ..).trans hdocument
      sources := (Card.edited_sources ..).trans hsources
      legacy := (Card.edited_legacy ..).trans hlegacy
      token := ?_
      revisions := ?_ }
  · rw [Card.edited_id, Card.id, hrow]
    rfl
  · rw [hrow']
    rfl
  · rw [hrow']
    rfl
  · rw [hrow', hrow]
    rfl
  · rw [hrow']
    exact hslug
  · rw [hrow']
    exact hcategory
  · rw [hrow', hrow]
    exact Nat.lt_succ_self _
  · rw [Card.edited_revisions, hrow', hrevisions]
    cases recordHistory with
    | false =>
      left
      rw [hrow]
      exact ⟨rfl, rfl⟩
    | true =>
      right
      refine ⟨_, rfl, ?_, rfl, rfl, hdata, haction⟩
      rw [hrow]
      rfl

/-- An edit that leaves no revision. -/
def Silent (card card' : Card) : Prop :=
  card'.revisions = card.revisions ∧ card'.row.revision = card.row.revision

theorem Edited.silent (card : Card) (data : DraftData) (action : ComponentChangeAction)
    {recordHistory : Bool} (h : recordHistory = false) :
    Silent card (card.edited u db data actor now action recordHistory) := by
  subst h
  exact ⟨by rw [Card.edited_revisions]; rfl, by rw [Card.edited_row]; rfl⟩

/-- An edit that leaves a revision. -/
theorem Edited.recorded (card : Card) (data : DraftData) (action : ComponentChangeAction)
    {recordHistory : Bool} (h : recordHistory = true) :
    (card.edited u db data actor now action recordHistory).row.revision = card.row.revision + 1 := by
  subst h
  rw [Card.edited_row]
  rfl

/-- The tables of the catalog that no edit of a card touches. -/
structure SameTables (db db' : Db) : Prop where
  cards : db'.cards = db.cards
  categories : db'.categories = db.categories
  sources : db'.sources = db.sources

theorem SameTables.refl (db : Db) : SameTables db db := ⟨rfl, rfl, rfl⟩

theorem SameTables.card {db₁ : Db} (h : SameTables db db₁) : db₁.card id = db.card id := by
  rw [Db.card, Db.card, h.cards]

/-- An edit of one card, and what else was written around it. -/
structure EditsTo (db db' : Db) (card card' : Card) : Prop where
  found : db.card card.id = some card
  edited : Edited db card card'
  put : ∃ db₁, SameTables db db₁ ∧ db' = db₁.put card'

/-- The edited card is found where the card was. -/
theorem EditsTo.card {card card' : Card} (h : EditsTo db db' card card') :
    db'.card card.id = some card' := by
  obtain ⟨db₁, hsame, rfl⟩ := h.put
  have hfound : db₁.card card'.id = some card := by
    rw [hsame.card, h.edited.id]
    exact h.found
  rw [← h.edited.id]
  exact Db.put_card_self card' hfound

theorem update_edits {data : DraftData} {recordHistory : Bool}
    (h : update u db id revision data actor now recordHistory = .ok db') :
    ∃ card card', db.card id = some card ∧ EditsTo db db' card card' ∧
      (recordHistory = false → Silent card card') ∧
      (recordHistory = true → card'.row.revision = card.row.revision + 1) := by
  obtain ⟨card, tags, definitions, details, hcard, hrevision, heditable, hslug, hvalid, -, hfree,
    rfl⟩ := update_spec h
  have hid : card.id = id := Db.id_of_card hcard
  refine ⟨card, _, hcard, ⟨hid ▸ hcard, ?_,
    { db with tags := tags, definitions := definitions }, ⟨rfl, rfl, rfl⟩, rfl⟩, ?_, ?_⟩
  · refine Edited.of_edited heditable ⟨columns u data, rfl⟩ ?_ ?_ rfl ⟨rfl, rfl, rfl, rfl⟩
      (by decide)
    · exact Or.inr fun other hother hsame => (hfree other hother hsame).trans hid.symm
    · exact Or.inr (validate_category hvalid)
  · exact Edited.silent (card.filled u data details) data .updated
  · exact Edited.recorded (card.filled u data details) data .updated

theorem touchMediaAttachment_edits
    (h : touchMediaAttachment u db id revision actor now = .ok db') :
    ∃ card card', db.card id = some card ∧ EditsTo db db' card card' ∧
      card'.row.revision = card.row.revision + 1 := by
  obtain ⟨card, hcard, hrevision, heditable, rfl⟩ := touchMediaAttachment_spec h
  have hid : card.id = id := Db.id_of_card hcard
  refine ⟨card, _, hcard, ⟨hid ▸ hcard, ?_, db, .refl db, rfl⟩,
    Edited.recorded card _ .mediaAttached rfl⟩
  exact Edited.of_edited heditable ⟨card.row.toColumns, rfl⟩ (Or.inl rfl) (Or.inl rfl) rfl
    ⟨rfl, rfl, rfl, rfl⟩ (by decide)

theorem mutateImages_edits {images : List ImageMutation} {primary : Option UUID}
    {recordHistory : Bool}
    (h : mutateImages u db id revision images primary actor now recordHistory = .ok db') :
    ∃ card card', db.card id = some card ∧ EditsTo db db' card card' ∧
      card'.row.slug = card.row.slug ∧ (recordHistory = false → Silent card card') ∧
      (recordHistory = true → card'.row.revision = card.row.revision + 1) := by
  obtain ⟨card, uploads, next, hcard, hrevision, heditable, rfl, rfl⟩ := mutateImages_spec h
  have hid : card.id = id := Db.id_of_card hcard
  refine ⟨card, _, hcard, ⟨hid ▸ hcard, ?_, { db with uploads := uploads }, ⟨rfl, rfl, rfl⟩, rfl⟩,
    ?_, ?_, ?_⟩
  · exact Edited.of_edited heditable ⟨card.row.toColumns, rfl⟩ (Or.inl rfl) (Or.inl rfl) rfl
      ⟨rfl, rfl, rfl, rfl⟩ (by decide)
  · rw [Card.edited_row]
    rfl
  · exact Edited.silent { card with assets := _ } _ .imagesUpdated
  · exact Edited.recorded { card with assets := _ } _ .imagesUpdated

/-! ## Several writes of one card -/

/-- The same card but for its details and its assets. -/
structure SameCard (card card' : Card) : Prop where
  row : card'.row = card.row
  revisions : card'.revisions = card.revisions
  document : card'.document = card.document
  sources : card'.sources = card.sources
  legacy : card'.legacy = card.legacy

/-- An edit of a card whose assets were changed before. -/
theorem Edited.of_same {card₀ card card' : Card} {db₀ : Db} (h : Edited db card card')
    (hsame : SameCard card₀ card) (hcategories : db.categories = db₀.categories)
    (hcards : ∀ other ∈ db₀.cards, other.id ≠ card₀.id → other ∈ db.cards) :
    Edited db₀ card₀ card' where
  editable := hsame.row ▸ h.editable
  id := by rw [h.id, Card.id, Card.id, hsame.row]
  status := h.status
  archivedFrom := h.archivedFrom
  publishedAt := by rw [h.publishedAt, hsame.row]
  slug := by
    rcases h.slug with hslug | hfree
    · exact Or.inl (by rw [hslug, hsame.row])
    · refine Or.inr fun other hother heq => ?_
      by_cases hid : other.id = card₀.id
      · exact hid
      · have := hfree other (hcards other hother hid) heq
        rwa [Card.id, Card.id, hsame.row] at this
  category := by
    rw [← hcategories, ← hsame.row]
    exact h.category
  document := h.document.trans hsame.document
  sources := h.sources.trans hsame.sources
  legacy := h.legacy.trans hsame.legacy
  token := hsame.row ▸ h.token
  revisions := by
    rw [← hsame.revisions, ← hsame.row]
    exact h.revisions

/-- One silent edit after another. -/
theorem Edited.trans {card card₁ card₂ : Card} {db₁ : Db} (h₁ : Edited db card card₁)
    (h₂ : Edited db₁ card₁ card₂) (hcategories : db₁.categories = db.categories)
    (hslug : card₂.row.slug = card₁.row.slug) (hs₁ : Silent card card₁)
    (hs₂ : Silent card₁ card₂) : Edited db card card₂ where
  editable := h₁.editable
  id := h₂.id.trans h₁.id
  status := h₂.status
  archivedFrom := h₂.archivedFrom
  publishedAt := h₂.publishedAt.trans h₁.publishedAt
  slug := hslug ▸ h₁.slug
  category := by
    rcases h₂.category with h | h
    · rw [h]
      exact h₁.category
    · rw [← hcategories]
      exact Or.inr h
  document := h₂.document.trans h₁.document
  sources := h₂.sources.trans h₁.sources
  legacy := h₂.legacy.trans h₁.legacy
  token := h₁.token.trans h₂.token
  revisions := Or.inl ⟨hs₂.1.trans hs₁.1, hs₂.2.trans hs₁.2⟩

/-- The last of several writes of one card is the one that stays. -/
theorem Db.put_put {first last : Card} (h : first.id = last.id) :
    (db.put first).put last = db.put last := by
  unfold Db.put
  rw [replace_replace h]

/-- A write before an edit of the same card can be left out. -/
theorem EditsTo.after_put {first card card' : Card} {db₁ : Db}
    (h : EditsTo db db' card card') (hdb : SameTables (db₁.put first) db)
    (hfirst : first.id = card.id) : ∃ db₂, SameTables db₁ db₂ ∧ db' = db₂.put card' := by
  obtain ⟨db₂, hsame, rfl⟩ := h.put
  refine ⟨{ db₂ with cards := db₁.cards },
    ⟨rfl, hsame.categories.trans hdb.categories, hsame.sources.trans hdb.sources⟩, ?_⟩
  have hcards : db₂.cards = replace Card.id db₁.cards first := hsame.cards.trans hdb.cards
  have hid : first.id = card'.id := hfirst.trans h.edited.id.symm
  unfold Db.put
  rw [hcards, replace_replace hid]

theorem attachNew_spec {card : Card} {ids : List UUID}
    (h : attachNew db card actor ids now = .ok db') :
    ∃ attached, db' = (db.taken ids).put { card with assets := card.assets ++ attached } := by
  obtain ⟨-, h⟩ := seq_eq_ok.mp h
  obtain ⟨-, h⟩ := seq_eq_ok.mp h
  obtain ⟨-, h⟩ := seq_eq_ok.mp h
  cases h
  exact ⟨_, rfl⟩

/-- An edit of a card that was given more assets before is an edit of the card. -/
theorem EditsTo.of_attached {card next card' : Card} {db₁ : Db}
    (h : EditsTo (db₁.put next) db' next card') (hfound : db.card card.id = some card)
    (hsame : SameCard card next) (htables : SameTables db db₁) : EditsTo db db' card card' := by
  have hid : next.id = card.id := by rw [Card.id, Card.id, hsame.row]
  refine ⟨hfound, h.edited.of_same hsame htables.categories ?_, ?_⟩
  · intro other hother hne
    rw [← htables.cards] at hother
    exact mem_replace_of_ne hother (hid ▸ hne)
  · obtain ⟨db₂, hsame₂, rfl⟩ := h.after_put (.refl _) rfl
    exact ⟨db₂, ⟨hsame₂.cards.trans htables.cards, hsame₂.categories.trans htables.categories,
      hsame₂.sources.trans htables.sources⟩, rfl⟩

/-- An autosave: the card, with its fields, its details and its images as the editor has them. -/
theorem synchronize_edits {data : DraftData} {images : List ImageMutation} {primary : Option UUID}
    (h : synchronize u db id token data images primary actor now later = .ok db') :
    ∃ card card', db.card id = some card ∧ card.row.editToken = token ∧
      EditsTo db db' card card' ∧ Silent card card' := by
  obtain ⟨card, hcard, h⟩ := bind_eq_ok.mp h
  obtain ⟨hcard, htoken⟩ := lockToken_eq_ok.mp hcard
  obtain ⟨-, h⟩ := seq_eq_ok.mp h
  obtain ⟨-, h⟩ := seq_eq_ok.mp h
  obtain ⟨-, h⟩ := seq_eq_ok.mp h
  obtain ⟨db₁, hattach, h⟩ := bind_eq_ok.mp h
  obtain ⟨db₂, hupdate, hmutate⟩ := bind_eq_ok.mp h
  obtain ⟨attached, rfl⟩ := attachNew_spec hattach
  have hid : card.id = id := Db.id_of_card hcard
  subst hid
  obtain ⟨card₁, card₂, hcard₁, hedit₁, hsilent₁, -⟩ := update_edits hupdate
  obtain ⟨card₂', card₃, hcard₂, hedit₂, hslug, hsilent₂, -⟩ := mutateImages_edits hmutate
  -- both edits find the card as the step before left it
  have hfound : (db.taken (newImageIds card images)).card card.id = some card := hcard
  obtain rfl := Option.some.inj
    (hcard₁.symm.trans (Db.put_card_self { card with assets := _ } hfound))
  obtain rfl := Option.some.inj (hcard₂.symm.trans hedit₁.card)
  have hfirst : EditsTo db db₂ card card₂' :=
    hedit₁.of_attached hcard ⟨rfl, rfl, rfl, rfl, rfl⟩ ⟨rfl, rfl, rfl⟩
  have hsilent : Silent card card₂' := hsilent₁ rfl
  obtain ⟨db₃, hsame₃, rfl⟩ := hfirst.put
  refine ⟨card, card₃, hcard, htoken, ⟨hcard, ?_, ?_⟩, ?_⟩
  · exact hfirst.edited.trans hedit₂.edited hsame₃.categories hslug hsilent (hsilent₂ rfl)
  · obtain ⟨db₄, hsame₄, rfl⟩ := hedit₂.after_put (.refl _) rfl
    exact ⟨db₄, ⟨hsame₄.cards.trans hsame₃.cards, hsame₄.categories.trans hsame₃.categories,
      hsame₄.sources.trans hsame₃.sources⟩, rfl⟩
  · exact ⟨(hsilent₂ rfl).1.trans hsilent.1, (hsilent₂ rfl).2.trans hsilent.2⟩

/-! ## Effects -/

/-- What a transaction can do to the cards, the categories and the sources, one thing at a time. -/
inductive Effect (u : Unicode) (event : Event) : Db → Db → Prop where
  | tables {db db' : Db} : SameTables db db' → Effect u event db db'
  | created {db db' : Db} {id actor : UUID} {now : Time} {data : DraftData} {details : Details}
      {assets : List MediaAsset} : db.card id = none → validate u db.categories data = .ok () →
      (∀ other ∈ db.cards, other.row.slug = data.slug → other.id = id) →
      db'.cards = db.cards ++ [newCard u db id data details assets actor now] →
      db'.categories = db.categories → db'.sources = db.sources → Effect u event db db'
  | edited {db db' : Db} {card card' : Card} : EditsTo db db' card card' →
      (event.saves card.id ∨ card'.row.revision = card.row.revision + 1) → Effect u event db db'
  | moved {db : Db} {card : Card} {asked : LifecycleAction} {target : ComponentStatus}
      {action : ComponentChangeAction} {actor : UUID} {now : Time} :
      event.asks card.id asked → asked.target = some target → db.card card.id = some card →
      card.row.status ∈ lifecycleTransitionSources target →
      lifecycleTransitionAction target = some action → validateTarget db card target = .ok () →
      Effect u event db (db.put (card.moved u db target action actor now))
  | shown {db : Db} {card : Card} {publishedAt : Time} {actor : UUID} {now : Time} :
      event.asks card.id .show → db.card card.id = some card → card.row.status = .hidden →
      card.row.publishedAt = some publishedAt →
      Effect u event db (db.put (card.shown u db publishedAt actor now))
  | restored {db : Db} {card : Card} {target : ComponentStatus} {actor : UUID} {now : Time} :
      event.asks card.id .restore → db.card card.id = some card → card.row.status = .archived →
      card.row.archivedFromStatus = some target → target ≠ .archived →
      Effect u event db (db.put (card.restored u db target actor now))
  | sourced {db : Db} {card : Card} {relation : ComponentSource} : db.card card.id = some card →
      Effect u event db (db.put { card with sources := card.sources ++ [relation] })
  | linked {db db' : Db} {card card' : Card} {assets : List MediaAsset} {link : LegacySourceLink} :
      db.card card.id = some card → card.row.status = .draft →
      (∀ other ∈ db.cards, ∀ known ∈ other.legacy, known.identity ≠ link.identity) →
      EditsTo (db.put { card with assets := assets, legacy := card.legacy ++ [link] }) db'
        { card with assets := assets, legacy := card.legacy ++ [link] } card' →
      card'.row.revision = card.row.revision + 1 → Effect u event db db'
  | reviewed {db : Db} {card : Card} : db.card card.id = some card →
      Effect u event db (db.put { card with
        legacy := card.legacy.map fun link => { link with licenseStatus := "reviewed" } })
  | processed {db : Db} {assetId : UUID} {result : Media.MediaAsset}
      {variants : List MediaVariant} :
      Effect u event db (processMedia db assetId result variants)
  | categorized {db db' : Db} {category : Category} : db.category category.id = none →
      db' = { db with categories := db.categories ++ [category] } → Effect u event db db'
  | deactivated {db : Db} {category : Category} : db.category category.id = some category →
      Effect u event db { db with
        categories := replace Category.id db.categories { category with isActive := false } }
  | administered {db : Db} {source : Source} : event = .administer source →
      Effect u event db { db with sources := administer db.sources source }

/-- No revision is published from one database to the other. -/
def Unpublished (db db' : Db) : Prop :=
  ∀ card' ∈ db'.cards, ∀ r ∈ card'.revisions, r.status = .published →
    ∃ card ∈ db.cards, card.id = card'.id ∧ r ∈ card.revisions

/-- No legacy item is linked from one database to the other. -/
def Unlinked (db db' : Db) : Prop :=
  ∀ card' ∈ db'.cards, ∀ link ∈ card'.legacy, ∃ card ∈ db.cards, link ∈ card.legacy

/-- The effects of one transaction, in their order; only the last one may publish a revision. -/
inductive Effects (u : Unicode) (event : Event) : Db → Db → Prop where
  | refl {db : Db} : Effects u event db db
  | single {db db' : Db} : Effect u event db db' → Effects u event db db'
  | cons {db db₁ db' : Db} : Effect u event db db₁ → Unpublished db db₁ →
      Effects u event db₁ db' → Effects u event db db'

section Unpublished

theorem Unpublished.put {new old : Card} (hfound : db.card new.id = some old)
    (h : ∀ r ∈ new.revisions, r.status = .published → r ∈ old.revisions) :
    Unpublished db (db.put new) := by
  intro card' hcard' r hr hpublished
  rcases Db.mem_put hcard' with rfl | hcard
  · exact ⟨old, Db.mem_of_card hfound, Db.id_of_card hfound, h r hr hpublished⟩
  · exact ⟨card', hcard, rfl, hr⟩

theorem Unpublished.of_same {db₁ : Db} (h : Unpublished db₁ db') (hsame : SameTables db db₁) :
    Unpublished db db' := by
  unfold Unpublished at h ⊢
  rw [hsame.cards] at h
  exact h

/-- An edit leaves a draft, so what it records is not published. -/
theorem Edited.unpublished {card card' : Card} (h : Edited db card card') :
    ∀ r ∈ card'.revisions, r.status = .published → r ∈ card.revisions := by
  intro r hr hpublished
  rcases h.revisions with ⟨hsame, -⟩ | ⟨new, hnew, -, -, hdraft, -⟩
  · rw [← hsame]
    exact hr
  · rw [hnew] at hr
    rcases List.mem_append.mp hr with hr | hr
    · exact hr
    · rw [List.mem_singleton.mp hr, hdraft] at hpublished
      cases hpublished

theorem EditsTo.unpublished {card card' : Card} (h : EditsTo db db' card card') :
    Unpublished db db' := by
  obtain ⟨db₁, hsame, rfl⟩ := h.put
  have hfound : db₁.card card'.id = some card := by
    rw [hsame.card, h.edited.id]
    exact h.found
  exact (Unpublished.put hfound h.edited.unpublished).of_same hsame

theorem EditsTo.unlinked {card card' : Card} (h : EditsTo db db' card card') : Unlinked db db' := by
  obtain ⟨db₁, hsame, rfl⟩ := h.put
  intro other hother link hlink
  rcases Db.mem_put hother with rfl | hother
  · rw [h.edited.legacy] at hlink
    exact ⟨card, Db.mem_of_card h.found, hlink⟩
  · rw [hsame.cards] at hother
    exact ⟨other, hother, hlink⟩

/-- A transition to any other status publishes nothing. -/
theorem transition_unpublished {target : ComponentStatus} (hne : target ≠ .published)
    (h : transition u db id revision target actor now = .ok db') : Unpublished db db' := by
  obtain ⟨card, action, hcard, -, -, -, -, rfl⟩ := transition_spec h
  obtain rfl := Db.id_of_card hcard
  refine Unpublished.put hcard fun r hr hpublished => ?_
  rcases List.mem_append.mp hr with hr | hr
  · exact hr
  · rw [List.mem_singleton.mp hr] at hpublished
    exact absurd hpublished hne

end Unpublished

/-- A merge of two cards, which is a transaction of its own. -/
structure Merge (u : Unicode) (event : Event) (db db' : Db)
    (survivor next loser merged gone : Card) : Prop where
  event : event.merge db = some (survivor.id, loser.id)
  merging : ∃ data, Merging u db survivor.id loser.id survivor next loser data ∧
    ∃ db₁ actor now, SameTables db db₁ ∧
      merged = next.merged u db₁ loser survivor.row.status data actor now ∧
      gone = loser.mergedAway u db₁ merged.assets actor now
  tables : ∃ db₁, SameTables db db₁ ∧ SameTables ((db₁.put merged).put gone) db'

section Merge

variable {event : Event} {survivor next loser merged gone : Card}

theorem Merge.merged_id (h : Merge u event db db' survivor next loser merged gone) :
    merged.id = survivor.id := by
  obtain ⟨data, hmerging, db₁, actor, now, -, rfl, -⟩ := h.merging
  obtain ⟨cols, hrow | hrow⟩ := hmerging.row
  · change next.row.id = survivor.row.id
    rw [hrow]
  · change next.row.id = survivor.row.id
    rw [hrow]
    rfl

theorem Merge.gone_id (h : Merge u event db db' survivor next loser merged gone) :
    gone.id = loser.id := by
  obtain ⟨data, hmerging, db₁, actor, now, -, -, rfl⟩ := h.merging
  rfl

theorem Merge.found (h : Merge u event db db' survivor next loser merged gone) :
    db.card survivor.id = some survivor := by
  obtain ⟨data, hmerging, -⟩ := h.merging
  exact hmerging.found

theorem Merge.foundLoser (h : Merge u event db db' survivor next loser merged gone) :
    db.card loser.id = some loser := by
  obtain ⟨data, hmerging, -⟩ := h.merging
  exact hmerging.foundLoser

theorem Merge.ne (h : Merge u event db db' survivor next loser merged gone) :
    survivor.id ≠ loser.id := by
  obtain ⟨data, hmerging, -⟩ := h.merging
  exact hmerging.ne

/-- Only the two cards change. -/
theorem Merge.mem (h : Merge u event db db' survivor next loser merged gone) {card : Card}
    (hcard : card ∈ db'.cards) : card = merged ∨ card = gone ∨ card ∈ db.cards := by
  obtain ⟨db₁, hsame, htables⟩ := h.tables
  rw [htables.cards] at hcard
  rcases Db.mem_put hcard with rfl | hcard
  · exact Or.inr (Or.inl rfl)
  · rcases Db.mem_put hcard with rfl | hcard
    · exact Or.inl rfl
    · rw [hsame.cards] at hcard
      exact Or.inr (Or.inr hcard)

theorem Merge.card (h : Merge u event db db' survivor next loser merged gone) :
    db'.card survivor.id = some merged ∧ db'.card loser.id = some gone := by
  obtain ⟨db₁, hsame, htables⟩ := h.tables
  have hmerged := h.merged_id
  have hgone := h.gone_id
  have hsurvivor : db₁.card merged.id = some survivor := by
    rw [hsame.card, hmerged]
    exact h.found
  have hloser : (db₁.put merged).card gone.id = some loser := by
    rw [Db.put_card_ne (by rw [hmerged, hgone]; exact h.ne), hsame.card, hgone]
    exact h.foundLoser
  rw [htables.card, htables.card]
  constructor
  · rw [Db.put_card_ne (by rw [hgone]; exact h.ne.symm), ← hmerged]
    exact Db.put_card_self merged hsurvivor
  · rw [← hgone]
    exact Db.put_card_self gone hloser

/-- The cards that are not merged stay as they are. -/
theorem Merge.card_ne (h : Merge u event db db' survivor next loser merged gone)
    (hsurvivor : id ≠ survivor.id) (hloser : id ≠ loser.id) : db'.card id = db.card id := by
  obtain ⟨db₁, hsame, htables⟩ := h.tables
  rw [htables.card, Db.put_card_ne (by rw [h.gone_id]; exact hloser.symm),
    Db.put_card_ne (by rw [h.merged_id]; exact hsurvivor.symm), hsame.card]

end Merge

section Requests

variable {event : Event}

theorem lifecycle_effect (action : LifecycleAction)
    (h : lifecycle u db id revision action actor now = .ok db')
    (hasks : event.asks id action) : Effect u event db db' := by
  have hmove : ∀ target, action.target = some target →
      transition u db id revision target actor now = .ok db' → Effect u event db db' := by
    intro target htarget h
    obtain ⟨card, act, hcard, -, hsource, hact, hvalid, rfl⟩ := transition_spec h
    obtain rfl := Db.id_of_card hcard
    exact .moved hasks htarget hcard hsource hact hvalid
  cases action with
  | submit => exact hmove _ rfl h
  | requestChanges => exact hmove _ rfl h
  | approve => exact hmove _ rfl h
  | publish => exact hmove _ rfl h
  | hide => exact hmove _ rfl h
  | archive => exact hmove _ rfl h
  | «show» =>
    obtain ⟨card, publishedAt, hcard, -, hhidden, hpublished, rfl⟩ := showHidden_spec h
    obtain rfl := Db.id_of_card hcard
    exact .shown hasks hcard hhidden hpublished
  | restore =>
    obtain ⟨card, target, hcard, -, harchived, hfrom, hne, rfl⟩ := restoreArchived_spec h
    obtain rfl := Db.id_of_card hcard
    exact .restored hasks hcard harchived hfrom hne

theorem approveAndPublish_effects (h : approveAndPublish u db id token actor now later = .ok db')
    (hasks : ∀ action, action = .approve ∨ action = .publish → event.asks id action) :
    Effects u event db db' := by
  obtain ⟨card, -, h⟩ := bind_eq_ok.mp h
  obtain ⟨-, h⟩ := seq_eq_ok.mp h
  obtain ⟨db₁, happrove, hpublish⟩ := bind_eq_ok.mp h
  have hfirst : Effect u event db db₁ := lifecycle_effect .approve happrove (hasks _ (Or.inl rfl))
  have hsecond : Effect u event db₁ db' := lifecycle_effect .publish hpublish (hasks _ (Or.inr rfl))
  exact .cons hfirst (transition_unpublished (by decide) happrove) (.single hsecond)

/-- A card with more assets, edited at once. -/
theorem requireRoom_spec {request : UploadRequest} {card : Card}
    (h : requireRoom db request id revision now = .ok card) :
    db.card id = some card ∧ card.row.revision = revision := by
  obtain ⟨found, hcard, h⟩ := bind_eq_ok.mp h
  obtain ⟨hrevision, h⟩ := seq_eq_ok.mp h
  obtain ⟨-, h⟩ := seq_eq_ok.mp h
  obtain ⟨-, h⟩ := seq_eq_ok.mp h
  cases h
  exact ⟨fromSome_eq_ok.mp hcard, require_eq_ok.mp hrevision⟩

theorem reserveUpload_effect {settings : UploadSettings} {assetId : UUID} {request : UploadRequest}
    (h : reserveUpload u settings db assetId request actor now = .ok db') :
    Effect u event db db' := by
  obtain ⟨-, h⟩ := seq_eq_ok.mp h
  cases hcomponent : request.componentId with
  | none =>
    rw [hcomponent] at h
    cases h
    exact .tables ⟨rfl, rfl, rfl⟩
  | some componentId =>
    rw [hcomponent] at h
    obtain ⟨revision, -, h⟩ := bind_eq_ok.mp h
    obtain ⟨card, hroom, h⟩ := bind_eq_ok.mp h
    obtain ⟨hcard, -⟩ := requireRoom_spec hroom
    obtain rfl := Db.id_of_card hcard
    obtain ⟨next, card', hnext, hedit, hrevision⟩ := touchMediaAttachment_edits h
    obtain rfl := Option.some.inj
      (hnext.symm.trans (Db.put_card_self { card with assets := _ } hcard))
    exact .edited (hedit.of_attached hcard ⟨rfl, rfl, rfl, rfl, rfl⟩ (.refl db)) (Or.inr hrevision)

theorem decideDuplicate_merge {candidateId : UUID} {decision : DuplicateDecision}
    {left right : Nat} {survivorId : Option UUID} {fieldSources : List (String × UUID)}
    (h : decideDuplicate u db candidateId decision left right survivorId fieldSources actor now =
      .ok db') :
    (survivorId = none ∧ SameTables db db') ∨ ∃ survivor next loser merged gone,
      Merge u (.decide candidateId decision left right survivorId fieldSources actor now) db db'
        survivor next loser merged gone := by
  obtain ⟨candidate, hcandidate, h⟩ := bind_eq_ok.mp h
  obtain ⟨-, h⟩ := seq_eq_ok.mp h
  obtain ⟨hdecision, h⟩ := seq_eq_ok.mp h
  obtain ⟨-, h⟩ := seq_eq_ok.mp h
  obtain ⟨db₁, hresolve, h⟩ := bind_eq_ok.mp h
  cases h
  replace hresolve := mapError_eq_ok.mp hresolve
  cases survivorId with
  | none =>
    obtain ⟨_, -, hresolve⟩ := bind_eq_ok.mp hresolve
    obtain ⟨_, -, hresolve⟩ := bind_eq_ok.mp hresolve
    obtain ⟨-, hresolve⟩ := seq_eq_ok.mp hresolve
    cases hresolve
    exact Or.inl ⟨rfl, rfl, rfl, rfl⟩
  | some survivor =>
    have hresolves : decision.resolves = true := by
      by_contra hno
      have := require_eq_ok.mp hdecision
      rw [if_neg hno] at this
      exact absurd this.1 (by simp)
    obtain ⟨loserId, card, next, loser, data, tags, definitions, merged, hids, hmerging, hmerged,
      rfl⟩ := resolveDuplicatePair_spec hresolve
    obtain rfl := Db.id_of_card hmerging.found
    obtain rfl := Db.id_of_card hmerging.foundLoser
    refine Or.inr ⟨card, next, loser, merged,
      loser.mergedAway u { db with tags := tags, definitions := definitions } merged.assets actor now,
      ?_, ?_, ?_⟩
    · have hlookup := fromSome_eq_ok.mp hcandidate
      have hne := hmerging.ne
      rcases hids with ⟨hs, hl⟩ | ⟨hs, hl⟩
      · simp [Event.merge, hresolves, hlookup, hs, hl]
      · simp [Event.merge, hresolves, hlookup, hs.symm, hl.symm, hne]
    · exact ⟨data, hmerging, { db with tags := tags, definitions := definitions }, actor, now,
        ⟨rfl, rfl, rfl⟩, hmerged, rfl⟩
    · exact ⟨{ db with tags := tags, definitions := definitions }, ⟨rfl, rfl, rfl⟩, rfl, rfl, rfl⟩

theorem create_effect {data : DraftData} {images : List ImageMutation} {primary : Option UUID}
    (h : create u db id data images primary actor now = .ok db') (hfresh : db.card id = none) :
    Effect u event db db' ∧ Unpublished db db' ∧ Unlinked db db' ∧
      ∃ card, db'.card id = some card ∧ card.row.status = .draft := by
  obtain ⟨tags, definitions, details, assets, hvalid, hfree, -, rfl⟩ := create_spec h
  refine ⟨.created hfresh hvalid hfree rfl rfl rfl, ?_, ?_, ?_⟩
  · intro card' hcard' r hr hpublished
    rcases List.mem_append.mp hcard' with hcard | hcard
    · exact ⟨card', hcard, rfl, hr⟩
    · rw [List.mem_singleton.mp hcard] at hr
      rw [List.mem_singleton.mp hr] at hpublished
      cases hpublished
  · intro card' hcard' link hlink
    rcases List.mem_append.mp hcard' with hcard | hcard
    · exact ⟨card', hcard, hlink⟩
    · rw [List.mem_singleton.mp hcard] at hlink
      cases hlink
  refine ⟨newCard u db id (newData id data) details assets actor now, ?_, rfl⟩
  have hid : (newCard u db id (newData id data) details assets actor now).id = id := rfl
  rw [Db.card] at hfresh ⊢
  rw [lookup_append, hfresh, if_pos hid, Option.none_or]

theorem attachSource_effect {relation : ComponentSource}
    (h : attachSource db id relation = .ok db') : Effect u event db db' := by
  obtain ⟨card, hcard, h⟩ := bind_eq_ok.mp h
  cases h
  obtain rfl := Db.id_of_card (locked_eq_ok.mp hcard)
  exact .sourced (locked_eq_ok.mp hcard)

theorem applyItem_effects {identity : String} {decision : LegacyDecision} {data : DraftData}
    {images : List LegacyImage} {newId owner : UUID}
    (h : applyItem u db identity decision data images newId owner actor now later = .ok db')
    (hfresh : db.card newId = none) : Effects u event db db' := by
  obtain ⟨hskip, h⟩ := seq_eq_ok.mp h
  obtain ⟨⟨db₁, componentId⟩, htarget, h⟩ := bind_eq_ok.mp h
  obtain ⟨db₂, hlink, h⟩ := bind_eq_ok.mp h
  obtain ⟨_, -, htouch⟩ := bind_eq_ok.mp h
  -- the card is a draft by the time it is linked
  have htarget : Effect u event db db₁ ∧ Unpublished db db₁ ∧ Unlinked db db₁ ∧
      ∃ card, db₁.card componentId = some card ∧ card.row.status = .draft := by
    cases decision with
    | create =>
      obtain ⟨_, hcreate, htarget⟩ := bind_eq_ok.mp htarget
      cases htarget
      exact create_effect hcreate hfresh
    | merge id revision token =>
      obtain ⟨_, -, htarget⟩ := bind_eq_ok.mp htarget
      obtain ⟨-, htarget⟩ := seq_eq_ok.mp htarget
      obtain ⟨_, hupdate, htarget⟩ := bind_eq_ok.mp htarget
      cases htarget
      obtain ⟨card, card', hcard, hedit, -, hrevision⟩ := update_edits hupdate
      obtain rfl := Db.id_of_card hcard
      exact ⟨.edited hedit (Or.inr (hrevision rfl)), hedit.unpublished, hedit.unlinked, card',
        hedit.card, hedit.edited.status⟩
  obtain ⟨hfirst, hquiet, hunlinked, card, hcard, hdraft⟩ := htarget
  obtain ⟨card', hcard', hlink⟩ := bind_eq_ok.mp hlink
  obtain ⟨-, hlink⟩ := seq_eq_ok.mp hlink
  cases hlink
  obtain rfl := Option.some.inj (hcard.symm.trans (locked_eq_ok.mp hcard'))
  obtain rfl := Db.id_of_card hcard
  have hfresh' : ∀ other ∈ db₁.cards, ∀ known ∈ other.legacy, known.identity ≠ identity := by
    intro other hother known hknown
    obtain ⟨old, hold, hlink⟩ := hunlinked other hother known hknown
    exact require_eq_ok.mp hskip old hold known hlink
  obtain ⟨next, last, hnext, hedit, hrevision⟩ := touchMediaAttachment_edits htouch
  obtain rfl := Option.some.inj
    (hnext.symm.trans (Db.put_card_self { card with assets := _, legacy := _ } hcard))
  exact .cons hfirst hquiet (.single (.linked hcard hdraft hfresh' hedit hrevision))

theorem createDocument_effects {requestId : UUID} {data : DraftData}
    (h : createDocument u db requestId id data actor now = .ok db') (hfresh : db.card id = none) :
    Effects u event db db' := by
  unfold createDocument at h
  cases hcreation : lookup EditorCreation.requestId db.creations requestId with
  | some existing =>
    rw [hcreation] at h
    obtain ⟨-, h⟩ := seq_eq_ok.mp h
    cases h
    exact .refl
  | none =>
    rw [hcreation] at h
    obtain ⟨db₁, hcreate, h⟩ := bind_eq_ok.mp h
    cases h
    obtain ⟨hfirst, hquiet, -⟩ : Effect u event db db₁ ∧ Unpublished db db₁ ∧ _ :=
      create_effect hcreate hfresh
    exact .cons hfirst hquiet (.single (.tables ⟨rfl, rfl, rfl⟩))

/-- A new card, and its source. -/
theorem createSourced_effects {data : DraftData} {relation : ComponentSource}
    (h : (do
      let db ← create u db id data [] none actor now
      attachSource db id relation) = .ok db') (hfresh : db.card id = none) :
    Effects u event db db' := by
  obtain ⟨db₁, hcreate, hattach⟩ := bind_eq_ok.mp h
  obtain ⟨hfirst, hquiet, -⟩ : Effect u event db db₁ ∧ Unpublished db db₁ ∧ _ :=
    create_effect hcreate hfresh
  exact .cons hfirst hquiet (.single (attachSource_effect hattach))

theorem persistDraft_effects {sourceId newId rowId : UUID} {keys : ExactKeys} {draft : DraftData}
    (h : persistDraft u db sourceId keys draft newId rowId actor now = .ok db')
    (hfresh : db.card newId = none) : Effects u event db db' := by
  unfold persistDraft at h
  split at h
  · split at h
    · cases h
      exact .refl
    · exact .single (attachSource_effect h)
  · exact createSourced_effects h hfresh

theorem persistRepositoryDraft_effects {sourceId newId rowId : UUID} {parsed : ParsedRepository}
    {draft : DraftData}
    (h : persistRepositoryDraft u db sourceId parsed draft newId rowId actor now = .ok db')
    (hfresh : db.card newId = none) : Effects u event db db' := by
  obtain ⟨_, -, h⟩ := bind_eq_ok.mp h
  obtain ⟨-, h⟩ := seq_eq_ok.mp h
  obtain ⟨-, h⟩ := seq_eq_ok.mp h
  split at h
  · cases h
    exact .refl
  · exact createSourced_effects h hfresh

end Requests

/-- `none` is no database, an error no transaction. -/
theorem toOption_eq_some {ε α : Type} {x : Except ε α} {a : α} :
    x.toOption = some a ↔ x = .ok a := by
  cases x <;> simp [Except.toOption]

/-- What a step draws is fresh. -/
theorem step_eq_some {env : Env} {event : Event} (h : step env db event = some db') :
    ¬ ((event.newId.bind db.card).isSome ∨
      ∃ id ∈ event.newAssets, id ∈ db.assets.map MediaAsset.id) ∧
        perform env db event = some db' := by
  unfold step at h
  by_cases hno : (event.newId.bind db.card).isSome ∨
      ∃ id ∈ event.newAssets, id ∈ db.assets.map MediaAsset.id
  · rw [if_pos hno] at h
    cases h
  · rw [if_neg hno] at h
    exact ⟨hno, h⟩

/-- A transaction that asks for a merge is one. -/
theorem step_merges {env : Env} {event : Event} {ids : UUID × UUID}
    (h : step env db event = some db') (hmerge : event.merge db = some ids) :
    ∃ survivor next loser merged gone,
      Merge env.unicode event db db' survivor next loser merged gone := by
  obtain ⟨-, h⟩ := step_eq_some h
  cases event with
  | decide candidateId decision left right survivorId fieldSources actor now =>
    rcases decideDuplicate_merge (toOption_eq_some.mp h) with ⟨rfl, -⟩ | hmerged
    · cases hmerge
    · exact hmerged
  | _ => cases hmerge

/-- **A transaction is a sequence of effects, or a merge.** -/
theorem step_effects {env : Env} {event : Event} (h : step env db event = some db') :
    Effects env.unicode event db db' ∨ ∃ survivor next loser merged gone,
      Merge env.unicode event db db' survivor next loser merged gone := by
  obtain ⟨hfresh, h⟩ := step_eq_some h
  have hnew : ∀ id, event.newId = some id → db.card id = none := by
    intro id hid
    rw [hid] at hfresh
    simpa using fun hno => hfresh (Or.inl hno)
  cases event with
  | createCategory id key name parentId description position =>
    change (if _ then _ else _) = _ at h
    split at h
    · cases h
    · rename_i hnone
      obtain ⟨-, h⟩ := seq_eq_ok.mp (toOption_eq_some.mp h)
      obtain ⟨-, h⟩ := seq_eq_ok.mp h
      obtain ⟨-, h⟩ := seq_eq_ok.mp h
      cases h
      exact Or.inl <| .single (.categorized (by simpa using hnone) rfl)
  | deactivateCategory id =>
    obtain ⟨category, hcategory, h⟩ := bind_eq_ok.mp (toOption_eq_some.mp h)
    obtain ⟨-, h⟩ := seq_eq_ok.mp h
    cases h
    replace hcategory := fromSome_eq_ok.mp hcategory
    obtain rfl : category.id = id := key_of_lookup hcategory
    exact Or.inl <| .single (.deactivated hcategory)
  | createComponent id data images primary actor now =>
    exact Or.inl <| .single (create_effect (toOption_eq_some.mp h) (hnew _ rfl)).1
  | createDocument requestId id data actor now =>
    exact Or.inl <| createDocument_effects (toOption_eq_some.mp h) (hnew _ rfl)
  | updateComponent id revision token data actor now =>
    obtain ⟨-, h⟩ := seq_eq_ok.mp (toOption_eq_some.mp h)
    obtain ⟨_, _, -, hedit, -, hrevision⟩ := update_edits h
    exact Or.inl <| .single (.edited hedit (Or.inr (hrevision rfl)))
  | updateComponentImages id revision token images primary actor now =>
    obtain ⟨-, h⟩ := seq_eq_ok.mp (toOption_eq_some.mp h)
    obtain ⟨_, _, -, hedit, -, -, hrevision⟩ := mutateImages_edits h
    exact Or.inl <| .single (.edited hedit (Or.inr (hrevision rfl)))
  | lifecycle id revision token action actor now =>
    obtain ⟨-, h⟩ := seq_eq_ok.mp (toOption_eq_some.mp h)
    exact Or.inl <| .single (lifecycle_effect action h ⟨rfl, rfl⟩)
  | synchronize id token data images primary actor now later =>
    obtain ⟨_, _, hcard, -, hedit, -⟩ := synchronize_edits (toOption_eq_some.mp h)
    exact Or.inl <| .single (.edited hedit (Or.inl (Db.id_of_card hcard).symm))
  | command id token action actor now =>
    obtain ⟨-, h⟩ := seq_eq_ok.mp (toOption_eq_some.mp h)
    obtain ⟨_, -, h⟩ := bind_eq_ok.mp h
    exact Or.inl <| .single (lifecycle_effect action h ⟨rfl, rfl⟩)
  | approveAndPublish id token actor now later =>
    exact Or.inl <| approveAndPublish_effects (toOption_eq_some.mp h) fun _ haction => ⟨rfl, haction⟩
  | reserveUpload assetId request actor now =>
    exact Or.inl <| .single (reserveUpload_effect (toOption_eq_some.mp h))
  | decide candidateId decision left right survivor fieldSources actor now =>
    exact (decideDuplicate_merge (toOption_eq_some.mp h)).imp
      (fun hsame => .single (.tables hsame.2)) id
  | propose candidate =>
    cases h
    exact Or.inl <| .single (.tables ⟨rfl, rfl, rfl⟩)
  | persistDraft sourceId keys draft newId rowId actor now =>
    exact Or.inl <| persistDraft_effects (toOption_eq_some.mp h) (hnew _ rfl)
  | persistRepositoryDraft sourceId parsed draft newId rowId actor now =>
    exact Or.inl <| persistRepositoryDraft_effects (toOption_eq_some.mp h) (hnew _ rfl)
  | applyItem identity decision data images newId owner actor now later =>
    exact Or.inl <| applyItem_effects (toOption_eq_some.mp h) (hnew _ rfl)
  | reviewLicense id =>
    obtain ⟨card, hcard, h⟩ := bind_eq_ok.mp (toOption_eq_some.mp h)
    obtain ⟨-, h⟩ := seq_eq_ok.mp h
    cases h
    obtain rfl := Db.id_of_card (locked_eq_ok.mp hcard)
    exact Or.inl <| .single (.reviewed (locked_eq_ok.mp hcard))
  | processMedia assetId result variants =>
    cases h
    exact Or.inl <| .single .processed
  | administer source =>
    cases h
    exact Or.inl <| .single (.administered rfl)

end ComponentKb.Catalog
