import ComponentKb.Catalog.Sharing
import ComponentKb.Catalog.Visibility

/-!
# Active categories

`deactivate_category` locks the category and counts the cards that are filed under it. A save reads
the category before that, without a lock, and writes its card later: the foreign key only asks that
the category is there. `move` is a system in which the saves of cards take time; each has found the
categories as they were when it began. Cards are locked, so that everything else a save reads is
as it is at its commit.

* `Sound`: no card, and no public card, is filed under an inactive category.
* `categories_active_iff`: a run keeps to this exactly when no save commits a card under a category
  that was deactivated since it began.
* `filed_inactive`: a card is created in a category that is deactivated meanwhile.
-/

namespace ComponentKb.Catalog

open ComponentKb.Lib

/-! ## Categories of cards -/

section Active

variable {categories : List Category} {id : UUID}

theorem active_of_activeCategory {category : Category}
    (h : activeCategory categories id = some category) : Active categories id := by
  obtain ⟨hlookup, hactive⟩ := Option.filter_eq_some_iff.mp h
  exact ⟨category, mem_of_lookup hlookup, key_of_lookup hlookup, hactive⟩

theorem Active.append (h : Active categories id) (category : Category) :
    Active (categories ++ [category]) id := by
  obtain ⟨found, hmem, hfound⟩ := h
  exact ⟨found, List.mem_append_left _ hmem, hfound⟩

/-- Deactivating a category leaves the others active. -/
theorem Active.deactivated {category : Category} (h : Active categories id)
    (hne : id ≠ category.id) :
    Active (replace Category.id categories { category with isActive := false }) id := by
  obtain ⟨found, hmem, hid, hactive⟩ := h
  refine ⟨found, mem_replace_of_ne hmem ?_, hid, hactive⟩
  rw [hid]
  exact hne

end Active

/-- The cards that anyone can read, one at a time or in a list. -/
def Db.shows (db : Db) (card : CatalogCard) : Prop :=
  (∃ slug, getPublished db slug = .ok card) ∨
    ∃ categoryId difficulty limit, card ∈ (listPublished db categoryId difficulty limit).1

/-- No card, and no public card, is filed under an inactive category. -/
structure Sound (db : Db) : Prop where
  heads : ∀ id card, db.card id = some card → Active db.categories card.row.primaryCategoryId
  shown : ∀ card, db.shows card → Active db.categories card.data.primaryCategoryId

section Sound

variable {db db' : Db}

theorem publishedCard_active {card : Card} {shown : CatalogCard}
    (h : publishedCard db card = some shown) :
    Active db.categories shown.data.primaryCategoryId := by
  obtain ⟨snapshot, -, h⟩ := Option.bind_eq_some_iff.mp h
  obtain ⟨category, hcategory, h⟩ := Option.bind_eq_some_iff.mp h
  cases h
  exact active_of_activeCategory hcategory

/-- The public reads ask for the category of each card. -/
theorem shown_active {card : CatalogCard} (h : db.shows card) :
    Active db.categories card.data.primaryCategoryId := by
  rcases h with ⟨slug, h⟩ | ⟨categoryId, difficulty, limit, h⟩
  · obtain ⟨found, -, h⟩ := bind_eq_ok.mp h
    exact publishedCard_active (fromSome_eq_ok.mp h)
  · obtain ⟨id, -, h⟩ := List.mem_filterMap.mp h
    obtain ⟨found, -, h⟩ := Option.bind_eq_some_iff.mp h
    exact publishedCard_active h

theorem Sound.of_heads
    (h : ∀ id card, db.card id = some card →
      Active db.categories card.row.primaryCategoryId) : Sound db :=
  ⟨h, fun _ => shown_active⟩

theorem Sound.of_no_cards (h : db.cards = []) : Sound db := by
  refine .of_heads fun id card hcard => ?_
  have hmem := Db.mem_of_card hcard
  rw [h] at hmem
  cases hmem

/-- The cards keep their categories, and the categories that they have stay active. -/
theorem Sound.kept (hi : Sound db) (hcards : db'.cards = db.cards)
    (hactive : ∀ card ∈ db.cards, Active db.categories card.row.primaryCategoryId →
      Active db'.categories card.row.primaryCategoryId) : Sound db' := by
  refine .of_heads fun id card hcard => ?_
  have hfound : db.card id = some card := by
    rw [Db.card, ← hcards]
    exact hcard
  exact hactive card (Db.mem_of_card hfound) (hi.heads id card hfound)

end Sound

/-! ## Saves that take time -/

/-- The event is a change of the categories. -/
def Event.categorizes : Event → Bool
  | .createCategory .. | .deactivateCategory _ => true
  | _ => false

/-- A transaction that has begun, with the categories as it found them. -/
structure Saving where
  id : UUID
  event : Event
  found : List Category

/-- The database and the transactions that have begun. -/
structure Saves where
  db : Db
  saving : List Saving

inductive Move where
  | categorize (event : Event)
  | begin (id : UUID) (event : Event)
  | commit (id : UUID)
  | rollback (id : UUID)

/-- What a transaction leaves behind when it commits; the categories are those of the database by
then. -/
def Saving.commit (env : Env) (db : Db) (save : Saving) : Option Db :=
  (step env { db with categories := save.found } save.event).map fun db' =>
    { db' with categories := db.categories }

/-- A category is changed in one step: its row is locked, and a card that is filed under it cannot
be written before the lock is gone. -/
def move (env : Env) (w : Saves) : Move → Option Saves
  | .categorize event =>
    if event.categorizes then (step env w.db event).map fun db => { w with db := db } else none
  | .begin id event =>
    if event.categorizes ∨ (lookup Saving.id w.saving id).isSome then none
    else some { w with saving := w.saving ++ [⟨id, event, w.db.categories⟩] }
  | .commit id => do
    let save ← lookup Saving.id w.saving id
    let db ← save.commit env w.db
    some { db := db, saving := remove Saving.id w.saving id }
  | .rollback id => some { w with saving := remove Saving.id w.saving id }

/-- A save is about to commit a card under a category that is not active any more. -/
def Overtaken (u : Unicode) (w : Saves) : Move → Prop
  | .commit id => ∃ save ∈ lookup Saving.id w.saving id, ∃ s ∈ save.event.stores u w.db,
      ¬ Active w.db.categories s.2.primaryCategoryId
  | _ => False

instance (u : Unicode) (w : Saves) (m : Move) : Decidable (Overtaken u w m) := by
  unfold Overtaken
  split <;> infer_instance

section Moves

variable {env : Env} {db db' : Db} {save : Saving}

/-- The draft that a request stores does not depend on the categories. -/
theorem stores_categories (u : Unicode) (db : Db) (categories : List Category) (event : Event) :
    event.stores u { db with categories := categories } = event.stores u db := by
  cases event with
  | decide candidateId decision left right survivorId fieldSources actor now =>
    cases decision <;> rfl
  | applyItem identity decision data images newId owner actor now later =>
    cases decision <;> rfl
  | _ => rfl

/-- A save that commits leaves the cards it does not store, and it files the one that it stores
under the category of the draft. -/
theorem Saving.commit_stores (h : save.commit env db = some db') :
    db'.categories = db.categories ∧
      match save.event.stores env.unicode db with
      | none => ∀ id, (db'.card id).map Card.written = (db.card id).map Card.written
      | some s =>
        (∀ id, s.1 ≠ id → (db'.card id).map Card.written = (db.card id).map Card.written) ∧
          ∃ card, db'.card s.1 = some card ∧
            card.row.primaryCategoryId = s.2.primaryCategoryId := by
  obtain ⟨db₁, hstep, rfl⟩ := Option.map_eq_some_iff.mp h
  have hstores := step_stores hstep
  rw [stores_categories] at hstores
  refine ⟨rfl, ?_⟩
  cases hevent : save.event.stores env.unicode db with
  | none =>
    rw [hevent] at hstores
    exact hstores.cards
  | some s =>
    rw [hevent] at hstores
    exact ⟨hstores.others, hstores.category⟩

/-- A category that is deactivated has no cards. -/
theorem categorize_sound {event : Event} (hi : Sound db) (hcategorizes : event.categorizes = true)
    (h : step env db event = some db') : Sound db' := by
  obtain ⟨-, h⟩ := step_eq_some h
  cases event with
  | createCategory id key name parentId description position =>
    change (if _ then _ else _) = _ at h
    split at h
    · cases h
    · obtain ⟨-, h⟩ := seq_eq_ok.mp (toOption_eq_some.mp h)
      obtain ⟨-, h⟩ := seq_eq_ok.mp h
      obtain ⟨-, h⟩ := seq_eq_ok.mp h
      cases h
      exact hi.kept rfl fun card _ hactive => hactive.append _
  | deactivateCategory id =>
    obtain ⟨category, hcategory, h⟩ := bind_eq_ok.mp (toOption_eq_some.mp h)
    obtain ⟨hunused, h⟩ := seq_eq_ok.mp h
    cases h
    have hid : category.id = id := key_of_lookup (fromSome_eq_ok.mp hcategory)
    refine hi.kept rfl fun card hcard hactive => hactive.deactivated ?_
    rw [hid]
    exact (require_eq_ok.mp hunused).1 card hcard
  | _ => cases hcategorizes

/-- The commit of a save keeps every card under an active category if it was not overtaken. -/
theorem commit_sound (hi : Sound db) (h : save.commit env db = some db')
    (hok : ∀ s ∈ save.event.stores env.unicode db,
      Active db.categories s.2.primaryCategoryId) : Sound db' := by
  obtain ⟨hcategories, hcards⟩ := Saving.commit_stores h
  have hkept : ∀ id card, db'.card id = some card →
      (db'.card id).map Card.written = (db.card id).map Card.written →
        Active db'.categories card.row.primaryCategoryId := by
    intro id card hcard hsame
    obtain ⟨old, hold, hcolumns, -⟩ := written_before hsame hcard
    rw [hcategories, hcolumns]
    exact hi.heads id old hold
  refine .of_heads fun id card hcard => ?_
  cases hevent : save.event.stores env.unicode db with
  | none =>
    rw [hevent] at hcards
    exact hkept id card hcard (hcards id)
  | some s =>
    rw [hevent] at hcards
    obtain ⟨hothers, stored, hstored, hcategory⟩ := hcards
    by_cases hid : s.1 = id
    · subst hid
      obtain rfl := Option.some.inj (hstored.symm.trans hcard)
      rw [hcategories, hcategory]
      exact hok s hevent
    · exact hkept id card hcard (hothers id hid)

theorem move_sound (w : Saves) (m : Move) (w' : Saves) (hi : Sound w.db)
    (hok : ¬ Overtaken env.unicode w m) (h : move env w m = some w') : Sound w'.db := by
  cases m with
  | categorize event =>
    change (if _ then _ else _) = _ at h
    split at h
    · rename_i hcategorizes
      obtain ⟨db', hstep, rfl⟩ := Option.map_eq_some_iff.mp h
      exact categorize_sound hi hcategorizes hstep
    · cases h
  | begin id event =>
    change (if _ then _ else _) = _ at h
    split at h
    · cases h
    · cases h
      exact hi
  | commit id =>
    obtain ⟨save, hsave, h⟩ := Option.bind_eq_some_iff.mp h
    obtain ⟨db', hcommit, h⟩ := Option.bind_eq_some_iff.mp h
    cases h
    refine commit_sound hi hcommit fun s hs => ?_
    by_contra hinactive
    exact hok ⟨save, hsave, s, hs, hinactive⟩
  | rollback id =>
    cases h
    exact hi

/-- A save that was overtaken leaves its card under an inactive category. -/
theorem overtaken_unsound (w : Saves) (m : Move) (w' : Saves)
    (hover : Overtaken env.unicode w m) (h : move env w m = some w') : ¬ Sound w'.db := by
  cases m with
  | commit id =>
    obtain ⟨save, hsave, h⟩ := Option.bind_eq_some_iff.mp h
    obtain ⟨db', hcommit, h⟩ := Option.bind_eq_some_iff.mp h
    cases h
    obtain ⟨overtaken, hlookup, s, hs, hinactive⟩ := hover
    obtain rfl := Option.some.inj (hsave.symm.trans hlookup)
    obtain ⟨hcategories, hcards⟩ := Saving.commit_stores hcommit
    rw [hs] at hcards
    obtain ⟨-, card, hcard, hcategory⟩ := hcards
    intro hsound
    have hactive := hsound.heads s.1 card hcard
    rw [hcategory, hcategories] at hactive
    exact hinactive hactive
  | categorize event => exact hover.elim
  | begin id event => exact hover.elim
  | rollback id => exact hover.elim

end Moves

/-! ## Runs -/

section Runs

variable {env : Env} {start : Saves} {moves : List Move}

theorem not_overtaken_of_sound (hstart : Sound start.db)
    (halways : Always (move env) (fun w => Sound w.db) start moves) :
    Along (move env) (fun w m _ => ¬ Overtaken env.unicode w m) start moves :=
  along_of_always move_sound
    (fun w m w' _ h hsound hover => overtaken_unsound w m w' hover h hsound) hstart halways

/-- **Active categories.** From a database where no card is filed under an inactive category, a run
stays in such databases exactly when no save commits a card under a category that was deactivated
since the save began. -/
theorem categories_active_iff (env : Env) {start : Saves} (hstart : Sound start.db)
    (moves : List Move) :
    Always (move env) (fun w => Sound w.db) start moves ↔
      Along (move env) (fun w m _ => ¬ Overtaken env.unicode w m) start moves := by
  constructor
  · exact not_overtaken_of_sound hstart
  · intro halong
    exact always_of_inv move_sound (fun _ hsound => hsound) hstart halong

/-- A second category, which is deactivated while a card is created under the first. -/
theorem categories_active_kept :
    Sound plainDb ∧ Always (move plainEnv) (fun w => Sound w.db) ⟨plainDb, []⟩
      [.categorize (.createCategory 2 "boards" "Boards" none none 1),
        .begin 50 (.createComponent 10 (sensorDraft "sensor" true) [] none 7 1),
        .categorize (.deactivateCategory 2), .commit 50] := by
  have hsound : Sound (⟨plainDb, []⟩ : Saves).db := .of_no_cards rfl
  exact ⟨hsound, (categories_active_iff plainEnv hsound _).mpr (by decide +kernel)⟩

/-- The category of a card is deactivated between the check of the card and its commit. -/
theorem filed_inactive :
    ¬ ∀ (env : Env) (start : Saves) (moves : List Move), start.db.cards = [] →
      Always (move env) (fun w => Sound w.db) start moves := by
  intro hall
  have halways := hall plainEnv ⟨plainDb, []⟩
    [.begin 50 (.createComponent 10 (sensorDraft "sensor" true) [] none 7 1),
      .categorize (.deactivateCategory 1), .commit 50] rfl
  have hnever := not_overtaken_of_sound (.of_no_cards rfl) halways
  revert hnever
  decide +kernel

end Runs

end ComponentKb.Catalog
