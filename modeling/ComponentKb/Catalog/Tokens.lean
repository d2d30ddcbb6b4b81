import ComponentKb.Catalog.Effects

/-!
# Revisions and edit tokens

A card has two counters. Its revision is advanced by every change that is recorded in its history;
its token is advanced by the trigger on every `UPDATE` of the row, those of an autosave included.

* `Advances`: what a transaction does to the two counters and to what the card holds.
* `step_progress`: every transaction advances every card.
* `no_lost_update`: an accepted request that names a token, or a revision in its place, finds the
  card as its client saw it; an upload, which names a revision only, adds to what it finds.
* `upload_after_autosave`: an upload that names a revision older than an autosave.
-/

namespace ComponentKb.Catalog

open ComponentKb.Lib

/-! ## What a card holds -/

/-- What a request writes of an asset. -/
structure Placement where
  id : UUID
  kind : Media.MediaKind
  purpose : String
  altText : String
  caption : Option String
  displayOrder : Nat
  isPrimary : Bool
  deriving DecidableEq, Repr

def MediaAsset.placement (a : MediaAsset) : Placement :=
  { id := a.id
    kind := a.kind
    purpose := a.purpose
    altText := a.altText
    caption := a.caption
    displayOrder := a.displayOrder
    isPrimary := a.isPrimary }

/-- The columns, the details and the media of a card: what an editor writes. -/
structure Draft where
  columns : Columns
  details : Details
  media : List Placement
  deriving DecidableEq, Repr

def Card.draft (card : Card) : Draft :=
  { columns := card.row.toColumns
    details := card.details
    media := card.assets.map MediaAsset.placement }

/-! ## The two counters -/

/-- What happens to a card in a transaction; `saved` says that it was an autosave of the card. -/
structure Advances (saved : Prop) (card card' : Card) : Prop where
  tokens : card.row.editToken ≤ card'.row.editToken
  revisions : card.row.revision ≤ card'.row.revision
  gap : card'.row.revision + card.row.editToken ≤ card.row.revision + card'.row.editToken
  same : card'.row.editToken = card.row.editToken → card'.draft = card.draft
  recorded : card'.row.revision = card.row.revision → saved ∨ card'.draft = card.draft

/-- Every card of `db` is still there, and has advanced. -/
def Progress (saved : UUID → Prop) (db db' : Db) : Prop :=
  ∀ id card, db.card id = some card → ∃ card', db'.card id = some card' ∧
    Advances (saved id) card card'

section Advances

variable {saved : Prop} {card card₁ card' : Card}

theorem Advances.refl (card : Card) : Advances saved card card :=
  ⟨le_refl _, le_refl _, le_refl _, fun _ => rfl, fun _ => Or.inr rfl⟩

theorem Advances.trans (h₁ : Advances saved card card₁) (h₂ : Advances saved card₁ card') :
    Advances saved card card' := by
  have ht₁ := h₁.tokens
  have ht₂ := h₂.tokens
  have hr₁ := h₁.revisions
  have hr₂ := h₂.revisions
  have hg₁ := h₁.gap
  have hg₂ := h₂.gap
  refine ⟨by omega, by omega, by omega, fun htoken => ?_, fun hrevision => ?_⟩
  · have hfirst := h₁.same (by omega)
    have hsecond := h₂.same (by omega)
    exact hsecond.trans hfirst
  · rcases h₁.recorded (by omega) with hsaved | hfirst
    · exact Or.inl hsaved
    · rcases h₂.recorded (by omega) with hsaved | hsecond
      · exact Or.inl hsaved
      · exact Or.inr (hsecond.trans hfirst)

theorem Advances.mono {saved' : Prop} (h : Advances saved card card') (hsaved : saved → saved') :
    Advances saved' card card' :=
  ⟨h.tokens, h.revisions, h.gap, h.same, fun hrevision => (h.recorded hrevision).imp hsaved id⟩

/-- Nothing that an editor writes is changed, nor the row. -/
theorem Advances.of_same (hrow : card'.row = card.row) (hdraft : card'.draft = card.draft) :
    Advances saved card card' := by
  refine ⟨?_, ?_, ?_, fun _ => hdraft, fun _ => Or.inr hdraft⟩
  · rw [hrow]
  · rw [hrow]
  · rw [hrow]

/-- A change that is recorded in the history and written at least once. -/
theorem Advances.of_recorded (hrevision : card'.row.revision = card.row.revision + 1)
    (htoken : card.row.editToken < card'.row.editToken) : Advances saved card card' := by
  refine ⟨by omega, by omega, by omega, fun hno => ?_, fun hno => ?_⟩
  · omega
  · omega

theorem Edited.advances {db : Db} (h : Edited db card card')
    (hrevision : saved ∨ card'.row.revision = card.row.revision + 1) :
    Advances saved card card' := by
  have htoken := h.token
  rcases hrevision with hsaved | hrevision
  · have hle : card.row.revision ≤ card'.row.revision ∧
        card'.row.revision ≤ card.row.revision + 1 := by
      rcases h.revisions with ⟨-, hsame⟩ | ⟨_, -, hnext, -⟩
      · omega
      · omega
    refine ⟨by omega, hle.1, by omega, fun hno => ?_, fun _ => Or.inl hsaved⟩
    omega
  · exact .of_recorded hrevision htoken

end Advances

section Progress

variable {saved : UUID → Prop} {db db₁ db' : Db}

theorem Progress.of_cards (h : db'.cards = db.cards) : Progress saved db db' := by
  intro id card hcard
  refine ⟨card, ?_, .refl card⟩
  rw [Db.card, h]
  exact hcard

theorem Progress.trans (h₁ : Progress saved db db₁) (h₂ : Progress saved db₁ db') :
    Progress saved db db' := by
  intro id card hcard
  obtain ⟨card₁, hcard₁, hfirst⟩ := h₁ id card hcard
  obtain ⟨card', hcard', hsecond⟩ := h₂ id card₁ hcard₁
  exact ⟨card', hcard', hfirst.trans hsecond⟩

theorem Progress.put {new old : Card} (hfound : db.card new.id = some old)
    (h : Advances (saved new.id) old new) : Progress saved db (db.put new) := by
  intro id card hcard
  by_cases hid : new.id = id
  · subst hid
    obtain rfl := Option.some.inj (hfound.symm.trans hcard)
    exact ⟨new, Db.put_card_self new hfound, h⟩
  · refine ⟨card, ?_, .refl card⟩
    rw [Db.put_card_ne hid]
    exact hcard

theorem EditsTo.progress {card card' : Card} (h : EditsTo db db' card card')
    (hrevision : saved card.id ∨ card'.row.revision = card.row.revision + 1) :
    Progress saved db db' := by
  obtain ⟨db₁, hsame, rfl⟩ := h.put
  have hfound : db₁.card card'.id = some card := by
    rw [hsame.card, h.edited.id]
    exact h.found
  have hadvances : Advances (saved card'.id) card card' := by
    rw [h.edited.id]
    exact h.edited.advances hrevision
  exact (Progress.of_cards hsame.cards).trans (Progress.put hfound hadvances)

end Progress

/-! ## Transactions -/

section Transactions

variable {u : Unicode} {env : Env} {event : Event} {db db' : Db}

theorem processMedia_progress {assetId : UUID} {result : Media.MediaAsset}
    {variants : List MediaVariant} :
    Progress event.saves db (processMedia db assetId result variants) := by
  intro id card hcard
  have hprocessed : (processMedia db assetId result variants).card id =
      (db.card id).map fun card => { card with assets := card.assets.map fun asset =>
        if asset.id = assetId ∧ asset.status ≠ .ready then asset.processed result variants
        else asset } := lookup_map fun _ => rfl
  rw [hcard] at hprocessed
  refine ⟨_, hprocessed, .of_same rfl ?_⟩
  have hplacement : ∀ a : MediaAsset,
      (if a.id = assetId ∧ a.status ≠ .ready then a.processed result variants else a).placement =
        a.placement := by
    intro a
    split <;> rfl
  simp only [Card.draft, List.map_map]
  congr 1
  exact List.map_congr_left fun a _ => hplacement a

/-- **Every effect advances every card.** -/
theorem Effect.progress (h : Effect u event db db') : Progress event.saves db db' := by
  cases h with
  | tables hsame => exact .of_cards hsame.cards
  | created _ _ _ hcards _ _ =>
    intro id card hcard
    refine ⟨card, ?_, .refl card⟩
    rw [Db.card, hcards, lookup_append_of_isSome (Option.isSome_of_eq_some hcard)]
    exact hcard
  | edited hedit hrevision => exact hedit.progress hrevision
  | moved _ _ hfound _ _ _ => exact Progress.put hfound (.of_recorded rfl (Nat.lt_succ_self _))
  | shown _ hfound _ _ => exact Progress.put hfound (.of_recorded rfl (Nat.lt_succ_self _))
  | restored _ hfound _ _ _ => exact Progress.put hfound (.of_recorded rfl (Nat.lt_succ_self _))
  | sourced hfound => exact Progress.put hfound (.of_same rfl rfl)
  | linked hfound hdraft hfresh hedit hrevision =>
    rename_i card card' assets link
    -- the images are attached and the card is touched in one transaction
    obtain ⟨db₁, hsame, rfl⟩ := hedit.after_put (.refl _) rfl
    have hid : card'.id = card.id := hedit.edited.id
    have hfound' : db₁.card card'.id = some card := by
      rw [hsame.card, hid]
      exact hfound
    exact (Progress.of_cards hsame.cards).trans
      (Progress.put hfound' (.of_recorded hrevision hedit.edited.token))
  | reviewed hfound => exact Progress.put hfound (.of_same rfl rfl)
  | processed => exact processMedia_progress
  | categorized _ hdb =>
    subst hdb
    exact .of_cards rfl
  | deactivated _ => exact .of_cards rfl
  | administered _ => exact .of_cards rfl

theorem Merge.survivor_revision {survivor next loser merged gone : Card}
    (h : Merge u event db db' survivor next loser merged gone) :
    merged.row.revision = survivor.row.revision + 1 := by
  obtain ⟨data, hmerging, db₁, actor, now, -, rfl, -⟩ := h.merging
  change next.row.revision + 1 = _
  obtain ⟨cols, hrow | hrow⟩ := hmerging.row
  · rw [hrow]
  · rw [hrow]
    rfl

theorem Merge.progress {survivor next loser merged gone : Card}
    (h : Merge u event db db' survivor next loser merged gone) : Progress event.saves db db' := by
  have hsurvivor : Advances (event.saves survivor.id) survivor merged := by
    refine .of_recorded h.survivor_revision ?_
    obtain ⟨data, hmerging, db₁, actor, now, -, rfl, -⟩ := h.merging
    change survivor.row.editToken < next.row.editToken + 1
    obtain ⟨cols, hrow | hrow⟩ := hmerging.row
    · rw [hrow]
      exact Nat.lt_succ_self _
    · rw [hrow]
      exact Nat.lt_succ_of_lt (Nat.lt_succ_self _)
  have hloser : Advances (event.saves loser.id) loser gone := by
    obtain ⟨data, -, db₁, actor, now, -, -, rfl⟩ := h.merging
    exact .of_recorded rfl (Nat.lt_succ_self _)
  intro id card hcard
  by_cases hs : id = survivor.id
  · subst hs
    obtain rfl := Option.some.inj (h.found.symm.trans hcard)
    exact ⟨merged, h.card.1, hsurvivor⟩
  · by_cases hl : id = loser.id
    · subst hl
      obtain rfl := Option.some.inj (h.foundLoser.symm.trans hcard)
      exact ⟨gone, h.card.2, hloser⟩
    · exact ⟨card, (h.card_ne hs hl).trans hcard, .refl card⟩

/-- **Every transaction advances every card.** -/
theorem step_progress (h : step env db event = some db') : Progress event.saves db db' := by
  rcases step_effects h with heffects | ⟨survivor, next, loser, merged, gone, hmerge⟩
  · clear h
    induction heffects with
    | refl => exact .of_cards rfl
    | single heffect => exact heffect.progress
    | cons hfirst _ _ ih => exact hfirst.progress.trans ih
  · exact hmerge.progress

/-- So does every run. -/
theorem run_progress {events : List Event} (h : run (step env) db events = some db') :
    Progress (fun _ => True) db db' := by
  refine run_of_step (fun db => Progress.of_cards rfl) (fun _ _ _ => Progress.trans) ?_ h
  intro a e b hstep id card hcard
  obtain ⟨card', hcard', hadvances⟩ := step_progress hstep id card hcard
  exact ⟨card', hcard', hadvances.mono fun _ => trivial⟩

/-- An autosave advances the token. -/
theorem step_saves {id : UUID} (hsaves : event.saves id) (h : step env db event = some db') :
    ∃ card card', db.card id = some card ∧ db'.card id = some card' ∧
      card.row.editToken < card'.row.editToken := by
  obtain ⟨-, h⟩ := step_eq_some h
  cases event with
  | synchronize component token data images primary actor now later =>
    obtain rfl : component = id := hsaves
    obtain ⟨card, card', hcard, -, hedit, -⟩ := synchronize_edits (toOption_eq_some.mp h)
    obtain rfl := Db.id_of_card hcard
    exact ⟨card, card', hcard, hedit.card, hedit.edited.token⟩
  | _ => cases hsaves

end Transactions

/-! ## No token is behind its revision -/

/-- No card has a token less than its revision. -/
def Ahead (db : Db) : Prop :=
  ∀ id card, db.card id = some card → card.row.revision ≤ card.row.editToken

section Ahead

variable {u : Unicode} {env : Env} {event : Event} {db db₁ db' : Db}

/-- A card that was there before is not behind, since it was not. -/
theorem Ahead.of_progress {saved : UUID → Prop} (h : Ahead db) (hprogress : Progress saved db db')
    (hnew : ∀ id card, db'.card id = some card → db.card id = none →
      card.row.revision ≤ card.row.editToken) : Ahead db' := by
  intro id card' hcard'
  cases hcard : db.card id with
  | none => exact hnew id card' hcard' hcard
  | some card =>
    obtain ⟨card₁, hcard₁, hadvances⟩ := hprogress id card hcard
    obtain rfl := Option.some.inj (hcard'.symm.trans hcard₁)
    have hbefore := h id card hcard
    have hgap := hadvances.gap
    have htokens := hadvances.tokens
    omega

theorem EditsTo.card_none {card card' : Card} {id : UUID} (h : EditsTo db db' card card')
    (hnone : db.card id = none) : db'.card id = none := by
  obtain ⟨db₁, hsame, rfl⟩ := h.put
  refine Db.put_card_none ?_
  rw [hsame.card]
  exact hnone

/-- A card that an effect makes has a token that is not behind. -/
theorem Effect.new_ahead (h : Effect u event db db') {id : UUID} {card : Card}
    (hnone : db.card id = none) (hcard : db'.card id = some card) :
    card.row.revision ≤ card.row.editToken := by
  have hput : ∀ new : Card, (db.put new).card id ≠ some card := by
    intro new hno
    rw [Db.put_card_none hnone] at hno
    cases hno
  have hcards : db'.cards = db.cards → card.row.revision ≤ card.row.editToken := by
    intro hsame
    rw [Db.card, hsame, ← Db.card, hnone] at hcard
    cases hcard
  cases h with
  | tables hsame => exact hcards hsame.cards
  | created _ _ _ hnew _ _ =>
    rw [Db.card, hnew, lookup_append, ← Db.card, hnone, Option.none_or] at hcard
    split at hcard
    · cases hcard
      exact le_refl 1
    · cases hcard
  | edited hedit _ =>
    rw [hedit.card_none hnone] at hcard
    cases hcard
  | moved | shown | restored | sourced | reviewed => exact absurd hcard (hput _)
  | linked _ _ _ hedit _ =>
    rw [hedit.card_none (Db.put_card_none hnone)] at hcard
    cases hcard
  | processed =>
    rename_i assetId result variants
    have hprocessed : (processMedia db assetId result variants).card id =
        (db.card id).map fun card => { card with assets := card.assets.map fun asset =>
          if asset.id = assetId ∧ asset.status ≠ .ready then asset.processed result variants
          else asset } := lookup_map fun _ => rfl
    rw [hnone, hcard] at hprocessed
    cases hprocessed
  | categorized _ hdb => exact hcards (by rw [hdb])
  | deactivated _ => exact hcards rfl
  | administered _ => exact hcards rfl

theorem Effect.ahead (h : Effect u event db db') (hi : Ahead db) : Ahead db' :=
  hi.of_progress h.progress fun _ _ hcard hnone => h.new_ahead hnone hcard

theorem Merge.ahead {survivor next loser merged gone : Card}
    (h : Merge u event db db' survivor next loser merged gone) (hi : Ahead db) : Ahead db' := by
  refine hi.of_progress h.progress fun id card hcard hnone => ?_
  by_cases hs : id = survivor.id
  · rw [hs, h.found] at hnone
    cases hnone
  · by_cases hl : id = loser.id
    · rw [hl, h.foundLoser] at hnone
      cases hnone
    · rw [h.card_ne hs hl, hnone] at hcard
      cases hcard

theorem step_ahead (hi : Ahead db) (h : step env db event = some db') : Ahead db' := by
  rcases step_effects h with heffects | ⟨survivor, next, loser, merged, gone, hmerge⟩
  · clear h
    induction heffects with
    | refl => exact hi
    | single heffect => exact heffect.ahead hi
    | cons hfirst _ _ ih => exact ih (hfirst.ahead hi)
  · exact hmerge.ahead hi

theorem run_ahead {events : List Event} (hempty : db.cards = [])
    (h : run (step env) db events = some db') : Ahead db' := by
  have hi : Ahead db := by
    intro id card hcard
    have hmem := Db.mem_of_card hcard
    rw [hempty] at hmem
    cases hmem
  exact run_inv (fun _ _ _ hi _ hstep => step_ahead hi hstep) hi (along_true db events) h

end Ahead

/-! ## Requests -/

/-- What a client sends to say which state of a card it has seen. -/
inductive Stamp where
  | token (editToken : Nat)
  | revision (number : Nat)
  deriving DecidableEq, Repr

/-- The row has the token, or the revision. -/
def Stamp.of (row : Component) : Stamp → Prop
  | token editToken => row.editToken = editToken
  | revision number => row.revision = number

instance (row : Component) : (stamp : Stamp) → Decidable (stamp.of row)
  | .token _ => inferInstanceAs (Decidable (_ = _))
  | .revision _ => inferInstanceAs (Decidable (_ = _))

/-- The stamp of a client that sends a revision, and a token or none. -/
def legacyStamp (revision : Nat) : Option Nat → Stamp
  | some editToken => .token editToken
  | none => .revision revision

/-- The card that a request writes, and its stamp; uploads and the other writers have none. -/
def Event.stamp : Event → Option (UUID × Stamp)
  | .updateComponent id revision token .. => some (id, legacyStamp revision token)
  | .updateComponentImages id revision token .. => some (id, legacyStamp revision token)
  | .lifecycle id revision token .. => some (id, legacyStamp revision token)
  | .synchronize id token .. => some (id, .token token)
  | .command id token .. => some (id, .token token)
  | .approveAndPublish id token .. => some (id, .token token)
  | _ => none

/-- What an accepted stamp says of the row: its token is the one sent, or the revision in its
place. -/
def Stamp.accepts (row : Component) : Stamp → Prop
  | token editToken => row.editToken = editToken
  | revision number => row.editToken = number ∧ row.revision = number

section Requests

variable {u : Unicode} {env : Env} {event : Event} {db db' : Db} {id actor : UUID}
  {revision : Nat} {now : Time}

theorem accepts_of_guard {token : Option Nat} {r : Unit}
    (hguard : legacyTokenGuard db id revision token = .ok r)
    (hrevision : ∃ card, db.card id = some card ∧ card.row.revision = revision) :
    ∃ card, db.card id = some card ∧ (legacyStamp revision token).accepts card.row := by
  obtain ⟨card, hcard, htoken⟩ := legacyTokenGuard_eq_ok.mp hguard
  obtain ⟨card', hcard', hrevision⟩ := hrevision
  obtain rfl := Option.some.inj (hcard.symm.trans hcard')
  refine ⟨card, hcard, ?_⟩
  cases token with
  | none => exact ⟨htoken, hrevision⟩
  | some token => exact htoken

theorem lifecycle_revision {action : LifecycleAction}
    (h : lifecycle u db id revision action actor now = .ok db') :
    ∃ card, db.card id = some card ∧ card.row.revision = revision := by
  cases action with
  | «show» =>
    obtain ⟨card, _, hcard, hrevision, -⟩ := showHidden_spec h
    exact ⟨card, hcard, hrevision⟩
  | restore =>
    obtain ⟨card, _, hcard, hrevision, -⟩ := restoreArchived_spec h
    exact ⟨card, hcard, hrevision⟩
  | submit | requestChanges | approve | publish | hide | archive =>
    obtain ⟨card, _, hcard, hrevision, -⟩ := transition_spec h
    exact ⟨card, hcard, hrevision⟩

/-- An accepted request finds the token it names, or the revision as the token. -/
theorem step_accepts {stamp : Stamp} (hstamp : event.stamp = some (id, stamp))
    (h : step env db event = some db') :
    ∃ card, db.card id = some card ∧ stamp.accepts card.row := by
  obtain ⟨-, h⟩ := step_eq_some h
  cases event with
  | updateComponent component revision token data actor now =>
    cases hstamp
    obtain ⟨hguard, h⟩ := seq_eq_ok.mp (toOption_eq_some.mp h)
    obtain ⟨card, _, _, _, hcard, hrevision, -⟩ := update_spec h
    exact accepts_of_guard hguard ⟨card, hcard, hrevision⟩
  | updateComponentImages component revision token images primary actor now =>
    cases hstamp
    obtain ⟨hguard, h⟩ := seq_eq_ok.mp (toOption_eq_some.mp h)
    obtain ⟨card, _, _, hcard, hrevision, -⟩ := mutateImages_spec h
    exact accepts_of_guard hguard ⟨card, hcard, hrevision⟩
  | lifecycle component revision token action actor now =>
    cases hstamp
    obtain ⟨hguard, h⟩ := seq_eq_ok.mp (toOption_eq_some.mp h)
    exact accepts_of_guard hguard (lifecycle_revision h)
  | synchronize component token data images primary actor now later =>
    cases hstamp
    obtain ⟨card, _, hcard, htoken, -⟩ := synchronize_edits (toOption_eq_some.mp h)
    exact ⟨card, hcard, htoken⟩
  | command component token action actor now =>
    cases hstamp
    obtain ⟨-, h⟩ := seq_eq_ok.mp (toOption_eq_some.mp h)
    obtain ⟨card, hlock, -⟩ := bind_eq_ok.mp h
    obtain ⟨hcard, htoken⟩ := lockToken_eq_ok.mp hlock
    exact ⟨card, hcard, htoken⟩
  | approveAndPublish component token actor now later =>
    cases hstamp
    obtain ⟨card, hlock, -⟩ := bind_eq_ok.mp (toOption_eq_some.mp h)
    obtain ⟨hcard, htoken⟩ := lockToken_eq_ok.mp hlock
    exact ⟨card, hcard, htoken⟩
  | _ => cases hstamp

/-- An upload to a card adds an asset to what the card holds when it is reserved. -/
theorem reserveUpload_adds {settings : UploadSettings} {assetId : UUID} {request : UploadRequest}
    (hcomponent : request.componentId = some id)
    (h : reserveUpload u settings db assetId request actor now = .ok db') :
    ∃ card card', db.card id = some card ∧ db'.card id = some card' ∧
      request.componentRevision = some card.row.revision ∧
      card'.draft.columns = card.draft.columns ∧ card'.draft.details = card.draft.details ∧
      ∃ new, card'.draft.media = card.draft.media ++ [new] := by
  obtain ⟨-, h⟩ := seq_eq_ok.mp h
  rw [hcomponent] at h
  obtain ⟨revision, hgiven, h⟩ := bind_eq_ok.mp h
  obtain ⟨card, hroom, h⟩ := bind_eq_ok.mp h
  obtain ⟨hcard, rfl⟩ := requireRoom_spec hroom
  obtain ⟨next, hnext, -, -, hdb'⟩ := touchMediaAttachment_spec h
  obtain rfl := Db.id_of_card hcard
  obtain rfl := Option.some.inj (hnext.symm.trans (Db.put_card_self { card with assets := _ } hcard))
  -- the row is written a second time, when the card is touched
  have hput : ∃ card', db'.card card.id = some card' ∧ card'.row.toColumns = card.row.toColumns ∧
      card'.details = card.details ∧ ∃ asset, card'.assets = card.assets ++ [asset] := by
    rw [hdb']
    exact ⟨_, Db.put_card_self _ hnext, rfl, rfl, _, rfl⟩
  obtain ⟨card', hcard', hcolumns, hdetails, asset, hassets⟩ := hput
  refine ⟨card, card', hcard, hcard', fromSome_eq_ok.mp hgiven, hcolumns, hdetails,
    asset.placement, ?_⟩
  rw [Card.draft, hassets, List.map_append]
  rfl

end Requests

/-! ## Lost updates -/

section Runs

variable {env : Env} {start shown db db' : Db} {past between : List Event} {event : Event}

/-- What an accepted stamp says of a card that the client saw with that stamp. -/
theorem seen_unchanged {id : UUID} {stamp : Stamp} {seen : Card} (hahead : Ahead shown)
    (hbetween : run (step env) shown between = some db) (hseen : shown.card id = some seen)
    (hof : stamp.of seen.row) {card : Card} (hcard : db.card id = some card)
    (haccepts : stamp.accepts card.row) : card.row.editToken = seen.row.editToken := by
  obtain ⟨card', hcard', hadvances⟩ := run_progress hbetween id seen hseen
  obtain rfl := Option.some.inj (hcard.symm.trans hcard')
  cases stamp with
  | token editToken => exact haccepts.trans hof.symm
  | revision number =>
    obtain ⟨htoken, hrevision⟩ := haccepts
    have hbehind : seen.row.revision ≤ seen.row.editToken := hahead id seen hseen
    have htokens := hadvances.tokens
    have hsame : seen.row.revision = number := hof
    omega

/-- No autosave came between two states in which the card has the same token. -/
theorem unsaved_between {id : UUID} {seen card : Card}
    (hbetween : run (step env) shown between = some db) (hseen : shown.card id = some seen)
    (hcard : db.card id = some card) (htoken : card.row.editToken = seen.row.editToken) :
    ∀ e ∈ between, ¬ e.saves id := by
  rintro e he hsaves
  obtain ⟨before, after, rfl⟩ := List.append_of_mem he
  rw [run_append] at hbetween
  obtain ⟨mid, hmid, hbetween⟩ := Option.bind_eq_some_iff.mp hbetween
  obtain ⟨mid', hstep, hafter⟩ := run_cons_eq_some.mp hbetween
  obtain ⟨card₁, hcard₁, hfirst⟩ := run_progress hmid id seen hseen
  obtain ⟨old, new, hold, hnew, hlt⟩ := step_saves hsaves hstep
  obtain rfl := Option.some.inj (hcard₁.symm.trans hold)
  obtain ⟨card₂, hcard₂, hlast⟩ := run_progress hafter id new hnew
  obtain rfl := Option.some.inj (hcard.symm.trans hcard₂)
  have hbefore := hfirst.tokens
  have hlater := hlast.tokens
  omega

/-- **No update is lost.** In a catalog that began empty no token is behind its revision. A request
that is accepted finds the card as it was when its client saw it, if the client saw it with the
token it sends or with the revision in its place, and no autosave came between. An upload replaces
nothing: it adds an asset to the card it finds. -/
theorem no_lost_update (hempty : start.cards = []) (hshown : run (step env) start past = some shown)
    (hbetween : run (step env) shown between = some db) (hstep : step env db event = some db') :
    Ahead db ∧
      (∀ id stamp seen, event.stamp = some (id, stamp) → shown.card id = some seen →
        stamp.of seen.row → (∃ card, db.card id = some card ∧ card.draft = seen.draft) ∧
          ∀ e ∈ between, ¬ e.saves id) ∧
      ∀ assetId request actor now id, event = .reserveUpload assetId request actor now →
        request.componentId = some id →
          ∃ card card', db.card id = some card ∧ db'.card id = some card' ∧
            request.componentRevision = some card.row.revision ∧
            card'.draft.columns = card.draft.columns ∧
            card'.draft.details = card.draft.details ∧
            ∃ new, card'.draft.media = card.draft.media ++ [new] := by
  have hahead := run_ahead hempty hshown
  refine ⟨?_, ?_, ?_⟩
  · have hrun : run (step env) start (past ++ between) = some db := by
      rw [run_append, hshown]
      exact hbetween
    exact run_ahead hempty hrun
  · intro id stamp seen hstamp hseen hof
    obtain ⟨card, hcard, haccepts⟩ := step_accepts hstamp hstep
    have htoken := seen_unchanged hahead hbetween hseen hof hcard haccepts
    refine ⟨⟨card, hcard, ?_⟩, unsaved_between hbetween hseen hcard htoken⟩
    obtain ⟨card', hcard', hadvances⟩ := run_progress hbetween id seen hseen
    obtain rfl := Option.some.inj (hcard.symm.trans hcard')
    exact hadvances.same htoken
  · rintro assetId request actor now id rfl hcomponent
    obtain ⟨-, hstep⟩ := step_eq_some hstep
    exact reserveUpload_adds hcomponent (toOption_eq_some.mp hstep)

end Runs

/-- A card that was just created. -/
def created : List Event := [.createComponent 10 (sensorDraft "sensor" true) [] none 7 1]

/-- The first autosave of the card, which changes its summary. -/
def firstAutosave : Event :=
  .synchronize 10 1 { sensorDraft "sensor" true with summary := "Measures." } [] none 7 2 3

/-- The autosave finds the card as it was shown when it was created. -/
theorem no_lost_update_autosave :
    ∃ shown ∈ run (step plainEnv) plainDb created,
      ∃ db ∈ run (step plainEnv) shown [.propose ⟨31, 10, 11, .open, 4000⟩],
        ∃ db' ∈ step plainEnv db firstAutosave, ∃ seen ∈ shown.card 10, Ahead db ∧
          (∃ card, db.card 10 = some card ∧ card.draft = seen.draft) ∧ db'.card 10 ≠ none := by
  have hrun : ∃ shown ∈ run (step plainEnv) plainDb created,
      ∃ db ∈ run (step plainEnv) shown [.propose ⟨31, 10, 11, .open, 4000⟩],
        ∃ db' ∈ step plainEnv db firstAutosave, ∃ seen ∈ shown.card 10,
          seen.row.editToken = 1 ∧ db'.card 10 ≠ none := by
    decide +kernel
  obtain ⟨shown, hshown, db, hbetween, db', hstep, seen, hseen, htoken, hcard⟩ := hrun
  obtain ⟨hahead, hlost, -⟩ := no_lost_update rfl hshown hbetween hstep
  exact ⟨shown, hshown, db, hbetween, db', hstep, seen, hseen, hahead,
    (hlost 10 (.token 1) seen rfl hseen htoken).1, hcard⟩

/-- **An upload does not ask for the token.** One that names the revision from before an autosave
is accepted after it, though the card holds something else by then. -/
theorem upload_after_autosave :
    let upload : Event :=
      .reserveUpload 21 ⟨.image, some 10, some 1, "photo", "Sensor", "image/png", 100⟩ 7 4
    firstAutosave.saves 10 ∧
      ∃ shown ∈ run (step plainEnv) plainDb created, ∃ db ∈ step plainEnv shown firstAutosave,
        (step plainEnv db upload).isSome ∧ ∃ seen ∈ shown.card 10, ∃ card ∈ db.card 10,
          seen.row.revision = 1 ∧ card.row.revision = 1 ∧ card.draft ≠ seen.draft := by
  decide +kernel

end ComponentKb.Catalog
