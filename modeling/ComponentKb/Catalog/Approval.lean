import ComponentKb.Catalog.Review
import ComponentKb.Catalog.Visibility
import Mathlib

/-!
# What is published is what was approved

A card that is approved may not be edited, and its snapshot is made anew when it is published, of
its row and of the tags and definitions that it shares with other cards. So the published draft is
the approved one as long as the shared rows read the same.

* `step_quiet`: a transaction that approves and publishes nothing records neither, and leaves no
  card approved that was not.
* **`published_as_approved`**: along a run in which no approved card is respelled, every snapshot
  that is published from an approved card records the draft of the approval before it.
* `published_respelled`: a card that is published without a unit it was approved with.
-/

namespace ComponentKb.Catalog

open ComponentKb.Lib

/-! ## Histories -/

/-- The draft that a snapshot records. -/
def Content.draftData (content : Content) : DraftData :=
  { slug := content.slug
    title := content.title
    aliases := content.aliases
    manufacturer := content.manufacturer
    model := content.model
    primaryCategoryId := content.primaryCategoryId
    tags := content.tags
    summary := content.summary
    description := content.description
    purpose := content.purpose
    usageNotes := content.usageNotes
    safetyNotes := content.safetyNotes
    difficulty := content.difficulty
    teacherNotes := content.teacherNotes
    manualOriginal := content.manualOriginal
    specifications := content.specifications
    compatibility := content.compatibility
    codeExamples := content.codeExamples }

/-- The approval that comes last in a history. -/
def lastApproval (revisions : List ComponentRevision) : Option ComponentRevision :=
  (revisions.filter (·.action = .approved)).getLast?

/-- Every snapshot published from an approved card records what the approval before it does. -/
def PublishesApproved (revisions : List ComponentRevision) : Prop :=
  ∀ past r later, revisions = past ++ r :: later → r.action = .published →
    r.previousStatus = some .approved →
      ∃ a, lastApproval past = some a ∧ r.content.draftData = a.content.draftData

/-- The claim about a database. -/
def AsApproved (db : Db) : Prop :=
  ∀ id card, db.card id = some card → PublishesApproved card.revisions

theorem lastApproval_append {past added : List ComponentRevision}
    (h : ∀ r ∈ added, r.action ≠ .approved) : lastApproval (past ++ added) = lastApproval past := by
  have hnone : added.filter (·.action = .approved) = [] :=
    List.filter_eq_nil_iff.mpr fun r hr => by simpa using h r hr
  rw [lastApproval, List.filter_append, hnone, List.append_nil]
  rfl

theorem lastApproval_approved {past : List ComponentRevision} {a : ComponentRevision}
    (h : a.action = .approved) : lastApproval (past ++ [a]) = some a := by
  rw [lastApproval, List.filter_append, List.filter_cons_of_pos (by simpa using h), List.filter_nil,
    List.getLast?_concat]

theorem PublishesApproved.append_one {past : List ComponentRevision} {r : ComponentRevision}
    (h : PublishesApproved past)
    (hr : r.action = .published → r.previousStatus = some .approved →
      ∃ a, lastApproval past = some a ∧ r.content.draftData = a.content.draftData) :
    PublishesApproved (past ++ [r]) := by
  intro before r' later heq haction hprevious
  -- the revision is the last one or stands in the history before
  rcases List.eq_nil_or_concat later with rfl | ⟨rest, last, rfl⟩
  · obtain ⟨rfl, hlast⟩ := List.append_inj' heq rfl
    obtain rfl := List.head_eq_of_cons_eq hlast
    exact hr haction hprevious
  · have hsplit : past ++ [r] = (before ++ r' :: rest) ++ [last] := by
      rw [heq]
      simp
    obtain ⟨rfl, -⟩ := List.append_inj' hsplit rfl
    exact h before r' rest rfl haction hprevious

theorem PublishesApproved.append {past added : List ComponentRevision} (h : PublishesApproved past)
    (hadded : ∀ r ∈ added, r.action ≠ .published) : PublishesApproved (past ++ added) := by
  induction added generalizing past with
  | nil =>
    rw [List.append_nil]
    exact h
  | cons r added ih =>
    obtain ⟨hr, hrest⟩ := List.forall_mem_cons.mp hadded
    rw [List.append_cons]
    exact ih (h.append_one fun hno => absurd hno hr) hrest

/-! ## Quiet changes -/

/-- A change of a card that approves and publishes nothing. -/
structure Quiet (card card' : Card) : Prop where
  revisions : ∃ added, card'.revisions = card.revisions ++ added ∧
    ∀ r ∈ added, r.action ≠ .approved ∧ r.action ≠ .published
  former : card'.row.former = .approved → card.row.former = .approved

/-- A new card that is not approved or published. -/
structure Fresh (card : Card) : Prop where
  revisions : ∀ r ∈ card.revisions, r.action ≠ .published
  former : card.row.former ≠ .approved

/-- Every card changes quietly, and none is removed. -/
structure QuietStep (db db' : Db) : Prop where
  kept : ∀ id card, db.card id = some card → ∃ card', db'.card id = some card' ∧ Quiet card card'
  fresh : ∀ id card', db.card id = none → db'.card id = some card' → Fresh card'

section Quiet

variable {u : Unicode} {db db₁ db' : Db} {card card₁ card' : Card} {actor : UUID} {now : Time}

theorem Quiet.of_same (hrevisions : card'.revisions = card.revisions)
    (hformer : card'.row.former = card.row.former) : Quiet card card' :=
  ⟨⟨[], by rw [hrevisions, List.append_nil], fun _ h => absurd h List.not_mem_nil⟩,
    fun h => hformer ▸ h⟩

theorem Quiet.refl (card : Card) : Quiet card card := .of_same rfl rfl

theorem Quiet.of_recorded {r : ComponentRevision} (hrevisions : card'.revisions = card.revisions ++ [r])
    (haction : r.action ≠ .approved ∧ r.action ≠ .published)
    (hformer : card'.row.former = .approved → card.row.former = .approved) : Quiet card card' :=
  ⟨⟨[r], hrevisions, fun r' hr' => by rw [List.mem_singleton.mp hr']; exact haction⟩, hformer⟩

theorem Quiet.trans (h₁ : Quiet card card₁) (h₂ : Quiet card₁ card') : Quiet card card' := by
  obtain ⟨added, hadded, hquiet⟩ := h₁.revisions
  obtain ⟨added', hadded', hquiet'⟩ := h₂.revisions
  refine ⟨⟨added ++ added', by rw [hadded', hadded, List.append_assoc], fun r hr => ?_⟩,
    fun h => h₁.former (h₂.former h)⟩
  exact (List.mem_append.mp hr).elim (hquiet r) (hquiet' r)

theorem Fresh.quiet (h₁ : Fresh card₁) (h₂ : Quiet card₁ card') : Fresh card' := by
  obtain ⟨added, hadded, hquiet⟩ := h₂.revisions
  refine ⟨fun r hr => ?_, fun hno => h₁.former (h₂.former hno)⟩
  rw [hadded] at hr
  exact (List.mem_append.mp hr).elim (h₁.revisions r) fun hr => (hquiet r hr).2

theorem QuietStep.of_cards (h : ∀ id, db'.card id = db.card id) : QuietStep db db' := by
  refine ⟨fun id card hcard => ⟨card, (h id).trans hcard, .refl card⟩, fun id card' hnone hcard => ?_⟩
  rw [h id, hnone] at hcard
  cases hcard

theorem QuietStep.trans (h₁ : QuietStep db db₁) (h₂ : QuietStep db₁ db') : QuietStep db db' := by
  constructor
  · intro id card hcard
    obtain ⟨card₁, hcard₁, hquiet₁⟩ := h₁.kept id card hcard
    obtain ⟨card', hcard', hquiet'⟩ := h₂.kept id card₁ hcard₁
    exact ⟨card', hcard', hquiet₁.trans hquiet'⟩
  · intro id card' hnone hcard'
    cases hmid : db₁.card id with
    | none => exact h₂.fresh id card' hmid hcard'
    | some card₁ =>
      obtain ⟨card₂, hcard₂, hquiet⟩ := h₂.kept id card₁ hmid
      obtain rfl := Option.some.inj (hcard'.symm.trans hcard₂)
      exact (h₁.fresh id card₁ hnone hmid).quiet hquiet

theorem QuietStep.put (hfound : db.card card'.id = some card) (h : Quiet card card') :
    QuietStep db (db.put card') := by
  constructor
  · intro id other hother
    by_cases hid : card'.id = id
    · subst hid
      obtain rfl := Option.some.inj (hfound.symm.trans hother)
      exact ⟨card', Db.put_card_self card' hfound, h⟩
    · exact ⟨other, (Db.put_card_ne hid).trans hother, .refl other⟩
  · intro id other hnone hother
    rw [Db.put_card_none hnone] at hother
    cases hother

theorem Edited.quiet (h : Edited db card card') : Quiet card card' := by
  have hformer : card'.row.former = .approved → card.row.former = .approved := by
    intro hno
    rw [Component.former, h.archivedFrom, h.status] at hno
    cases hno
  rcases h.revisions with ⟨hsame, -⟩ | ⟨r, hr, -, -, -, -, haction⟩
  · exact ⟨⟨[], by rw [hsame, List.append_nil], fun _ hno => absurd hno List.not_mem_nil⟩, hformer⟩
  · refine Quiet.of_recorded hr ?_ hformer
    constructor
    · intro hno
      rw [hno] at haction
      simp at haction
    · intro hno
      rw [hno] at haction
      simp at haction

theorem EditsTo.quiet (h : EditsTo db db' card card') : QuietStep db db' := by
  obtain ⟨db₁, hsame, rfl⟩ := h.put
  refine (QuietStep.of_cards fun id => hsame.card).trans (QuietStep.put ?_ h.edited.quiet)
  rw [hsame.card, h.edited.id]
  exact h.found

end Quiet

/-! ## Transactions -/

/-- The request approves or publishes a card. -/
def Event.rules (event : Event) : Prop :=
  ∃ id, event.asks id .approve ∨ event.asks id .publish

section Transactions

variable {u : Unicode} {event : Event} {db db' : Db} {card : Card} {actor : UUID} {now : Time}

/-- A card that is not archived is no former anything. -/
theorem CardOk.former_eq {categories : List Category} (h : CardOk categories card)
    (hne : card.row.status ≠ .archived) : card.row.former = card.row.status := by
  rw [Component.former, h.archived hne]
  rfl

theorem moved_former {categories : List Category} {target : ComponentStatus}
    {action : ComponentChangeAction} (hok : CardOk categories card)
    (hsource : card.row.status ∈ lifecycleTransitionSources target) :
    (card.moved u db target action actor now).row.former =
      if target = .archived then card.row.former else target := by
  change ((if target = .archived then some card.row.status else none).getD target) = _
  by_cases harchived : target = .archived
  · have hne : card.row.status ≠ .archived := by
      rw [harchived] at hsource
      exact (lifecycleTransitionSources_archived _).mp hsource
    rw [if_pos harchived, if_pos harchived, hok.former_eq hne]
    rfl
  · rw [if_neg harchived, if_neg harchived]
    rfl

/-- Only an approval is recorded as one, and only a publication. -/
theorem transitionAction_eq {target : ComponentStatus} {action : ComponentChangeAction}
    (h : lifecycleTransitionAction target = some action) :
    (action = .approved ↔ target = .approved) ∧ (action = .published ↔ target = .published) := by
  cases target <;> cases h <;> decide

theorem moved_quiet {categories : List Category} {target : ComponentStatus}
    {action : ComponentChangeAction} (hok : CardOk categories card)
    (hsource : card.row.status ∈ lifecycleTransitionSources target)
    (haction : lifecycleTransitionAction target = some action)
    (hne : target ≠ .approved ∧ target ≠ .published) :
    Quiet card (card.moved u db target action actor now) := by
  obtain ⟨happroved, hpublished⟩ := transitionAction_eq haction
  refine Quiet.of_recorded rfl ⟨mt happroved.mp hne.1, mt hpublished.mp hne.2⟩ fun hformer => ?_
  rw [moved_former hok hsource] at hformer
  by_cases harchived : target = .archived
  · rw [if_pos harchived] at hformer
    exact hformer
  · rw [if_neg harchived] at hformer
    exact absurd hformer hne.1

theorem restored_quiet {target : ComponentStatus}
    (hfrom : card.row.archivedFromStatus = some target) :
    Quiet card (card.restored u db target actor now) := by
  refine Quiet.of_recorded rfl ⟨nofun, nofun⟩ fun hformer => ?_
  rw [Component.former, hfrom]
  exact hformer

theorem Effect.quiet (h : Effect u event db db') (hi : Catalogued db) (hno : ¬ event.rules) :
    QuietStep db db' := by
  cases h with
  | tables hsame => exact .of_cards fun _ => hsame.card
  | @created _ id actor now data details assets hnone _ _ hcards _ _ =>
    have hlookup : ∀ other, db'.card other = (db.card other).or
        (if id = other then some (newCard u db id data details assets actor now) else none) := by
      intro other
      rw [Db.card, hcards, lookup_append]
      rfl
    constructor
    · intro other card hcard
      refine ⟨card, ?_, .refl card⟩
      rw [hlookup, hcard]
      rfl
    · intro other card' hother hcard'
      rw [hlookup, hother, Option.none_or] at hcard'
      split at hcard'
      · cases hcard'
        refine ⟨fun r hr => ?_, by rintro ⟨⟩⟩
        rw [List.mem_singleton.mp hr]
        rintro ⟨⟩
      · cases hcard'
  | edited hedit _ => exact hedit.quiet
  | @moved card asked target action actor now hasks htarget hcard hsource haction _ =>
    refine QuietStep.put hcard (moved_quiet (hi.cards _ (Db.mem_of_card hcard)) hsource haction ?_)
    constructor
    · rintro rfl
      cases asked <;> cases htarget
      exact hno ⟨_, Or.inl hasks⟩
    · rintro rfl
      cases asked <;> cases htarget
      exact hno ⟨_, Or.inr hasks⟩
  | shown _ hcard _ _ =>
    refine QuietStep.put hcard (Quiet.of_recorded rfl ⟨?_, ?_⟩ ?_) <;> rintro ⟨⟩
  | restored _ hcard _ hfrom _ => exact QuietStep.put hcard (restored_quiet hfrom)
  | sourced hcard => exact QuietStep.put hcard (.of_same rfl rfl)
  | linked hcard _ _ hedit _ =>
    refine QuietStep.trans ?_ hedit.quiet
    exact QuietStep.put hcard (.of_same rfl rfl)
  | reviewed hcard => exact QuietStep.put hcard (.of_same rfl rfl)
  | @processed assetId result variants =>
    let process (asset : MediaAsset) : MediaAsset :=
      if asset.id = assetId ∧ asset.status ≠ .ready then asset.processed result variants else asset
    have hcards : ∀ id, (processMedia db assetId result variants).card id =
        (db.card id).map fun card => { card with assets := card.assets.map process } :=
      fun id => lookup_map fun _ => rfl
    constructor
    · intro id card hcard
      refine ⟨{ card with assets := card.assets.map process }, ?_, .of_same rfl rfl⟩
      rw [hcards, hcard]
      rfl
    · intro id card' hnone hcard'
      rw [hcards, hnone] at hcard'
      cases hcard'
  | categorized _ heq => exact .of_cards fun _ => by rw [heq]; rfl
  | deactivated _ => exact .of_cards fun _ => rfl
  | administered _ => exact .of_cards fun _ => rfl

theorem Merge.quiet {survivor next loser merged gone : Card} (hi : Catalogued db)
    (h : Merge u event db db' survivor next loser merged gone) : QuietStep db db' := by
  have hok := hi.cards loser (Db.mem_of_card h.foundLoser)
  obtain ⟨data, hmerging, db₁, actor, now, -, hmerged, hgone⟩ := h.merging
  obtain ⟨row, details, hnext⟩ := hmerging.details
  have hsurvivor : Quiet survivor merged := by
    rw [hmerged, hnext]
    exact Quiet.of_recorded rfl ⟨nofun, nofun⟩ nofun
  have hloser : Quiet loser gone := by
    rw [hgone]
    refine Quiet.of_recorded rfl ⟨nofun, nofun⟩ fun hformer => ?_
    change (loser.row.mergedAway actor now).former = _ at hformer
    rw [Component.mergedAway_former hok.archived] at hformer
    exact hformer
  have hcards : ∀ id, id ≠ survivor.id → id ≠ loser.id → db'.card id = db.card id :=
    fun id hne hne' => h.card_ne hne hne'
  constructor
  · intro id card hcard
    by_cases hid : id = survivor.id
    · subst hid
      obtain rfl := Option.some.inj (h.found.symm.trans hcard)
      exact ⟨merged, h.card.1, hsurvivor⟩
    · by_cases hid' : id = loser.id
      · subst hid'
        obtain rfl := Option.some.inj (h.foundLoser.symm.trans hcard)
        exact ⟨gone, h.card.2, hloser⟩
      · exact ⟨card, (hcards id hid hid').trans hcard, .refl card⟩
  · intro id card' hnone hcard'
    have hid : id ≠ survivor.id := by
      rintro rfl
      rw [h.found] at hnone
      cases hnone
    have hid' : id ≠ loser.id := by
      rintro rfl
      rw [h.foundLoser] at hnone
      cases hnone
    rw [hcards id hid hid', hnone] at hcard'
    cases hcard'

/-- **A transaction that approves and publishes nothing is quiet.** -/
theorem step_quiet {env : Env} (hi : Catalogued db) (h : step env db event = some db')
    (hno : ¬ event.rules) : QuietStep db db' := by
  rcases step_effects h with heffects | ⟨survivor, next, loser, merged, gone, hmerge⟩
  · clear h
    induction heffects with
    | refl => exact .of_cards fun _ => rfl
    | single heffect => exact heffect.quiet hi hno
    | cons heffect _ _ ih => exact (heffect.quiet hi hno).trans (ih (heffect.catalogued hi))
  · exact hmerge.quiet hi

end Transactions

/-! ## Stored drafts -/

section Stored

variable {u : Unicode} {env : Env} {event : Event} {db db' : Db} {id : UUID} {data : DraftData}

/-- A card whose draft is stored is a draft. -/
theorem step_stores_draft (h : step env db event = some db')
    (hstores : event.stores env.unicode db = some (id, data)) {card : Card}
    (hcard : db.card id = some card) :
    ∃ card', db'.card id = some card' ∧ card'.row.former = .draft := by
  have hnew : ∀ new, event.newId = some new → new ≠ id := by
    rintro new hid rfl
    have hfresh := (step_eq_some h).1
    rw [hid] at hfresh
    exact hfresh (Or.inl (Option.isSome_of_eq_some hcard))
  have hedited : ∀ {db db' : Db} {card card' : Card}, EditsTo db db' card card' →
      card'.row.former = .draft := by
    intro db db' card card' hedit
    rw [Component.former, hedit.edited.archivedFrom, hedit.edited.status]
    rfl
  have hstep := h
  obtain ⟨-, h⟩ := step_eq_some h
  cases event with
  | createComponent new data images primary actor now =>
    cases hstores
    exact absurd rfl (hnew _ rfl)
  | createDocument requestId new data actor now =>
    rw [Event.stores] at hstores
    split at hstores
    · cases hstores
    · cases hstores
      exact absurd rfl (hnew _ rfl)
  | updateComponent component revision token data actor now =>
    cases hstores
    obtain ⟨-, h⟩ := seq_eq_ok.mp (toOption_eq_some.mp h)
    obtain ⟨old, card', hold, hedit, -⟩ := update_edits h
    obtain rfl := Db.id_of_card hold
    exact ⟨card', hedit.card, hedited hedit⟩
  | synchronize component token data images primary actor now later =>
    cases hstores
    obtain ⟨old, card', hold, -, hedit, -⟩ := synchronize_edits (toOption_eq_some.mp h)
    obtain rfl := Db.id_of_card hold
    exact ⟨card', hedit.card, hedited hedit⟩
  | decide candidateId decision left right survivorId fieldSources actor now =>
    obtain ⟨loserId, hmerge⟩ := decide_stores hstores
    obtain ⟨survivor, next, loser, merged, gone, hmerged⟩ := step_merges hstep hmerge
    obtain ⟨rfl, -⟩ := Prod.mk.inj (Option.some.inj (hmerge.symm.trans hmerged.event))
    refine ⟨merged, hmerged.card.1, ?_⟩
    obtain ⟨_, -, _, _, _, -, rfl, -⟩ := hmerged.merging
    rfl
  | persistDraft sourceId keys draft new rowId actor now =>
    rw [Event.stores] at hstores
    split at hstores
    · cases hstores
    · cases hstores
      exact absurd rfl (hnew _ rfl)
  | persistRepositoryDraft sourceId parsed draft new rowId actor now =>
    rw [Event.stores] at hstores
    split at hstores
    · cases hstores
    · cases hstores
      exact absurd rfl (hnew _ rfl)
  | applyItem identity decision data images new owner actor now later =>
    cases decision with
    | create =>
      cases hstores
      exact absurd rfl (hnew _ rfl)
    | merge component revision token =>
      cases hstores
      obtain ⟨-, h⟩ := seq_eq_ok.mp (toOption_eq_some.mp h)
      obtain ⟨⟨db₁, componentId⟩, htarget, h⟩ := bind_eq_ok.mp h
      obtain ⟨db₂, -, h⟩ := bind_eq_ok.mp h
      obtain ⟨_, -, htouch⟩ := bind_eq_ok.mp h
      obtain ⟨_, -, htarget⟩ := bind_eq_ok.mp htarget
      obtain ⟨-, htarget⟩ := seq_eq_ok.mp htarget
      obtain ⟨_, -, htarget⟩ := bind_eq_ok.mp htarget
      cases htarget
      obtain ⟨next, card', hnext, hedit, -⟩ := touchMediaAttachment_edits htouch
      obtain rfl := Db.id_of_card hnext
      exact ⟨card', hedit.card, hedited hedit⟩
  | _ => cases hstores

end Stored

/-! ## Runs -/

/-- An approved card, or one that was archived when it was approved, reads as it was approved. -/
structure Approved (u : Unicode) (db : Db) : Prop extends Catalogued db, Indexed db where
  history : AsApproved db
  reads : ∀ id card, db.card id = some card → card.row.former = .approved →
    ∃ a, lastApproval card.revisions = some a ∧ readData u db card = a.content.draftData

/-- No approved card is respelled. -/
def Unspelled (u : Unicode) (db : Db) (event : Event) (_ : Db) : Prop :=
  ∀ card ∈ db.cards, card.row.former = .approved → ¬ event.respells u db card

instance (u : Unicode) (db : Db) (event : Event) (db' : Db) :
    Decidable (Unspelled u db event db') :=
  inferInstanceAs (Decidable (∀ card ∈ _, _))

section Runs

variable {u : Unicode} {env : Env} {event : Event} {db db' : Db} {id actor : UUID} {now : Time}

theorem Approved.of_no_cards (h : db.cards = []) : Approved u db := by
  have hcatalogued : Catalogued db := (Shelved.of_no_cards h).toCatalogued
  have hnone : ∀ id card, db.card id ≠ some card := by
    intro id card hcard
    have hmem := Db.mem_of_card hcard
    rw [h] at hmem
    cases hmem
  refine ⟨hcatalogued, Indexed.of_no_cards h, ?_, ?_⟩
  · exact fun id card hcard => absurd hcard (hnone id card)
  · exact fun id card hcard => absurd hcard (hnone id card)

/-- A transaction that approves and publishes nothing. -/
theorem Approved.quiet (hi : Approved env.unicode db) (h : step env db event = some db')
    (hno : ¬ event.rules) (hspelled : Unspelled env.unicode db event db') :
    Approved env.unicode db' := by
  have hquiet := step_quiet hi.toCatalogued h hno
  refine ⟨step_catalogued hi.toCatalogued h, step_indexed hi.toIndexed h, fun id card' hcard' => ?_,
    fun id card' hcard' hformer => ?_⟩
  · cases hcard : db.card id with
    | none =>
      have hfresh := hquiet.fresh id card' hcard hcard'
      intro past r later heq haction
      exact absurd haction (hfresh.revisions r (by rw [heq]; simp))
    | some card =>
      obtain ⟨card₁, hcard₁, hchange⟩ := hquiet.kept id card hcard
      obtain rfl := Option.some.inj (hcard'.symm.trans hcard₁)
      obtain ⟨added, hadded, hactions⟩ := hchange.revisions
      rw [hadded]
      exact (hi.history id card hcard).append fun r hr => (hactions r hr).2
  · cases hcard : db.card id with
    | none => exact absurd hformer (hquiet.fresh id card' hcard hcard').former
    | some card =>
      obtain ⟨card₁, hcard₁, hchange⟩ := hquiet.kept id card hcard
      obtain rfl := Option.some.inj (hcard'.symm.trans hcard₁)
      obtain ⟨a, ha, hread⟩ := hi.reads id card hcard (hchange.former hformer)
      have hother : ∀ s ∈ event.stores env.unicode db, s.1 ≠ id := by
        rintro ⟨_, data⟩ hstores rfl
        obtain ⟨card₂, hcard₂, hdraft⟩ := step_stores_draft h hstores hcard
        obtain rfl := Option.some.inj (hcard'.symm.trans hcard₂)
        rw [hformer] at hdraft
        cases hdraft
      obtain ⟨card₂, hcard₂, -, hiff⟩ := step_reads_iff hi.toIndexed h hcard hother
      obtain rfl := Option.some.inj (hcard'.symm.trans hcard₂)
      have hsame := hiff.mpr (hspelled card (Db.mem_of_card hcard) (hchange.former hformer))
      obtain ⟨added, hadded, hactions⟩ := hchange.revisions
      refine ⟨a, ?_, hsame.trans hread⟩
      rw [hadded, lastApproval_append fun r hr => (hactions r hr).1]
      exact ha

/-- A transition reads the draft of its card, and writes no other card. -/
theorem Approved.moved {target : ComponentStatus} {card : Card} {action : ComponentChangeAction}
    (hi : Approved u db) (hcard : db.card card.id = some card)
    (hsource : card.row.status ∈ lifecycleTransitionSources target)
    (haction : lifecycleTransitionAction target = some action)
    (hrules : target = .approved ∨ target = .published)
    (hcatalogued : Catalogued (db.put (card.moved u db target action actor now))) :
    Approved u (db.put (card.moved u db target action actor now)) := by
  have hself : readData u db (card.moved u db target action actor now) = readData u db card := rfl
  have hfound : ∀ id card', (db.put (card.moved u db target action actor now)).card id = some card' →
      (card.id = id ∧ card' = card.moved u db target action actor now) ∨ db.card id = some card' := by
    intro id card' hcard'
    by_cases hid : card.id = id
    · subst hid
      exact Or.inl ⟨rfl, Option.some.inj (hcard'.symm.trans (Db.put_card_self _ hcard))⟩
    · have hold : (db.put (card.moved u db target action actor now)).card id = db.card id :=
        Db.put_card_ne hid
      exact Or.inr (hold ▸ hcard')
  obtain ⟨happroved, hpublished⟩ := transitionAction_eq haction
  refine ⟨hcatalogued, ?_, fun id card' hcard' => ?_, fun id card' hcard' hformer => ?_⟩
  · constructor
    · intro id card' hcard'
      rcases hfound id card' hcard' with ⟨-, rfl⟩ | hcard'
      · exact hi.tags card.id card hcard
      · exact hi.tags id card' hcard'
    · intro id card' hcard'
      rcases hfound id card' hcard' with ⟨-, rfl⟩ | hcard'
      · exact hi.properties card.id card hcard
      · exact hi.properties id card' hcard'
  · rcases hfound id card' hcard' with ⟨-, rfl⟩ | hcard'
    · -- the card was approved, and reads as it was
      refine (hi.history card.id card hcard).append_one fun hno _ => ?_
      obtain rfl := hpublished.mp hno
      have hstatus : card.row.status = .approved := List.mem_singleton.mp hsource
      have hok := hi.cards card (Db.mem_of_card hcard)
      have hformer : card.row.former = .approved := by
        rw [hok.former_eq (by rw [hstatus]; decide), hstatus]
      obtain ⟨a, ha, hdata⟩ := hi.reads card.id card hcard hformer
      exact ⟨a, ha, hself.trans hdata⟩
    · exact hi.history id card' hcard'
  · rcases hfound id card' hcard' with ⟨-, rfl⟩ | hcard'
    · rw [moved_former (hi.cards card (Db.mem_of_card hcard)) hsource] at hformer
      have htarget : target = .approved := by
        rcases hrules with rfl | rfl
        · rfl
        · cases hformer
      exact ⟨_, lastApproval_approved (happroved.mpr htarget), rfl⟩
    · exact hi.reads id card' hcard' hformer

theorem Approved.transition {target : ComponentStatus} {revision : Nat} (hi : Approved u db)
    (hrules : target = .approved ∨ target = .published)
    (h : transition u db id revision target actor now = .ok db') : Approved u db' := by
  obtain ⟨card, action, hcard, -, hsource, haction, hvalid, rfl⟩ := transition_spec h
  obtain rfl := Db.id_of_card hcard
  refine hi.moved hcard hsource haction hrules ?_
  have heffect : ∃ event : Event, Effect u event db (db.put (card.moved u db target action actor now)) := by
    rcases hrules with rfl | rfl
    · exact ⟨.lifecycle card.id revision none .approve actor now,
        .moved ⟨rfl, rfl⟩ rfl hcard hsource haction hvalid⟩
    · exact ⟨.lifecycle card.id revision none .publish actor now,
        .moved ⟨rfl, rfl⟩ rfl hcard hsource haction hvalid⟩
  obtain ⟨event, heffect⟩ := heffect
  exact heffect.catalogued hi.toCatalogued

/-- What one transaction preserves. -/
theorem step_approved (hi : Approved env.unicode db) (h : step env db event = some db')
    (hspelled : Unspelled env.unicode db event db') : Approved env.unicode db' := by
  by_cases hrules : event.rules
  · obtain ⟨id, hasks⟩ := hrules
    obtain ⟨-, hperform⟩ := step_eq_some h
    have hlifecycle : ∀ {component actor : UUID} {revision : Nat} {action : LifecycleAction}
        {now : Time}, action = .approve ∨ action = .publish →
          lifecycle env.unicode db component revision action actor now = .ok db' →
            Approved env.unicode db' := by
      rintro component actor revision _ now (rfl | rfl) h
      · exact hi.transition (Or.inl rfl) h
      · exact hi.transition (Or.inr rfl) h
    cases event with
    | lifecycle component revision token action actor now =>
      obtain ⟨-, hperform⟩ := seq_eq_ok.mp (toOption_eq_some.mp hperform)
      exact hlifecycle (hasks.imp And.right And.right) hperform
    | command component token action actor now =>
      obtain ⟨-, hperform⟩ := seq_eq_ok.mp (toOption_eq_some.mp hperform)
      obtain ⟨_, -, hperform⟩ := bind_eq_ok.mp hperform
      exact hlifecycle (hasks.imp And.right And.right) hperform
    | approveAndPublish component token actor now later =>
      obtain ⟨_, -, hperform⟩ := bind_eq_ok.mp (toOption_eq_some.mp hperform)
      obtain ⟨-, hperform⟩ := seq_eq_ok.mp hperform
      obtain ⟨db₁, happrove, hpublish⟩ := bind_eq_ok.mp hperform
      exact (hi.transition (Or.inl rfl) happrove).transition (Or.inr rfl) hpublish
    | _ => exact absurd hasks (by simp [Event.asks])
  · exact hi.quiet h hrules hspelled

/-- **What is published is what was approved.** Along a run from a catalog that began without cards,
in every state every snapshot published from an approved card records the draft of the approval
before it, if no transaction stores a number under a text with a unit that an approved card uses. -/
theorem published_as_approved (env : Env) {start : Db} (hempty : start.cards = [])
    {events : List Event} (hspelled : Along (step env) (Unspelled env.unicode) start events) :
    Always (step env) AsApproved start events :=
  always_of_inv (fun _ _ _ hi hspelled h => step_approved hi h hspelled)
    (fun _ hi => hi.history) (Approved.of_no_cards hempty) hspelled

/-- Card 10, which gives its supply as a text in volts, is published after card 11 is saved with
`data`. -/
def besides (data : DraftData) : List Event :=
  [.createComponent 10 (measured "sensor" "3-5" none) [⟨20, "photo", "Sensor", none⟩] none 7 1,
   .lifecycle 10 1 none .submit 7 2,
   .lifecycle 10 2 none .approve 7 3,
   .createComponent 11 data [] none 7 4,
   .lifecycle 10 3 none .publish 7 5]

/-- A card that is published as it was approved, after another was given a text in volts too. -/
theorem published_unspelled :
    Always (step plainEnv) AsApproved plainDb (besides (measured "sensor-copy" "4-6" none)) :=
  published_as_approved plainEnv rfl (by decide +kernel)

/-- **A card that is published as nobody approved it.** Between its approval and its publication
another card gives a number of volts, and the snapshot records the supply without its unit. -/
theorem published_respelled :
    ¬ Always (step plainEnv) AsApproved plainDb
      (besides (measured "sensor-copy" "5" (some "5"))) := by
  intro hall
  have hshown : ∃ db ∈ run (step plainEnv) plainDb
        (besides (measured "sensor-copy" "5" (some "5"))),
      ∃ card ∈ db.card 10, ∃ r ∈ card.revisions.getLast?,
        (r.action = .published ∧ r.previousStatus = some .approved) ∧
          ∀ a ∈ lastApproval card.revisions.dropLast,
            r.content.draftData ≠ a.content.draftData := by
    decide +kernel
  obtain ⟨db, hrun, card, hcard, r, hlast, ⟨haction, hprevious⟩, hdiffers⟩ := hshown
  have hrevisions : card.revisions = card.revisions.dropLast ++ r :: [] :=
    (List.dropLast_append_getLast? r hlast).symm
  obtain ⟨a, ha, hsame⟩ :=
    hall _ [] db (List.append_nil _).symm hrun 10 card hcard _ r [] hrevisions haction hprevious
  exact hdiffers a ha hsame

end Runs

end ComponentKb.Catalog
