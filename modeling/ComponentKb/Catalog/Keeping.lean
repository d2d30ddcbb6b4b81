import ComponentKb.Catalog.Effects

/-!
# What becomes of a card

No transaction deletes a card. What a transaction makes of one is said once (`Becomes`), so that a
property of cards that is kept by each of these is kept by the catalog.

* `Effect.becomes`: an effect leaves every card, and makes of it one of the things listed.
* **`step_keeps`**: a relation that each of them, and a merge, respects holds between a card and what
  any transaction makes of it.
* `Effects.traces`: a property that no new card has and no change of a card brings about comes from
  merges only.
* `step_candidates`, `step_ids_nodup`: what else no transaction does.
-/

namespace ComponentKb.Catalog

open ComponentKb.Lib

variable {u : Unicode} {event : Event} {db db₁ db' : Db} {R S : Card → Card → Prop}

/-- What one effect can make of a card. -/
inductive Becomes (u : Unicode) (card : Card) : Card → Prop where
  | same : Becomes u card card
  | edited {db : Db} {card' : Card} : Edited db card card' → Becomes u card card'
  | moved (db : Db) (target : ComponentStatus) {action : ComponentChangeAction} (actor : UUID)
      (now : Time) : lifecycleTransitionAction target = some action →
      Becomes u card (card.moved u db target action actor now)
  | shown (db : Db) (publishedAt : Time) (actor : UUID) (now : Time) :
      Becomes u card (card.shown u db publishedAt actor now)
  | restored (db : Db) {target : ComponentStatus} (actor : UUID) (now : Time) :
      target ≠ .archived → Becomes u card (card.restored u db target actor now)
  | sourced (relation : ComponentSource) :
      Becomes u card { card with sources := card.sources ++ [relation] }
  | linked (assets : List MediaAsset) (link : LegacySourceLink) :
      Becomes u card { card with assets := assets, legacy := card.legacy ++ [link] }
  | reviewed : Becomes u card { card with
      legacy := card.legacy.map fun link => { link with licenseStatus := "reviewed" } }
  | processed (assets : List MediaAsset) : Becomes u card { card with assets := assets }

/-- Every card stays, related to what it becomes. -/
def Keeps (R : Card → Card → Prop) (db db' : Db) : Prop :=
  ∀ id card, db.card id = some card → ∃ card', db'.card id = some card' ∧ R card card'

theorem Keeps.refl (hrefl : ∀ card, R card card) (db : Db) : Keeps R db db :=
  fun _ card h => ⟨card, h, hrefl card⟩

theorem Keeps.trans (htrans : ∀ a b c, R a b → R b c → R a c) (h₁ : Keeps R db db₁)
    (h₂ : Keeps R db₁ db') : Keeps R db db' := by
  intro id card h
  obtain ⟨card₁, hcard₁, hr₁⟩ := h₁ id card h
  obtain ⟨card', hcard', hr'⟩ := h₂ id card₁ hcard₁
  exact ⟨card', hcard', htrans _ _ _ hr₁ hr'⟩

theorem Keeps.of_cards (hrefl : ∀ card, R card card) (h : db'.cards = db.cards) :
    Keeps R db db' := by
  intro id card hcard
  refine ⟨card, ?_, hrefl card⟩
  rw [Db.card, h]
  exact hcard

theorem Keeps.put {new old : Card} (hrefl : ∀ card, R card card)
    (hfound : db.card new.id = some old) (hr : R old new) : Keeps R db (db.put new) := by
  intro id card hcard
  by_cases hid : new.id = id
  · subst hid
    obtain rfl := Option.some.inj (hfound.symm.trans hcard)
    exact ⟨new, Db.put_card_self new hfound, hr⟩
  · exact ⟨card, (Db.put_card_ne hid).trans hcard, hrefl card⟩

theorem Keeps.edits {card card' : Card} (hrefl : ∀ card, R card card) (h : EditsTo db db' card card')
    (hr : R card card') : Keeps R db db' := by
  obtain ⟨db₁, hsame, rfl⟩ := h.put
  have hfound : db₁.card card'.id = some card := by
    rw [hsame.card, h.edited.id]
    exact h.found
  intro id other hother
  exact Keeps.put hrefl hfound hr id other (hsame.card.trans hother)

section Respects

variable (hrefl : ∀ card, R card card) (htrans : ∀ a b c, R a b → R b c → R a c)
  (hbecomes : ∀ a b, Becomes u a b → R a b)

include hrefl htrans hbecomes

/-- **An effect leaves every card.** -/
theorem Effect.keeps (h : Effect u event db db') : Keeps R db db' := by
  cases h with
  | tables hsame => exact .of_cards hrefl hsame.cards
  | created _ _ _ hcards _ _ =>
    intro id card hcard
    refine ⟨card, ?_, hrefl card⟩
    rw [Db.card, hcards, lookup_append_of_isSome]
    · exact hcard
    · rw [← Db.card, hcard]
      rfl
  | edited hedit _ => exact .edits hrefl hedit (hbecomes _ _ (.edited hedit.edited))
  | moved _ _ hfound _ haction _ =>
    exact .put hrefl hfound (hbecomes _ _ (.moved _ _ _ _ haction))
  | shown _ hfound _ _ => exact .put hrefl hfound (hbecomes _ _ (.shown _ _ _ _))
  | restored _ hfound _ _ hne => exact .put hrefl hfound (hbecomes _ _ (.restored _ _ _ hne))
  | sourced hfound => exact .put hrefl hfound (hbecomes _ _ (.sourced _))
  | linked hfound _ _ hedit _ =>
    refine .trans htrans ?_ (.edits hrefl hedit (hbecomes _ _ (.edited hedit.edited)))
    exact .put hrefl hfound (hbecomes _ _ (.linked _ _))
  | reviewed hfound => exact .put hrefl hfound (hbecomes _ _ .reviewed)
  | processed =>
    intro id card hcard
    exact ⟨{ card with assets := _ },
      (lookup_map fun _ => rfl).trans (congrArg (Option.map _) hcard),
      hbecomes _ _ (.processed _)⟩
  | categorized _ hdb =>
    subst hdb
    exact .of_cards hrefl rfl
  | deactivated _ => exact .of_cards hrefl rfl
  | administered _ => exact .of_cards hrefl rfl

theorem Effects.keeps (h : Effects u event db db') : Keeps R db db' := by
  induction h with
  | refl => exact .refl hrefl _
  | single heffect => exact heffect.keeps hrefl htrans hbecomes
  | cons hfirst _ _ ih => exact .trans htrans (hfirst.keeps hrefl htrans hbecomes) ih

omit htrans hbecomes in
/-- A merge concerns two cards. -/
theorem Merge.keeps {survivor next loser merged gone : Card}
    (h : Merge u event db db' survivor next loser merged gone) (hmerged : R survivor merged)
    (hgone : R loser gone) : Keeps R db db' := by
  intro id card hcard
  by_cases hsurvivor : id = survivor.id
  · subst hsurvivor
    obtain rfl := Option.some.inj (h.found.symm.trans hcard)
    exact ⟨merged, h.card.1, hmerged⟩
  · by_cases hloser : id = loser.id
    · subst hloser
      obtain rfl := Option.some.inj (h.foundLoser.symm.trans hcard)
      exact ⟨gone, h.card.2, hgone⟩
    · exact ⟨card, (h.card_ne hsurvivor hloser).trans hcard, hrefl card⟩

/-- **What every change of a card respects, a transaction respects.** -/
theorem step_keeps {env : Env} (hu : env.unicode = u)
    (hmerge : ∀ survivor next loser merged gone,
      Merge u event db db' survivor next loser merged gone → R survivor merged ∧ R loser gone)
    (h : step env db event = some db') : Keeps R db db' := by
  subst hu
  rcases step_effects h with heffects | ⟨survivor, next, loser, merged, gone, hmerged⟩
  · exact heffects.keeps hrefl htrans hbecomes
  · obtain ⟨hr, hr'⟩ := hmerge _ _ _ _ _ hmerged
    exact hmerged.keeps hrefl hr hr'

end Respects

/-! ## Where a card with a property comes from -/

/-- A card with the property had it before. -/
def Traces (P : Card → Prop) (db db' : Db) : Prop :=
  ∀ id card', db'.card id = some card' → P card' → ∃ card, db.card id = some card ∧ P card

section Traces

variable {P : Card → Prop}

theorem Traces.trans (h₁ : Traces P db db₁) (h₂ : Traces P db₁ db') : Traces P db db' := by
  intro id card' hcard' hp'
  obtain ⟨card₁, hcard₁, hp₁⟩ := h₂ id card' hcard' hp'
  exact h₁ id card₁ hcard₁ hp₁

theorem Traces.of_cards (h : db'.cards = db.cards) : Traces P db db' := by
  intro id card' hcard' hp'
  refine ⟨card', ?_, hp'⟩
  rw [Db.card, ← h]
  exact hcard'

theorem Traces.put {new old : Card} (hfound : db.card new.id = some old) (hp : P new → P old) :
    Traces P db (db.put new) := by
  intro id card' hcard' hp'
  by_cases hid : new.id = id
  · subst hid
    rw [Db.put_card_self new hfound] at hcard'
    cases hcard'
    exact ⟨old, hfound, hp hp'⟩
  · rw [Db.put_card_ne hid] at hcard'
    exact ⟨card', hcard', hp'⟩

theorem Traces.edits {card card' : Card} (h : EditsTo db db' card card') (hp : P card' → P card) :
    Traces P db db' := by
  obtain ⟨db₁, hsame, rfl⟩ := h.put
  have hfound : db₁.card card'.id = some card := by
    rw [hsame.card, h.edited.id]
    exact h.found
  exact (Traces.of_cards hsame.cards).trans (Traces.put hfound hp)

variable (hnew : ∀ db id data details assets actor now,
    ¬ P (newCard u db id data details assets actor now))
  (hbecomes : ∀ a b, Becomes u a b → P b → P a)

include hnew hbecomes

/-- What no new card has and no change of a card brings about, was there before. -/
theorem Effect.traces (h : Effect u event db db') : Traces P db db' := by
  cases h with
  | tables hsame => exact .of_cards hsame.cards
  | created _ _ _ hcards _ _ =>
    intro id card' hcard' hp'
    rw [Db.card, hcards, lookup_append] at hcard'
    rcases Option.or_eq_some_iff.mp hcard' with hold | ⟨-, hcreated⟩
    · exact ⟨card', hold, hp'⟩
    · split at hcreated
      · cases hcreated
        exact absurd hp' (hnew _ _ _ _ _ _ _)
      · cases hcreated
  | edited hedit _ => exact .edits hedit (hbecomes _ _ (.edited hedit.edited))
  | moved _ _ hfound _ haction _ => exact .put hfound (hbecomes _ _ (.moved _ _ _ _ haction))
  | shown _ hfound _ _ => exact .put hfound (hbecomes _ _ (.shown _ _ _ _))
  | restored _ hfound _ _ hne => exact .put hfound (hbecomes _ _ (.restored _ _ _ hne))
  | sourced hfound => exact .put hfound (hbecomes _ _ (.sourced _))
  | linked hfound _ _ hedit _ =>
    refine .trans ?_ (.edits hedit (hbecomes _ _ (.edited hedit.edited)))
    exact .put hfound (hbecomes _ _ (.linked _ _))
  | reviewed hfound => exact .put hfound (hbecomes _ _ .reviewed)
  | processed =>
    intro id card' hcard' hp'
    obtain ⟨card, hcard, rfl⟩ :=
      Option.map_eq_some_iff.mp ((lookup_map fun _ => rfl).symm.trans hcard')
    exact ⟨card, hcard, hbecomes _ _ (.processed _) hp'⟩
  | categorized _ hdb =>
    subst hdb
    exact .of_cards rfl
  | deactivated _ => exact .of_cards rfl
  | administered _ => exact .of_cards rfl

theorem Effects.traces (h : Effects u event db db') : Traces P db db' := by
  induction h with
  | refl => exact .of_cards rfl
  | single heffect => exact heffect.traces hnew hbecomes
  | cons hfirst _ _ ih => exact (hfirst.traces hnew hbecomes).trans ih

end Traces

/-! ## The suspected duplicates -/

section Candidates

variable {id actor : UUID} {revision : Nat} {now : Time}

theorem create_candidates {data : DraftData} {images : List ImageMutation} {primary : Option UUID}
    (h : create u db id data images primary actor now = .ok db') :
    db'.candidates = db.candidates := by
  obtain ⟨_, _, _, _, -, -, -, rfl⟩ := create_spec h
  rfl

theorem update_candidates {data : DraftData} {recordHistory : Bool}
    (h : update u db id revision data actor now recordHistory = .ok db') :
    db'.candidates = db.candidates := by
  obtain ⟨_, _, _, _, -, -, -, -, -, -, -, rfl⟩ := update_spec h
  rfl

theorem mutateImages_candidates {images : List ImageMutation} {primary : Option UUID}
    {recordHistory : Bool}
    (h : mutateImages u db id revision images primary actor now recordHistory = .ok db') :
    db'.candidates = db.candidates := by
  obtain ⟨_, _, _, -, -, -, -, rfl⟩ := mutateImages_spec h
  rfl

theorem touchMediaAttachment_candidates
    (h : touchMediaAttachment u db id revision actor now = .ok db') :
    db'.candidates = db.candidates := by
  obtain ⟨_, -, -, -, rfl⟩ := touchMediaAttachment_spec h
  rfl

theorem transition_candidates {target : ComponentStatus}
    (h : transition u db id revision target actor now = .ok db') :
    db'.candidates = db.candidates := by
  obtain ⟨_, _, -, -, -, -, -, rfl⟩ := transition_spec h
  rfl

theorem lifecycle_candidates {action : LifecycleAction}
    (h : lifecycle u db id revision action actor now = .ok db') :
    db'.candidates = db.candidates := by
  cases action with
  | «show» =>
    obtain ⟨_, _, -, -, -, -, rfl⟩ := showHidden_spec h
    rfl
  | restore =>
    obtain ⟨_, _, -, -, -, -, -, rfl⟩ := restoreArchived_spec h
    rfl
  | submit | requestChanges | approve | publish | hide | archive => exact transition_candidates h

theorem synchronize_candidates {token : Nat} {data : DraftData} {images : List ImageMutation}
    {primary : Option UUID} {later : Time}
    (h : synchronize u db id token data images primary actor now later = .ok db') :
    db'.candidates = db.candidates := by
  obtain ⟨_, -, h⟩ := bind_eq_ok.mp h
  obtain ⟨-, h⟩ := seq_eq_ok.mp h
  obtain ⟨-, h⟩ := seq_eq_ok.mp h
  obtain ⟨-, h⟩ := seq_eq_ok.mp h
  obtain ⟨_, hattach, h⟩ := bind_eq_ok.mp h
  obtain ⟨_, hupdate, hmutate⟩ := bind_eq_ok.mp h
  obtain ⟨_, rfl⟩ := attachNew_spec hattach
  rw [mutateImages_candidates hmutate, update_candidates hupdate]
  rfl

theorem createDocument_candidates {requestId : UUID} {data : DraftData}
    (h : createDocument u db requestId id data actor now = .ok db') :
    db'.candidates = db.candidates := by
  unfold createDocument at h
  split at h
  · obtain ⟨-, h⟩ := seq_eq_ok.mp h
    cases h
    rfl
  · obtain ⟨db₁, hcreate, h⟩ := bind_eq_ok.mp h
    cases h
    exact (create_candidates hcreate : db₁.candidates = db.candidates)

theorem reserveUpload_candidates {settings : UploadSettings} {assetId : UUID}
    {request : UploadRequest}
    (h : reserveUpload u settings db assetId request actor now = .ok db') :
    db'.candidates = db.candidates := by
  obtain ⟨-, h⟩ := seq_eq_ok.mp h
  cases hcomponent : request.componentId with
  | none =>
    rw [hcomponent] at h
    cases h
    rfl
  | some componentId =>
    rw [hcomponent] at h
    obtain ⟨_, -, h⟩ := bind_eq_ok.mp h
    obtain ⟨_, -, h⟩ := bind_eq_ok.mp h
    exact Eq.trans (touchMediaAttachment_candidates h) (Db.put_candidates _ _)

theorem attachSource_candidates {relation : ComponentSource}
    (h : attachSource db id relation = .ok db') : db'.candidates = db.candidates := by
  obtain ⟨_, -, h⟩ := bind_eq_ok.mp h
  cases h
  rfl

theorem persistDraft_candidates {sourceId newId rowId : UUID} {keys : ExactKeys} {draft : DraftData}
    (h : persistDraft u db sourceId keys draft newId rowId actor now = .ok db') :
    db'.candidates = db.candidates := by
  unfold persistDraft at h
  split at h
  · split at h
    · cases h
      rfl
    · exact attachSource_candidates h
  · obtain ⟨_, hcreate, h⟩ := bind_eq_ok.mp h
    rw [attachSource_candidates h, create_candidates hcreate]

theorem persistRepositoryDraft_candidates {sourceId newId rowId : UUID} {parsed : ParsedRepository}
    {draft : DraftData}
    (h : persistRepositoryDraft u db sourceId parsed draft newId rowId actor now = .ok db') :
    db'.candidates = db.candidates := by
  obtain ⟨_, -, h⟩ := bind_eq_ok.mp h
  obtain ⟨-, h⟩ := seq_eq_ok.mp h
  obtain ⟨-, h⟩ := seq_eq_ok.mp h
  split at h
  · cases h
    rfl
  · obtain ⟨_, hcreate, h⟩ := bind_eq_ok.mp h
    rw [attachSource_candidates h, create_candidates hcreate]

theorem applyItem_candidates {identity : String} {decision : LegacyDecision} {data : DraftData}
    {images : List LegacyImage} {newId owner : UUID} {later : Time}
    (h : applyItem u db identity decision data images newId owner actor now later = .ok db') :
    db'.candidates = db.candidates := by
  obtain ⟨-, h⟩ := seq_eq_ok.mp h
  obtain ⟨⟨db₁, componentId⟩, htarget, h⟩ := bind_eq_ok.mp h
  obtain ⟨db₂, hlink, h⟩ := bind_eq_ok.mp h
  obtain ⟨_, -, htouch⟩ := bind_eq_ok.mp h
  have hfirst : db₁.candidates = db.candidates := by
    cases decision with
    | create =>
      obtain ⟨_, hcreate, htarget⟩ := bind_eq_ok.mp htarget
      cases htarget
      exact create_candidates hcreate
    | merge id revision token =>
      obtain ⟨_, -, htarget⟩ := bind_eq_ok.mp htarget
      obtain ⟨-, htarget⟩ := seq_eq_ok.mp htarget
      obtain ⟨_, hupdate, htarget⟩ := bind_eq_ok.mp htarget
      cases htarget
      exact update_candidates hupdate
  have hsecond : db₂.candidates = db₁.candidates := by
    obtain ⟨_, -, hlink⟩ := bind_eq_ok.mp hlink
    obtain ⟨-, hlink⟩ := seq_eq_ok.mp hlink
    cases hlink
    rfl
  rw [touchMediaAttachment_candidates htouch, hsecond, hfirst]

/-- The transaction proposes or decides a duplicate. -/
def Event.pairs : Event → Bool
  | .decide .. | .propose _ => true
  | _ => false

/-- **No other transaction touches the suspected duplicates.** -/
theorem step_candidates {env : Env} (hpairs : event.pairs = false)
    (h : step env db event = some db') : db'.candidates = db.candidates := by
  obtain ⟨-, h⟩ := step_eq_some h
  cases event with
  | createCategory id key name parentId description position =>
    change (if _ then _ else _) = _ at h
    split at h
    · cases h
    · obtain ⟨-, h⟩ := seq_eq_ok.mp (toOption_eq_some.mp h)
      obtain ⟨-, h⟩ := seq_eq_ok.mp h
      obtain ⟨-, h⟩ := seq_eq_ok.mp h
      cases h
      rfl
  | deactivateCategory id =>
    obtain ⟨_, -, h⟩ := bind_eq_ok.mp (toOption_eq_some.mp h)
    obtain ⟨-, h⟩ := seq_eq_ok.mp h
    cases h
    rfl
  | createComponent => exact create_candidates (toOption_eq_some.mp h)
  | createDocument => exact createDocument_candidates (toOption_eq_some.mp h)
  | updateComponent =>
    obtain ⟨-, h⟩ := seq_eq_ok.mp (toOption_eq_some.mp h)
    exact update_candidates h
  | updateComponentImages =>
    obtain ⟨-, h⟩ := seq_eq_ok.mp (toOption_eq_some.mp h)
    exact mutateImages_candidates h
  | lifecycle =>
    obtain ⟨-, h⟩ := seq_eq_ok.mp (toOption_eq_some.mp h)
    exact lifecycle_candidates h
  | synchronize => exact synchronize_candidates (toOption_eq_some.mp h)
  | command =>
    obtain ⟨-, h⟩ := seq_eq_ok.mp (toOption_eq_some.mp h)
    obtain ⟨_, -, h⟩ := bind_eq_ok.mp h
    exact lifecycle_candidates h
  | approveAndPublish =>
    obtain ⟨_, -, h⟩ := bind_eq_ok.mp (toOption_eq_some.mp h)
    obtain ⟨-, h⟩ := seq_eq_ok.mp h
    obtain ⟨_, happrove, hpublish⟩ := bind_eq_ok.mp h
    rw [transition_candidates hpublish, transition_candidates happrove]
  | reserveUpload => exact reserveUpload_candidates (toOption_eq_some.mp h)
  | decide => cases hpairs
  | propose => cases hpairs
  | persistDraft => exact persistDraft_candidates (toOption_eq_some.mp h)
  | persistRepositoryDraft => exact persistRepositoryDraft_candidates (toOption_eq_some.mp h)
  | applyItem => exact applyItem_candidates (toOption_eq_some.mp h)
  | reviewLicense =>
    obtain ⟨_, -, h⟩ := bind_eq_ok.mp (toOption_eq_some.mp h)
    obtain ⟨-, h⟩ := seq_eq_ok.mp h
    cases h
    rfl
  | processMedia =>
    cases h
    rfl
  | administer =>
    cases h
    rfl

end Candidates

/-! ## The ids -/

/-- The ids of the cards stay, and at most a fresh one joins them. -/
def IdsGrow (db db' : Db) : Prop :=
  db'.cards.map Card.id = db.cards.map Card.id ∨
    ∃ id, db.card id = none ∧ db'.cards.map Card.id = db.cards.map Card.id ++ [id]

theorem IdsGrow.nodup (h : IdsGrow db db') (hnodup : (db.cards.map Card.id).Nodup) :
    (db'.cards.map Card.id).Nodup := by
  rcases h with h | ⟨id, hnew, h⟩
  · rw [h]
    exact hnodup
  · rw [h]
    refine List.Nodup.append hnodup (List.nodup_singleton id) ?_
    intro other hother hid
    obtain ⟨card, hcard, rfl⟩ := List.mem_map.mp hother
    exact lookup_eq_none.mp hnew card hcard (List.mem_singleton.mp hid)

theorem put_ids (db : Db) (card : Card) :
    (db.put card).cards.map Card.id = db.cards.map Card.id :=
  map_key_replace card

theorem EditsTo.ids {card card' : Card} (h : EditsTo db db' card card') :
    db'.cards.map Card.id = db.cards.map Card.id := by
  obtain ⟨db₁, hsame, rfl⟩ := h.put
  rw [put_ids, hsame.cards]

theorem Effect.ids (h : Effect u event db db') : IdsGrow db db' := by
  cases h with
  | tables hsame => exact Or.inl (by rw [hsame.cards])
  | created hnew _ _ hcards _ _ =>
    refine Or.inr ⟨_, hnew, ?_⟩
    rw [hcards, List.map_append]
    rfl
  | edited hedit _ => exact Or.inl hedit.ids
  | moved => exact Or.inl (put_ids _ _)
  | shown => exact Or.inl (put_ids _ _)
  | restored => exact Or.inl (put_ids _ _)
  | sourced => exact Or.inl (put_ids _ _)
  | linked _ _ _ hedit _ => exact Or.inl (hedit.ids.trans (put_ids _ _))
  | reviewed => exact Or.inl (put_ids _ _)
  | processed => exact Or.inl (by simp [processMedia, Function.comp_def, Card.id])
  | categorized _ hdb =>
    subst hdb
    exact Or.inl rfl
  | deactivated => exact Or.inl rfl
  | administered => exact Or.inl rfl

/-- **No id is lost, or given twice.** -/
theorem step_ids_nodup {env : Env} (hnodup : (db.cards.map Card.id).Nodup)
    (h : step env db event = some db') : (db'.cards.map Card.id).Nodup := by
  rcases step_effects h with heffects | ⟨survivor, next, loser, merged, gone, hmerged⟩
  · clear h
    induction heffects with
    | refl => exact hnodup
    | single heffect => exact heffect.ids.nodup hnodup
    | cons hfirst _ _ ih => exact ih (hfirst.ids.nodup hnodup)
  · obtain ⟨db₁, hsame, htables⟩ := hmerged.tables
    rw [htables.cards, put_ids, put_ids, hsame.cards]
    exact hnodup

end ComponentKb.Catalog
