import ComponentKb.Catalog.Publication

/-!
# Licences and provenance

A publication checks the sources of a card unless the card is marked as an original
(`_validate_publication`). A merge moves the sources of the loser to the survivor, and leaves its
legacy links behind.

* `Gated`: what the licence gate asks of a transaction.
* `OneOwner`: a legacy item is linked to one card; every transaction keeps it.
* `gated_iff`: the gate holds exactly as long as no original with an unchecked source is published
  and no card with a legacy link is merged away.
* `gate_bypassed`: both ways round the gate.
-/

namespace ComponentKb.Catalog

open ComponentKb.Lib

/-! ## The gate -/

/-- Every source of the card may be published. -/
def Card.licensed (registry : List Source) (card : Card) : Prop :=
  ∀ row ∈ componentSourceRows registry card.sources, validatePublishSource row = .ok ()

instance (registry : List Source) (card : Card) : Decidable (card.licensed registry) := by
  unfold Card.licensed
  infer_instance

/-- The sources and the legacy links of `merged` are those of both cards. -/
def Union (survivor loser merged : Card) : Prop :=
  (∀ relation, relation ∈ merged.sources ↔
      relation ∈ survivor.sources ∨ relation ∈ loser.sources) ∧
    ∀ link, link ∈ merged.legacy ↔ link ∈ survivor.legacy ∨ link ∈ loser.legacy

instance (survivor loser merged : Card) : Decidable (Union survivor loser merged) :=
  decidable_of_iff
    ((merged.sources ⊆ survivor.sources ++ loser.sources ∧
        survivor.sources ++ loser.sources ⊆ merged.sources) ∧
      merged.legacy ⊆ survivor.legacy ++ loser.legacy ∧
        survivor.legacy ++ loser.legacy ⊆ merged.legacy)
    (by
      constructor
      · rintro ⟨⟨h₁, h₂⟩, h₃, h₄⟩
        exact ⟨fun _ => ⟨fun h => List.mem_append.mp (h₁ h), fun h => h₂ (List.mem_append.mpr h)⟩,
          fun _ => ⟨fun h => List.mem_append.mp (h₃ h), fun h => h₄ (List.mem_append.mpr h)⟩⟩
      · rintro ⟨h₁, h₂⟩
        exact ⟨⟨fun _ h => List.mem_append.mpr ((h₁ _).mp h),
            fun _ h => (h₁ _).mpr (List.mem_append.mp h)⟩,
          fun _ h => List.mem_append.mpr ((h₂ _).mp h),
          fun _ h => (h₂ _).mpr (List.mem_append.mp h)⟩)

/-- The licence gate: a card that is published has licensed sources only, and a merged card has the
provenance of both cards. -/
structure Gated (db : Db) (event : Event) (db' : Db) : Prop where
  published : ∀ card ∈ db'.cards, event.asks card.id .publish → card.licensed db'.sources
  merged : ∀ ids ∈ event.merge db, ∀ survivor ∈ db.card ids.1, ∀ loser ∈ db.card ids.2,
    ∀ merged ∈ db'.card ids.1, Union survivor loser merged

instance (db db' : Db) (event : Event) : Decidable (Gated db event db') :=
  decidable_of_iff
    ((∀ card ∈ db'.cards, event.asks card.id .publish → card.licensed db'.sources) ∧
      ∀ ids ∈ event.merge db, ∀ survivor ∈ db.card ids.1, ∀ loser ∈ db.card ids.2,
        ∀ merged ∈ db'.card ids.1, Union survivor loser merged)
    ⟨fun h => ⟨h.1, h.2⟩, fun h => ⟨h.published, h.merged⟩⟩

/-- The request publishes a card that is marked as an original and has a source that may not be
published. -/
def publishesUnlicensed (db : Db) (event : Event) : Prop :=
  ∃ card ∈ db.cards, event.asks card.id .publish ∧ card.row.manualOriginal = true ∧
    ¬ card.licensed db.sources

/-- The request merges away a card that has a legacy link. -/
def losesLinks (db : Db) (event : Event) : Prop :=
  ∃ ids ∈ event.merge db, ∃ loser ∈ db.card ids.2, loser.legacy ≠ []

instance (db : Db) (event : Event) : Decidable (publishesUnlicensed db event) := by
  unfold publishesUnlicensed
  infer_instance

instance (db : Db) (event : Event) : Decidable (losesLinks db event) := by
  unfold losesLinks
  infer_instance

/-! ## Publications -/

section Publications

variable {u : Unicode} {db db' : Db} {event : Event} {id actor : UUID} {revision : Nat} {now : Time}

/-- What a publication finds and leaves of the sources of a card. -/
structure PublishedFrom (db db' : Db) (card card' : Card) : Prop where
  sources : card'.sources = card.sources
  registry : db'.sources = db.sources
  origin : validateOrigin card.row (componentSourceRows db.sources card.sources) = .ok ()

theorem validatePublication_origin {card : Card} (h : validatePublication db card = .ok ()) :
    validateOrigin card.row (componentSourceRows db.sources card.sources) = .ok () := by
  obtain ⟨-, h⟩ := seq_eq_ok.mp h
  obtain ⟨-, h⟩ := seq_eq_ok.mp h
  obtain ⟨-, h⟩ := seq_eq_ok.mp h
  obtain ⟨-, h⟩ := seq_eq_ok.mp h
  exact (seq_eq_ok.mp h).1

theorem transition_published (h : transition u db id revision .published actor now = .ok db') :
    ∃ card card', db.card id = some card ∧ db'.card id = some card' ∧
      PublishedFrom db db' card card' := by
  obtain ⟨card, action, hfound, -, -, -, hvalid, rfl⟩ := transition_spec h
  obtain rfl := Db.id_of_card hfound
  refine ⟨card, card.moved u db .published action actor now, hfound, ?_, rfl, rfl, ?_⟩
  · exact Db.put_card_self (card.moved u db .published action actor now) hfound
  · exact validatePublication_origin hvalid

/-- A request to publish a card does so. -/
theorem step_published {env : Env} (hasks : event.asks id .publish)
    (h : step env db event = some db') :
    ∃ card card', db.card id = some card ∧ db'.card id = some card' ∧
      PublishedFrom db db' card card' := by
  obtain ⟨-, h⟩ := step_eq_some h
  cases event with
  | lifecycle component revision token asked actor now =>
    obtain ⟨rfl, rfl⟩ := hasks
    obtain ⟨-, h⟩ := seq_eq_ok.mp (toOption_eq_some.mp h)
    exact transition_published h
  | command component token asked actor now =>
    obtain ⟨rfl, rfl⟩ := hasks
    obtain ⟨-, h⟩ := seq_eq_ok.mp (toOption_eq_some.mp h)
    obtain ⟨_, -, h⟩ := bind_eq_ok.mp h
    exact transition_published h
  | approveAndPublish component token actor now later =>
    obtain ⟨rfl, -⟩ := hasks
    obtain ⟨_, -, h⟩ := bind_eq_ok.mp (toOption_eq_some.mp h)
    obtain ⟨-, h⟩ := seq_eq_ok.mp h
    obtain ⟨db₁, happrove, hpublish⟩ := bind_eq_ok.mp h
    obtain ⟨card, action, hfound, -, -, -, -, rfl⟩ := transition_spec happrove
    obtain ⟨card₁, card', hfound₁, hfound', hsources, hregistry, horigin⟩ :=
      transition_published hpublish
    obtain rfl := Db.id_of_card hfound
    -- the approval changes neither the sources nor the mark
    have hmoved := Db.put_card_self (card.moved env.unicode db .approved action actor now) hfound
    obtain rfl := Option.some.inj (hfound₁.symm.trans hmoved)
    exact ⟨card, card', hfound, hfound', hsources, hregistry, horigin⟩
  | _ => cases hasks

/-- The check of the sources passes a card that is marked, and no other with an unlicensed source. -/
theorem licensed_of_origin {registry : List Source} {card : Card}
    (h : validateOrigin card.row (componentSourceRows registry card.sources) = .ok ())
    (hmanual : card.row.manualOriginal = false) : card.licensed registry := by
  intro row hrow
  have hchecked : ¬ card.row.manualOriginal = true ∧
      componentSourceRows registry card.sources ≠ [] :=
    ⟨by rw [hmanual]; exact Bool.false_ne_true, List.ne_nil_of_mem hrow⟩
  exact each_eq_ok.mp (ite_check_eq_ok.mp h hchecked) row hrow

/-- The licence gate holds of a transaction that does not publish an unlicensed original. -/
theorem step_licensed_iff {env : Env} (hi : Catalogued db) (h : step env db event = some db') :
    (∀ card ∈ db'.cards, event.asks card.id .publish → card.licensed db'.sources) ↔
      ¬ publishesUnlicensed db event := by
  have hi' : Catalogued db' := step_catalogued hi h
  constructor
  · rintro hlicensed ⟨card, hcard, hasks, -, hno⟩
    obtain ⟨card₁, card', hfound, hfound', hsources, hregistry, -⟩ := step_published hasks h
    obtain rfl := hi.unique.eq_of_id hcard (Db.mem_of_card hfound) (Db.id_of_card hfound).symm
    have hasks' : event.asks card'.id .publish := by
      rw [Db.id_of_card hfound']
      exact hasks
    have := hlicensed card' (Db.mem_of_card hfound') hasks'
    unfold Card.licensed at this
    rw [hsources, hregistry] at this
    exact hno this
  · intro hno card' hcard' hasks
    obtain ⟨card, card₁, hfound, hfound', hsources, hregistry, horigin⟩ := step_published hasks h
    obtain rfl := hi'.unique.eq_of_id hcard' (Db.mem_of_card hfound') (Db.id_of_card hfound').symm
    unfold Card.licensed
    rw [hsources, hregistry]
    by_cases hmanual : card.row.manualOriginal = true
    · by_contra hunlicensed
      refine hno ⟨card, Db.mem_of_card hfound, ?_, hmanual, hunlicensed⟩
      rw [Db.id_of_card hfound]
      exact hasks
    · exact licensed_of_origin horigin (by simpa using hmanual)

/-- What a licensed card shows of its sources was licensed. -/
theorem sourceSnapshots_licensed {registry : List Source} {card : Card}
    (h : card.licensed registry) :
    ∀ snapshot ∈ sourceSnapshots registry card.sources,
      ∃ row ∈ componentSourceRows registry card.sources,
        sourceSnapshot row.1 row.2 = some snapshot ∧ validatePublishSource row = .ok () := by
  intro snapshot hsnapshot
  obtain ⟨row, hrow, hsome⟩ := List.mem_filterMap.mp hsnapshot
  exact ⟨row, hrow, hsome, h row hrow⟩

end Publications

/-! ## Legacy items -/

/-- The legacy items a card is linked to. -/
def Card.items (card : Card) : List String := card.legacy.map LegacySourceLink.identity

theorem items_of_legacy {card card' : Card} (h : card'.legacy = card.legacy) :
    card'.items = card.items := congrArg (List.map LegacySourceLink.identity) h

/-- A legacy item is linked to one card. -/
def OneOwner (db : Db) : Prop :=
  ∀ a ∈ db.cards, ∀ b ∈ db.cards, ∀ item ∈ a.items, item ∈ b.items → a.id = b.id

section OneOwner

variable {u : Unicode} {db db' : Db} {event : Event}

/-- Cards with the ids and the items of cards that were there. -/
theorem OneOwner.of_items (h : OneOwner db)
    (hcards : ∀ card' ∈ db'.cards, card'.items = [] ∨
      ∃ card ∈ db.cards, card.id = card'.id ∧ card'.items = card.items) : OneOwner db' := by
  intro a ha b hb item hitem hitem'
  rcases hcards a ha with hnone | ⟨a₀, ha₀, haid, haitems⟩
  · rw [hnone] at hitem
    cases hitem
  · rcases hcards b hb with hnone | ⟨b₀, hb₀, hbid, hbitems⟩
    · rw [hnone] at hitem'
      cases hitem'
    · rw [haitems] at hitem
      rw [hbitems] at hitem'
      rw [← haid, ← hbid]
      exact h a₀ ha₀ b₀ hb₀ item hitem hitem'

theorem OneOwner.of_same (h : OneOwner db) (hcards : db'.cards = db.cards) : OneOwner db' :=
  h.of_items fun card hcard => Or.inr ⟨card, hcards ▸ hcard, rfl, rfl⟩

theorem OneOwner.put {new old : Card} (h : OneOwner db) (hfound : db.card new.id = some old)
    (hitems : new.items = old.items) : OneOwner (db.put new) := by
  refine h.of_items fun card hcard => Or.inr ?_
  rcases Db.mem_put hcard with rfl | hcard
  · exact ⟨old, Db.mem_of_card hfound, Db.id_of_card hfound, hitems⟩
  · exact ⟨card, hcard, rfl, rfl⟩

theorem OneOwner.edited {card card' : Card} (h : OneOwner db) (hedit : EditsTo db db' card card') :
    OneOwner db' := by
  obtain ⟨db₁, hsame, rfl⟩ := hedit.put
  refine (h.of_same hsame.cards).put ?_ (items_of_legacy hedit.edited.legacy)
  rw [hsame.card, hedit.edited.id]
  exact hedit.found

/-- A card is linked to an item that no card is linked to. -/
theorem OneOwner.link {new old : Card} {item : String} (h : OneOwner db)
    (hfound : db.card new.id = some old) (hitems : new.items = old.items ++ [item])
    (hfresh : ∀ card ∈ db.cards, item ∉ card.items) : OneOwner (db.put new) := by
  have hold := Db.mem_of_card hfound
  have hid := Db.id_of_card hfound
  have hother : ∀ card ∈ db.cards, ∀ i ∈ new.items, i ∈ card.items → new.id = card.id := by
    intro card hcard i hi hi'
    rw [hitems] at hi
    rcases List.mem_append.mp hi with hi | hi
    · rw [← hid]
      exact h old hold card hcard i hi hi'
    · rw [List.mem_singleton.mp hi] at hi'
      exact absurd hi' (hfresh card hcard)
  intro a ha b hb i hi hi'
  rcases Db.mem_put ha with rfl | holda
  · rcases Db.mem_put hb with rfl | holdb
    · rfl
    · exact hother b holdb i hi hi'
  · rcases Db.mem_put hb with rfl | holdb
    · exact (hother a holda i hi' hi).symm
    · exact h a holda b holdb i hi hi'

/-- **Every effect keeps the owners of legacy items apart.** -/
theorem Effect.oneOwner (h : Effect u event db db') (ho : OneOwner db) : OneOwner db' := by
  cases h with
  | tables hsame => exact ho.of_same hsame.cards
  | created _ _ _ hcards _ _ =>
    refine ho.of_items fun card hcard => ?_
    rw [hcards, List.mem_append, List.mem_singleton] at hcard
    rcases hcard with hcard | rfl
    · exact Or.inr ⟨card, hcard, rfl, rfl⟩
    · exact Or.inl rfl
  | edited hedit _ => exact ho.edited hedit
  | moved _ _ hfound _ _ _ => exact ho.put hfound rfl
  | shown _ hfound _ _ => exact ho.put hfound rfl
  | restored _ hfound _ _ _ => exact ho.put hfound rfl
  | sourced hfound => exact ho.put hfound rfl
  | linked hfound hdraft hfresh hedit hrevision =>
    rename_i card card' assets link
    have hnext : OneOwner (db.put { card with assets := assets, legacy := card.legacy ++ [link] }) := by
      refine ho.link hfound List.map_append fun other hother hmem => ?_
      obtain ⟨known, hknown, hsame⟩ := List.mem_map.mp hmem
      exact hfresh other hother known hknown hsame
    exact hnext.edited hedit
  | reviewed hfound =>
    refine ho.put hfound ?_
    simp [Card.items, Function.comp_def]
  | processed =>
    refine ho.of_items fun card' hcard' => Or.inr ?_
    obtain ⟨card, hcard, rfl⟩ := List.mem_map.mp hcard'
    exact ⟨card, hcard, rfl, rfl⟩
  | categorized _ hdb =>
    subst hdb
    exact ho.of_same rfl
  | deactivated _ => exact ho.of_same rfl
  | administered _ => exact ho.of_same rfl

variable {survivor next loser merged gone : Card}

/-- What a merge makes of the provenance of the two cards. -/
theorem Merge.provenance (h : Merge u event db db' survivor next loser merged gone) :
    merged.sources = survivor.sources ++ loser.sources ∧ merged.legacy = survivor.legacy ∧
      gone.legacy = loser.legacy := by
  obtain ⟨data, hmerging, db₁, actor, now, -, rfl, rfl⟩ := h.merging
  obtain ⟨row, details, hnext⟩ := hmerging.details
  rw [hnext]
  exact ⟨rfl, rfl, rfl⟩

theorem Merge.oneOwner (h : Merge u event db db' survivor next loser merged gone)
    (ho : OneOwner db) : OneOwner db' := by
  obtain ⟨-, hmerged, hgone⟩ := h.provenance
  refine ho.of_items fun card hcard => Or.inr ?_
  rcases h.mem hcard with rfl | rfl | hcard
  · exact ⟨survivor, Db.mem_of_card h.found, h.merged_id.symm, items_of_legacy hmerged⟩
  · exact ⟨loser, Db.mem_of_card h.foundLoser, h.gone_id.symm, items_of_legacy hgone⟩
  · exact ⟨card, hcard, rfl, rfl⟩

theorem step_oneOwner {env : Env} (ho : OneOwner db) (h : step env db event = some db') :
    OneOwner db' := by
  rcases step_effects h with heffects | ⟨survivor, next, loser, merged, gone, hmerge⟩
  · clear h
    induction heffects with
    | refl => exact ho
    | single heffect => exact heffect.oneOwner ho
    | cons hfirst _ _ ih => exact ih (hfirst.oneOwner ho)
  · exact hmerge.oneOwner ho

/-- The survivor has the provenance of both cards exactly when the loser has no legacy link. -/
theorem Merge.union_iff (h : Merge u event db db' survivor next loser merged gone)
    (ho : OneOwner db) : Union survivor loser merged ↔ loser.legacy = [] := by
  obtain ⟨hsources, hlegacy, -⟩ := h.provenance
  constructor
  · rintro ⟨-, hlinks⟩
    by_contra hsome
    obtain ⟨link, hlink⟩ := List.exists_mem_of_ne_nil _ hsome
    have hshared := (hlinks link).mpr (Or.inr hlink)
    rw [hlegacy] at hshared
    refine h.ne (ho survivor (Db.mem_of_card h.found) loser (Db.mem_of_card h.foundLoser)
      link.identity ?_ ?_)
    · exact List.mem_map_of_mem hshared
    · exact List.mem_map_of_mem hlink
  · intro hnone
    refine ⟨fun relation => ?_, fun link => ?_⟩
    · rw [hsources, List.mem_append]
    · rw [hlegacy, hnone]
      simp

theorem step_union_iff {env : Env} (ho : OneOwner db) (h : step env db event = some db') :
    (∀ ids ∈ event.merge db, ∀ survivor ∈ db.card ids.1, ∀ loser ∈ db.card ids.2,
      ∀ merged ∈ db'.card ids.1, Union survivor loser merged) ↔ ¬ losesLinks db event := by
  cases hmerge : event.merge db with
  | none =>
    refine iff_of_true (fun ids hids => ?_) ?_
    · cases hids
    · rintro ⟨ids, hids, -⟩
      rw [hmerge] at hids
      cases hids
  | some ids =>
    obtain ⟨survivor, next, loser, merged, gone, hm⟩ := step_merges h hmerge
    obtain rfl : ids = (survivor.id, loser.id) := Option.some.inj (hmerge.symm.trans hm.event)
    have hunion := hm.union_iff ho
    have hloses : losesLinks db event ↔ loser.legacy ≠ [] := by
      unfold losesLinks
      rw [hm.event]
      simp [hm.foundLoser]
    rw [hloses, not_not, ← hunion]
    simp [hm.found, hm.foundLoser, hm.card.1]

end OneOwner

/-! ## Runs -/

/-- The invariant of runs. -/
structure Sourced (db : Db) : Prop extends Catalogued db where
  owner : OneOwner db

theorem Sourced.of_no_cards {db : Db} (h : db.cards = []) : Sourced db where
  toCatalogued := (Shelved.of_no_cards h).toCatalogued
  owner := by unfold OneOwner; rw [h]; intro a ha; cases ha

/-- **The licence gate holds exactly as long as it is not bypassed.** From a catalog without cards
on, every card that a run publishes has licensed sources only and every merged card has the
provenance of both cards, if and only if the run publishes no card that is marked as an original
and has an unlicensed source, and merges away no card that has a legacy link. -/
theorem gated_iff (env : Env) {db : Db} (hempty : db.cards = []) (events : List Event) :
    Along (step env) Gated db events ↔
      Along (step env) (fun db event _ => ¬ publishesUnlicensed db event ∧ ¬ losesLinks db event)
        db events := by
  have hi : Sourced db := .of_no_cards hempty
  refine along_congr_of_inv (fun db event db' hi h => ?_) (fun db event db' hi h => ?_) hi
  · exact ⟨step_catalogued hi.toCatalogued h, step_oneOwner hi.owner h⟩
  · rw [← step_licensed_iff hi.toCatalogued h, ← step_union_iff hi.owner h]
    exact ⟨fun hgated => ⟨hgated.published, hgated.merged⟩, fun ⟨hpublished, hmerged⟩ =>
      ⟨hpublished, hmerged⟩⟩

/-- A source of which no licence is known. -/
def plainSource : Source :=
  { id := 50
    key := "shop"
    displayName := "Shop"
    repositoryUrl := none
    licenseSpdx := none
    licenseUrl := none
    permissionStatus := .unknown
    status := .active
    isEnabled := true }

/-- A page is imported as card 10, and the editor marks the card as an original. -/
def importing : List Event :=
  [.administer plainSource,
   .persistDraft 50 ⟨"https://shop/sensor", "sensor", none, none⟩ (sensorDraft "sensor" false) 10 60 7 1,
   .synchronize 10 1 (sensorDraft "sensor" true) [⟨20, "photo", "Sensor", none⟩] none 7 2 3]

theorem gated_import_merge :
    Along (step plainEnv) Gated plainDb
      (importing ++ [.createComponent 11 (sensorDraft "sensor-copy" true) [] none 7 4,
        .decide 30 .attach 1 1 (some 11) [] 7 5]) :=
  (gated_iff plainEnv rfl _).mpr (by decide +kernel)

/-- **The gate can be bypassed.** The imported card, marked as an original, is published with its
unlicensed source; a card made of a legacy item leaves its link behind when it is merged away. -/
theorem gate_bypassed :
    ¬ Along (step plainEnv) Gated plainDb
        (importing ++ [.command 10 3 .submit 7 4, .approveAndPublish 10 4 7 5 6]) ∧
      ¬ Along (step plainEnv) Gated plainDb
        [.createComponent 10 (sensorDraft "sensor" true) [] none 7 1,
         .applyItem "item-1" .create (sensorDraft "sensor-copy" false) [] 11 7 7 2 3,
         .decide 30 .attach 1 2 (some 10) [] 7 4] := by
  decide +kernel

end ComponentKb.Catalog
