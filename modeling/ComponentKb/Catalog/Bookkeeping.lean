import ComponentKb.Catalog.Effects

/-!
# The bookkeeping of the lifecycle

Eight operations write the status of a card, the columns that go with it and its history, each on
its own.

* `Component.Checked`: the constraints that the database has on these columns.
* `Card.Bookkept`: they hold, a card that was ever withdrawn from the catalog keeps the time of its
  publication, and its history has one revision for each number up to its own.
* `Event.audit`: what the requests check of the history before they commit.
* **`lifecycle_bookkept`**: along a run every card is bookkept, and no request fails its check.
-/

namespace ComponentKb.Catalog

open ComponentKb.Lib

/-! ## Columns and history -/

/-- The constraints on the lifecycle columns of `components`: `ck_components_revision`,
`ck_components_published_at`, `ck_components_archive_origin` and
`ck_components_archive_origin_status`. -/
structure Component.Checked (row : Component) : Prop where
  revision : 0 < row.revision
  publishedAt : row.status = .published ∨ row.status = .hidden → row.publishedAt.isSome
  archiveOrigin : row.status = .archived ↔ row.archivedFromStatus.isSome
  archiveOriginStatus : row.archivedFromStatus ≠ some .archived

/-- The columns and the history of a card agree. -/
structure Card.Bookkept (card : Card) : Prop where
  checked : card.row.Checked
  withdrawn : card.row.archivedFromStatus = some .published ∨
    card.row.archivedFromStatus = some .hidden → card.row.publishedAt.isSome
  numbered : card.revisions.map (·.revision) = List.range' 1 card.row.revision

section Cards

variable {u : Unicode} {db : Db} {card card' : Card} {actor : UUID} {now : Time}

/-- A row that is not archived. -/
theorem Component.Checked.of_open {row : Component} (hrevision : 0 < row.revision)
    (hpublished : row.status = .published ∨ row.status = .hidden → row.publishedAt.isSome)
    (hopen : row.status ≠ .archived) (hfrom : row.archivedFromStatus = none) : row.Checked where
  revision := hrevision
  publishedAt := hpublished
  archiveOrigin := by simp [hopen, hfrom]
  archiveOriginStatus := by simp [hfrom]

/-- A row that is archived. -/
theorem Component.Checked.of_archived {row : Component} {status : ComponentStatus}
    (hrevision : 0 < row.revision) (harchived : row.status = .archived)
    (hfrom : row.archivedFromStatus = some status) (hne : status ≠ .archived) : row.Checked where
  revision := hrevision
  publishedAt := by simp [harchived]
  archiveOrigin := by simp [harchived, hfrom]
  archiveOriginStatus := by simp [hfrom, hne]

/-- One more revision, with the next number. -/
theorem numbered_append {r : ComponentRevision}
    (h : card.revisions.map (·.revision) = List.range' 1 card.row.revision)
    (hrevisions : card'.revisions = card.revisions ++ [r])
    (hrevision : card'.row.revision = card.row.revision + 1)
    (hr : r.revision = card'.row.revision) :
    card'.revisions.map (·.revision) = List.range' 1 card'.row.revision := by
  rw [hrevisions, List.map_append, h, hrevision, List.range'_concat, List.map_singleton, hr,
    hrevision, Nat.one_mul, Nat.add_comm]

/-- The time of publication of a card that is, or was before it was archived, in the catalog. -/
theorem Card.Bookkept.published (h : card.Bookkept)
    (hstatus : card.row.status = .published ∨ card.row.status = .hidden) :
    card.row.publishedAt.isSome :=
  h.checked.publishedAt hstatus

theorem Card.Bookkept.notArchived (h : card.Bookkept) (hopen : card.row.status ≠ .archived) :
    card.row.archivedFromStatus = none := by
  cases hfrom : card.row.archivedFromStatus with
  | none => rfl
  | some status => exact absurd (h.checked.archiveOrigin.mpr (by rw [hfrom]; rfl)) hopen

theorem Card.Bookkept.of_same (h : card.Bookkept) (hrow : card'.row = card.row)
    (hrevisions : card'.revisions = card.revisions) : card'.Bookkept where
  checked := hrow ▸ h.checked
  withdrawn := hrow ▸ h.withdrawn
  numbered := by
    rw [hrevisions, hrow]
    exact h.numbered

theorem newCard_bookkept {id : UUID} {data : DraftData} {details : Details}
    {assets : List MediaAsset} : (newCard u db id data details assets actor now).Bookkept where
  checked := .of_open Nat.one_pos (by rintro (h | h) <;> cases h) (by rintro ⟨⟩) rfl
  withdrawn := by rintro (h | h) <;> cases h
  numbered := rfl

theorem Edited.bookkept (h : Edited db card card') (hi : card.Bookkept) : card'.Bookkept where
  checked := by
    refine .of_open ?_ ?_ (by rw [h.status]; decide) h.archivedFrom
    · rcases h.revisions with ⟨-, hrevision⟩ | ⟨r, -, hrevision, -⟩
      · rw [hrevision]
        exact hi.checked.revision
      · omega
    · rw [h.status]
      rintro (hno | hno) <;> cases hno
  withdrawn := by
    rw [h.archivedFrom]
    rintro (hno | hno) <;> cases hno
  numbered := by
    rcases h.revisions with ⟨hsame, hrevision⟩ | ⟨r, hrevisions, hrevision, hnumber, -⟩
    · rw [hsame, hrevision]
      exact hi.numbered
    · exact numbered_append hi.numbered hrevisions hrevision hnumber

theorem moved_bookkept {target : ComponentStatus} {action : ComponentChangeAction}
    (hi : card.Bookkept) (hsource : card.row.status ∈ lifecycleTransitionSources target) :
    (card.moved u db target action actor now).Bookkept := by
  have hnumbered : (card.moved u db target action actor now).revisions.map (·.revision) =
      List.range' 1 (card.moved u db target action actor now).row.revision :=
    numbered_append hi.numbered rfl rfl rfl
  by_cases harchived : target = .archived
  · subst harchived
    have hne := (lifecycleTransitionSources_archived _).mp hsource
    refine ⟨.of_archived (Nat.succ_pos _) rfl rfl hne, ?_, hnumbered⟩
    rintro (hfrom | hfrom)
    · exact hi.published (Or.inl (Option.some.inj hfrom))
    · exact hi.published (Or.inr (Option.some.inj hfrom))
  · have hfrom : (card.row.moved target actor now).archivedFromStatus = none := if_neg harchived
    refine ⟨.of_open (Nat.succ_pos _) ?_ harchived hfrom, ?_, hnumbered⟩
    · rintro (htarget | htarget)
      · have hset : (card.row.moved target actor now).publishedAt = some now := if_pos htarget
        exact Option.isSome_of_eq_some hset
      · -- only a published card is hidden
        cases htarget
        exact hi.published (Or.inl (List.mem_singleton.mp hsource))
    · rintro (hno | hno)
      · exact absurd (hfrom.symm.trans hno) (by rintro ⟨⟩)
      · exact absurd (hfrom.symm.trans hno) (by rintro ⟨⟩)

theorem shown_bookkept {publishedAt : Time} (hi : card.Bookkept)
    (hpublished : card.row.publishedAt = some publishedAt) :
    (card.shown u db publishedAt actor now).Bookkept where
  checked := by
    refine .of_open (Nat.succ_pos _) ?_ (by rintro ⟨⟩) rfl
    intro _
    exact Option.isSome_of_eq_some hpublished
  withdrawn := by rintro (hno | hno) <;> cases hno
  numbered := numbered_append hi.numbered rfl rfl rfl

theorem restored_bookkept {target : ComponentStatus} (hi : card.Bookkept)
    (hfrom : card.row.archivedFromStatus = some target) (hne : target ≠ .archived) :
    (card.restored u db target actor now).Bookkept where
  checked := by
    refine .of_open (Nat.succ_pos _) ?_ hne rfl
    rintro (htarget | htarget)
    · cases htarget
      exact hi.withdrawn (Or.inl hfrom)
    · cases htarget
      exact hi.withdrawn (Or.inr hfrom)
  withdrawn := by rintro (hno | hno) <;> cases hno
  numbered := numbered_append hi.numbered rfl rfl rfl

theorem merged_bookkept {survivorId loserId : UUID} {survivor next loser : Card} {data : DraftData}
    {db₁ : Db} (h : Merging u db survivorId loserId survivor next loser data)
    (hi : survivor.Bookkept) :
    (next.merged u db₁ loser survivor.row.status data actor now).Bookkept := by
  have hrevisions : next.revisions = survivor.revisions := by
    obtain ⟨row, details, hnext⟩ := h.details
    rw [hnext]
  have hrevision : next.row.revision = survivor.row.revision := by
    obtain ⟨cols, hrow | hrow⟩ := h.row
    · rw [hrow]
    · rw [hrow]
      rfl
  refine ⟨.of_open (Nat.succ_pos _) ?_ (by rintro ⟨⟩) rfl, ?_, ?_⟩
  · rintro (hno | hno) <;> cases hno
  · rintro (hno | hno) <;> cases hno
  · have hnext : next.revisions.map (·.revision) = List.range' 1 next.row.revision := by
      rw [hrevisions, hrevision]
      exact hi.numbered
    exact numbered_append hnext rfl rfl rfl

theorem mergedAway_bookkept {assets : List MediaAsset} (hi : card.Bookkept) :
    (card.mergedAway u db assets actor now).Bookkept := by
  have hnumbered : (card.mergedAway u db assets actor now).revisions.map (·.revision) =
      List.range' 1 (card.mergedAway u db assets actor now).row.revision :=
    numbered_append hi.numbered rfl rfl rfl
  by_cases harchived : card.row.status = .archived
  · -- the loser stays as it was archived
    obtain ⟨status, hfrom⟩ := Option.isSome_iff_exists.mp (hi.checked.archiveOrigin.mp harchived)
    have hkept : (card.row.mergedAway actor now).archivedFromStatus = some status :=
      (if_pos harchived).trans hfrom
    have hne : status ≠ .archived := by
      rintro rfl
      exact hi.checked.archiveOriginStatus hfrom
    refine ⟨.of_archived (Nat.succ_pos _) rfl hkept hne, ?_, hnumbered⟩
    intro hwithdrawn
    refine hi.withdrawn ?_
    rw [hfrom, ← hkept]
    exact hwithdrawn
  · have hset : (card.row.mergedAway actor now).archivedFromStatus = some card.row.status :=
      if_neg harchived
    refine ⟨.of_archived (Nat.succ_pos _) rfl hset harchived, ?_, hnumbered⟩
    intro hwithdrawn
    refine hi.published ?_
    rw [← Option.some_inj, ← @Option.some_inj _ card.row.status, ← hset]
    exact hwithdrawn

end Cards

/-! ## Transactions -/

/-- Every card is bookkept. -/
def AllBookkept (db : Db) : Prop := ∀ card ∈ db.cards, card.Bookkept

section Transactions

variable {u : Unicode} {event : Event} {db db' : Db} {card card' : Card}

theorem AllBookkept.put (hi : AllBookkept db) (h : card.Bookkept) : AllBookkept (db.put card) := by
  intro other hother
  rcases Db.mem_put hother with rfl | hother
  · exact h
  · exact hi other hother

theorem AllBookkept.of_same (hi : AllBookkept db) (h : SameTables db db') : AllBookkept db' := by
  unfold AllBookkept
  rw [h.cards]
  exact hi

theorem AllBookkept.edited (hi : AllBookkept db) (h : EditsTo db db' card card') :
    AllBookkept db' := by
  obtain ⟨db₁, hsame, rfl⟩ := h.put
  exact (hi.of_same hsame).put (h.edited.bookkept (hi card (Db.mem_of_card h.found)))

theorem Effect.bookkept (h : Effect u event db db') (hi : AllBookkept db) : AllBookkept db' := by
  cases h with
  | tables hsame => exact hi.of_same hsame
  | created hfresh hvalid hfree hcards hcategories hsources =>
    intro card hcard
    rw [hcards, List.mem_append, List.mem_singleton] at hcard
    rcases hcard with hcard | rfl
    · exact hi card hcard
    · exact newCard_bookkept
  | edited hedit _ => exact hi.edited hedit
  | moved hasks htarget hfound hsource haction hvalid =>
    exact hi.put (moved_bookkept (hi _ (Db.mem_of_card hfound)) hsource)
  | shown hasks hfound hhidden hpublished =>
    exact hi.put (shown_bookkept (hi _ (Db.mem_of_card hfound)) hpublished)
  | restored hasks hfound harchived hfrom hne =>
    exact hi.put (restored_bookkept (hi _ (Db.mem_of_card hfound)) hfrom hne)
  | sourced hfound => exact hi.put ((hi _ (Db.mem_of_card hfound)).of_same rfl rfl)
  | linked hfound hdraft hfresh hedit hrevision =>
    rename_i card card' assets link
    have hlinked : Card.Bookkept
        { card with assets := assets, legacy := card.legacy ++ [link] } :=
      (hi _ (Db.mem_of_card hfound)).of_same rfl rfl
    exact (hi.put hlinked).edited hedit
  | reviewed hfound => exact hi.put ((hi _ (Db.mem_of_card hfound)).of_same rfl rfl)
  | processed =>
    intro card hcard
    obtain ⟨old, hold, rfl⟩ := List.mem_map.mp hcard
    exact (hi old hold).of_same rfl rfl
  | categorized hnew hdb =>
    subst hdb
    exact hi
  | deactivated hfound => exact hi
  | administered hevent => exact hi

theorem Merge.bookkept {survivor next loser merged gone : Card}
    (h : Merge u event db db' survivor next loser merged gone) (hi : AllBookkept db) :
    AllBookkept db' := by
  have hsurvivor := hi survivor (Db.mem_of_card h.found)
  have hloser := hi loser (Db.mem_of_card h.foundLoser)
  obtain ⟨data, hmerging, db₁, actor, now, -, hmerged, hgone⟩ := h.merging
  intro card hcard
  rcases h.mem hcard with rfl | rfl | hcard
  · rw [hmerged]
    exact merged_bookkept hmerging hsurvivor
  · rw [hgone]
    exact mergedAway_bookkept hloser
  · exact hi card hcard

/-- **Every transaction keeps the books.** -/
theorem step_bookkept {env : Env} (hi : AllBookkept db) (h : step env db event = some db') :
    AllBookkept db' := by
  rcases step_effects h with heffects | ⟨survivor, next, loser, merged, gone, hmerge⟩
  · clear h
    induction heffects with
    | refl => exact hi
    | single heffect => exact heffect.bookkept hi
    | cons hfirst _ _ ih => exact ih (hfirst.bookkept hi)
  · exact hmerge.bookkept hi

end Transactions

/-! ## Audits -/

/-- `_commit` and `_audit_and_commit`: the card that a request answers with must have a revision of
its number, which records what the request did. -/
def requireAudited (db : Db) (componentId : UUID) (action : ComponentChangeAction) :
    Except String Unit :=
  let revision := (db.card componentId).bind fun card =>
    card.revisions.find? (·.revision = card.row.revision)
  require (revision.map (·.action) = some action)
    "component revision history is inconsistent with audit action"

/-- What the history must say of a lifecycle request: `LIFECYCLE_TRANSITION_ACTIONS`, and the
actions that `show_hidden` and `restore_archived` name. -/
def LifecycleAction.audited : LifecycleAction → Option ComponentChangeAction
  | .show => some .shown
  | .restore => some .restored
  | action => action.target.bind lifecycleTransitionAction

/-- What `_execute` checks of a lifecycle request that was carried out. -/
def auditLifecycle (db : Db) (componentId : UUID) (action : LifecycleAction) :
    Except String Unit := do
  let audited ← fromSome action.audited "catalog lifecycle action is not configured"
  requireAudited db componentId audited

/-- What a request checks of the database before it commits it. -/
def Event.audit (event : Event) (db : Db) : Except String Unit :=
  match event with
  | .createComponent id .. => requireAudited db id .created
  | .updateComponent id .. => requireAudited db id .updated
  | .updateComponentImages id .. => requireAudited db id .imagesUpdated
  | .lifecycle id _ _ action .. => auditLifecycle db id action
  | .command id _ action .. => auditLifecycle db id action
  | _ => .ok ()

/-- The last revision of a card records an action. -/
def Recorded (db : Db) (id : UUID) (action : ComponentChangeAction) : Prop :=
  ∃ card past r, db.card id = some card ∧ card.revisions = past ++ [r] ∧ r.action = action

section Audits

variable {u : Unicode} {db db' : Db} {id actor : UUID} {revision : Nat} {now : Time}

/-- The number of a card is that of its last revision and of no other. -/
theorem Recorded.audited {action : ComponentChangeAction} (h : Recorded db id action)
    (hi : AllBookkept db) : requireAudited db id action = .ok () := by
  obtain ⟨card, past, r, hcard, hrevisions, haction⟩ := h
  have hok := hi card (Db.mem_of_card hcard)
  obtain ⟨n, hn⟩ := Nat.exists_eq_succ_of_ne_zero hok.checked.revision.ne'
  have hnumbered : past.map (·.revision) ++ [r.revision] = List.range' 1 n ++ [1 + n] := by
    have hall := hok.numbered
    rw [hrevisions, hn, Nat.succ_eq_add_one, List.range'_concat, List.map_append, Nat.one_mul]
      at hall
    exact hall
  obtain ⟨hpast, hlast⟩ := List.append_inj' hnumbered rfl
  have hr : r.revision = 1 + n := List.singleton_inj.mp hlast
  have hnone : past.find? (·.revision = card.row.revision) = none := by
    refine List.find?_eq_none.mpr fun s hs hsame => ?_
    have hmem : s.revision ∈ List.range' 1 n := hpast ▸ List.mem_map_of_mem hs
    rw [of_decide_eq_true hsame, List.mem_range'_1] at hmem
    omega
  have hfound : card.revisions.find? (·.revision = card.row.revision) = some r := by
    have hnow : r.revision = card.row.revision := by omega
    rw [hrevisions, List.find?_append, hnone, Option.none_or, List.find?_singleton]
    exact if_pos (decide_eq_true hnow)
  refine require_eq_ok.mpr ?_
  rw [hcard, Option.bind_some, hfound, Option.map_some, haction]

/-- A card that is written with one more revision. -/
theorem Recorded.put {card card' : Card} {action : ComponentChangeAction}
    (hcard : db.card id = some card) (hid : card'.id = card.id)
    (h : ∃ r, card'.revisions = card.revisions ++ [r] ∧ r.action = action) :
    Recorded (db.put card') id action := by
  obtain ⟨r, hrevisions, haction⟩ := h
  obtain rfl : card'.id = id := hid.trans (Db.id_of_card hcard)
  exact ⟨card', card.revisions, r, Db.put_card_self card' hcard, hrevisions, haction⟩

theorem create_recorded {data : DraftData} {images : List ImageMutation} {primary : Option UUID}
    (h : create u db id data images primary actor now = .ok db') (hfresh : db.card id = none) :
    Recorded db' id .created := by
  obtain ⟨tags, definitions, details, assets, -, -, -, rfl⟩ := create_spec h
  refine ⟨newCard u db id (newData id data) details assets actor now, [], _, ?_, rfl, rfl⟩
  have hid : (newCard u db id (newData id data) details assets actor now).id = id := rfl
  rw [Db.card] at hfresh ⊢
  rw [lookup_append, hfresh, if_pos hid, Option.none_or]

theorem update_recorded {data : DraftData}
    (h : update u db id revision data actor now true = .ok db') : Recorded db' id .updated := by
  obtain ⟨card, tags, definitions, details, hcard, -, -, -, -, -, -, rfl⟩ := update_spec h
  exact Recorded.put hcard (Card.edited_id ..) ⟨_, Card.edited_revisions .., rfl⟩

theorem mutateImages_recorded {images : List ImageMutation} {primary : Option UUID}
    (h : mutateImages u db id revision images primary actor now true = .ok db') :
    Recorded db' id .imagesUpdated := by
  obtain ⟨card, uploads, next, hcard, -, -, rfl, rfl⟩ := mutateImages_spec h
  exact Recorded.put hcard (Card.edited_id ..) ⟨_, Card.edited_revisions .., rfl⟩

theorem transition_recorded {target : ComponentStatus}
    (h : transition u db id revision target actor now = .ok db') :
    ∃ action, lifecycleTransitionAction target = some action ∧ Recorded db' id action := by
  obtain ⟨card, action, hcard, -, -, haction, -, rfl⟩ := transition_spec h
  exact ⟨action, haction, Recorded.put hcard rfl ⟨_, rfl, rfl⟩⟩

/-- A lifecycle request that was carried out has an action, which the history records. -/
theorem lifecycle_recorded {action : LifecycleAction}
    (h : lifecycle u db id revision action actor now = .ok db') :
    ∃ audited, action.audited = some audited ∧ Recorded db' id audited := by
  cases action with
  | submit => exact transition_recorded h
  | requestChanges => exact transition_recorded h
  | approve => exact transition_recorded h
  | publish => exact transition_recorded h
  | hide => exact transition_recorded h
  | archive => exact transition_recorded h
  | «show» =>
    obtain ⟨card, publishedAt, hcard, -, -, -, rfl⟩ := showHidden_spec h
    exact ⟨.shown, rfl, Recorded.put hcard rfl ⟨_, rfl, rfl⟩⟩
  | restore =>
    obtain ⟨card, target, hcard, -, -, -, -, rfl⟩ := restoreArchived_spec h
    exact ⟨.restored, rfl, Recorded.put hcard rfl ⟨_, rfl, rfl⟩⟩

theorem lifecycle_audited {action : LifecycleAction} (hi : AllBookkept db')
    (h : lifecycle u db id revision action actor now = .ok db') :
    auditLifecycle db' id action = .ok () := by
  obtain ⟨audited, haction, hrecorded⟩ := lifecycle_recorded h
  exact bind_eq_ok.mpr ⟨audited, fromSome_eq_ok.mpr haction, hrecorded.audited hi⟩

/-- **No request fails its check of the history.** -/
theorem step_audited {env : Env} {event : Event} (hi : AllBookkept db')
    (h : step env db event = some db') : event.audit db' = .ok () := by
  obtain ⟨hfresh, hperform⟩ := step_eq_some h
  cases event with
  | createComponent id data images primary actor now =>
    have hnew : db.card id = none := by
      rw [← Option.not_isSome_iff_eq_none]
      exact fun hsome => hfresh (Or.inl hsome)
    exact (create_recorded (toOption_eq_some.mp hperform) hnew).audited hi
  | updateComponent id revision token data actor now =>
    obtain ⟨-, hupdate⟩ := seq_eq_ok.mp (toOption_eq_some.mp hperform)
    exact (update_recorded hupdate).audited hi
  | updateComponentImages id revision token images primary actor now =>
    obtain ⟨-, hmutate⟩ := seq_eq_ok.mp (toOption_eq_some.mp hperform)
    exact (mutateImages_recorded hmutate).audited hi
  | lifecycle id revision token action actor now =>
    obtain ⟨-, hlifecycle⟩ := seq_eq_ok.mp (toOption_eq_some.mp hperform)
    exact lifecycle_audited hi hlifecycle
  | command id token action actor now =>
    obtain ⟨-, hcommand⟩ := seq_eq_ok.mp (toOption_eq_some.mp hperform)
    obtain ⟨_, -, hlifecycle⟩ := bind_eq_ok.mp hcommand
    exact lifecycle_audited hi hlifecycle
  | _ => rfl

end Audits

/-! ## Runs -/

/-- **The books are kept.** Along a run from a catalog that began without cards, in every state
every card meets the constraints of the database on its lifecycle columns, has the time of its
publication if it was withdrawn from the catalog, and has one revision for each number up to its
own; and every request finds in the history what it did. -/
theorem lifecycle_bookkept (env : Env) {start : Db} (hempty : start.cards = [])
    (events : List Event) :
    Always (step env) AllBookkept start events ∧
      Along (step env) (fun _ event db' => event.audit db' = .ok ()) start events := by
  have hstart : AllBookkept start := by
    unfold AllBookkept
    rw [hempty]
    intro card hcard
    cases hcard
  have hstep : ∀ db event db', AllBookkept db → True → step env db event = some db' →
      AllBookkept db' := fun _ _ _ hi _ h => step_bookkept hi h
  refine ⟨always_of_inv hstep (fun _ hi => hi) hstart (along_true start events), ?_⟩
  exact along_of_inv hstep (fun _ _ _ hi _ h => step_audited (step_bookkept hi h) h) hstart
    (along_true start events)

/-- A run on which a card is created, reviewed and published. -/
theorem publishing_bookkept :
    Always (step plainEnv) AllBookkept plainDb (publishing true) ∧
      Along (step plainEnv) (fun _ event db' => event.audit db' = .ok ()) plainDb
        (publishing true) :=
  lifecycle_bookkept plainEnv rfl _

end ComponentKb.Catalog
