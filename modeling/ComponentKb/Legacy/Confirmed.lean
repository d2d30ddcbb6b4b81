import ComponentKb.Catalog.Keeping
import ComponentKb.Catalog.Provenance
import ComponentKb.Legacy.Bundles

/-!
# Legacy items are applied once, and as confirmed

Over every run of administrators, workers, dispatchers and the rest of the catalog.

* `applyItem_eq_ok`: an item is applied as its line of the plan says, by one transaction of the
  catalog; anything else leaves the catalog as it was.
* `step_change`: a step concerns one bundle, and a confirmed plan stays as it is (`Kept`).
* **`applied_once`**: no item is applied twice, its link stays with its card, and it is applied as
  every plan with the confirmed hash says.
* **`cancelled_rests`**: a bundle that is cancelled applies nothing more until it is retried.
-/

namespace ComponentKb.Legacy.Bundles

open Catalog Lib

/-! ## Links stay -/

section KeepsItems

variable {u : Unicode} {db db' : Db} {event : Catalog.Event}

theorem becomes_items {card card' : Card} (h : Becomes u card card') : card.items ⊆ card'.items := by
  cases h with
  | edited hedit =>
    rw [items_of_legacy hedit.legacy]
    exact List.Subset.refl _
  | linked => simp [Card.items]
  | reviewed => simp [Card.items, Function.comp_def]
  | same | moved | «shown» | restored | sourced | processed => exact List.Subset.refl _

/-- **Whatever the catalog does, a card keeps its links.** -/
theorem step_keepsItems {env : Catalog.Env} (h : Catalog.step env db event = some db') :
    Keeps (fun card card' => card.items ⊆ card'.items) db db' := by
  refine step_keeps (fun _ => List.Subset.refl _) (fun _ _ _ => List.Subset.trans)
    (fun _ _ => becomes_items) rfl (fun survivor next loser merged gone hmerge => ?_) h
  obtain ⟨-, hmerged, hgone⟩ := hmerge.provenance
  rw [items_of_legacy hmerged, items_of_legacy hgone]
  exact ⟨List.Subset.refl _, List.Subset.refl _⟩

end KeepsItems

/-! ## Items -/

/-- The card that a decision is about. -/
def componentOf (newId : UUID) : LegacyDecision → UUID
  | .create => newId
  | .merge componentId _ _ => componentId

/-- The transaction of an item links its card to it. -/
theorem applyItem_links {u : Unicode} {db db' : Db} {identity : String} {decision : LegacyDecision}
    {data : DraftData} {images : List LegacyImage} {newId owner actor : UUID} {now later : Time}
    (h : Catalog.applyItem u db identity decision data images newId owner actor now later =
      .ok db') :
    ∃ card, db'.card (componentOf newId decision) = some card ∧ identity ∈ card.items := by
  obtain ⟨-, h⟩ := seq_eq_ok.mp h
  obtain ⟨⟨db₁, componentId⟩, htarget, h⟩ := bind_eq_ok.mp h
  obtain ⟨db₂, hlink, h⟩ := bind_eq_ok.mp h
  obtain ⟨_, -, htouch⟩ := bind_eq_ok.mp h
  have hid : componentId = componentOf newId decision := by
    cases decision with
    | create =>
      obtain ⟨_, -, htarget⟩ := bind_eq_ok.mp htarget
      cases htarget
      rfl
    | merge id revision token =>
      obtain ⟨_, -, htarget⟩ := bind_eq_ok.mp htarget
      obtain ⟨-, htarget⟩ := seq_eq_ok.mp htarget
      obtain ⟨_, -, htarget⟩ := bind_eq_ok.mp htarget
      cases htarget
      rfl
  obtain ⟨card, hcard, hlink⟩ := bind_eq_ok.mp hlink
  obtain ⟨-, hlink⟩ := seq_eq_ok.mp hlink
  cases hlink
  have hcard := locked_eq_ok.mp hcard
  rw [← hid]
  obtain rfl := Db.id_of_card hcard
  obtain ⟨next, last, hnext, hedit, -⟩ := touchMediaAttachment_edits htouch
  obtain rfl := Option.some.inj
    (hnext.symm.trans (Db.put_card_self { card with assets := _, legacy := _ } hcard))
  refine ⟨last, hedit.card, ?_⟩
  rw [items_of_legacy hedit.edited.legacy]
  simp [Card.items]

section Items

variable {η : Type} {tools : Tools η}

theorem linkOf_eq_none {db : Db} {identity : String} :
    linkOf db identity = none ↔ ∀ card ∈ db.cards, identity ∉ card.items := by
  simp [linkOf, Card.items]

/-- What `apply_item` did when it applied an item. -/
structure AppliesTo (tools : Tools η) (db db' : Db) (bundle : Bundle η) (item : LegacyItem)
    (applied : Applied) : Prop where
  bundleId : applied.bundleId = bundle.id
  identity : applied.identity = item.identity
  chosen : item.line.chosen = some applied.decision
  actor : bundle.confirmedBy = some applied.actor
  fresh : linkOf db item.identity = none
  transaction : ∃ data images newId owner now later,
    applied.componentId = componentOf newId applied.decision ∧
      Catalog.step tools.catalog db (.applyItem item.identity applied.decision data images newId
        owner applied.actor now later) = some db'

theorem commitItem_eq_ok {db db' : Db} {bundle : Bundle η} {item item' : LegacyItem} {actor : UUID}
    {run : ItemRun} {decision : LegacyDecision} {data : DraftData} {componentId : UUID}
    {warnings : List String} {applied : Option Applied}
    (h : commitItem tools db bundle item actor run decision data componentId warnings =
      .ok (db', item', applied))
    (hid : componentId = componentOf run.newId decision)
    (hchosen : item.line.chosen = some decision) (hactor : bundle.confirmedBy = some actor)
    (hfresh : linkOf db item.identity = none) :
    item'.line = item.line ∧ item'.id = item.id ∧
      ∃ a, applied = some a ∧ AppliesTo tools db db' bundle item a := by
  obtain ⟨_, hstep, h⟩ := bind_eq_ok.mp h
  cases h
  exact ⟨rfl, rfl, _, rfl, rfl, rfl, hchosen, hactor, hfresh, data, run.images, run.newId,
    bundle.ownerId, run.now, run.later, hid, fromSome_eq_ok.mp hstep⟩

variable [DecidableEq η]

/-- **`apply_item`**: the plan of the item stays, and either the catalog stays too or the item is
applied as it was decided. -/
theorem applyItem_eq_ok {db db' : Db} {bundle : Bundle η} {item item' : LegacyItem} {run : ItemRun}
    {applied : Option Applied}
    (h : applyItem tools db bundle item run = .ok (db', item', applied)) :
    item'.line = item.line ∧ item'.id = item.id ∧
      ((applied = none ∧ db' = db) ∨
        ∃ a, applied = some a ∧ AppliesTo tools db db' bundle item a) := by
  obtain ⟨actor, hactor, h⟩ := bind_eq_ok.mp h
  have hactor := fromSome_eq_ok.mp hactor
  simp only at h
  split at h
  · cases h
    exact ⟨rfl, rfl, Or.inl ⟨rfl, rfl⟩⟩
  · rename_i hskip
    have hfresh : linkOf db item.identity = none := by
      simpa using fun hlink => hskip (Or.inl hlink)
    obtain ⟨current, -, h⟩ := bind_eq_ok.mp h
    split at h
    · cases h
      exact ⟨rfl, rfl, Or.inl ⟨rfl, rfl⟩⟩
    · obtain ⟨category, -, h⟩ := bind_eq_ok.mp h
      obtain ⟨incoming, -, h⟩ := bind_eq_ok.mp h
      split at h
      · rename_i componentId hdecision hmerge
        split at h
        · cases h
          exact ⟨rfl, rfl, Or.inl ⟨rfl, rfl⟩⟩
        · rename_i card hrow
          have hreviewed := of_decide_eq_true (Option.filter_eq_some_iff.mp hrow).2
          obtain ⟨-, -, hrevision, htoken⟩ := hreviewed
          have hchosen : item.line.chosen =
              some (.merge componentId card.row.revision card.row.editToken) := by
            simp [LegacyItem.line, ReviewLine.chosen, hdecision, hmerge, ← hrevision, ← htoken]
          obtain ⟨hline, hid, happlied⟩ := commitItem_eq_ok h rfl hchosen hactor hfresh
          exact ⟨hline, hid, Or.inr happlied⟩
      · rename_i hdecision
        have hchosen : item.line.chosen = some .create := by
          simp [LegacyItem.line, ReviewLine.chosen, hdecision]
        obtain ⟨hline, hid, happlied⟩ := commitItem_eq_ok h rfl hchosen hactor hfresh
        exact ⟨hline, hid, Or.inr happlied⟩
      · cases h

end Items

/-! ## Bundles -/

/-- The statuses of a bundle whose plan was confirmed. -/
def pastReview : Status → Bool
  | .applying | .completed | .failed | .cancelled => true
  | _ => false

section Jobs

variable {job job' : LegacyBundle} {event : Legacy.Event}

/-- Only a bundle whose plan was confirmed is applied, and it is never reviewed again. -/
structure Ordered (job : LegacyBundle) : Prop where
  applying : job.status = .applying → job.phase = .apply
  past : job.phase = .apply → pastReview job.status = true

theorem job_step (h : Legacy.step job event = some job') (hevent : ∀ now, event ≠ .apply now) :
    job'.phase = job.phase ∧ (Ordered job → Ordered job') := by
  cases event with
  | apply now => exact absurd rfl (hevent now)
  | retry failedItems now =>
    simp only [Legacy.step] at h
    split at h
    · cases h
      refine ⟨rfl, fun ho => ⟨?_, ?_⟩⟩
      · intro hstatus
        by_contra hphase
        exact absurd hstatus (by simp [if_neg hphase])
      · intro hphase
        change pastReview (if job.phase = .apply then _ else _) = true
        rw [if_pos hphase]
        rfl
    · cases h
  | saveAnalysis now =>
    simp only [Legacy.step] at h
    split at h
    · rename_i hstatus
      cases h
      refine ⟨rfl, fun ho => ⟨by simp, fun hphase => ?_⟩⟩
      have hpast := ho.past hphase
      rw [hstatus] at hpast
      cases hpast
    · cases h
  | item now | backpressure now =>
    simp only [Legacy.step] at h
    split at h
    · cases h
      exact ⟨rfl, fun ho => ⟨ho.applying, ho.past⟩⟩
    · cases h
  | cancel now =>
    simp only [Legacy.step] at h
    split at h
    · cases h
    · cases h
      exact ⟨rfl, fun _ => ⟨by simp, fun _ => rfl⟩⟩
  | complete now | fail code now =>
    simp only [Legacy.step] at h
    split at h
    · cases h
      exact ⟨rfl, fun _ => ⟨by simp, fun _ => rfl⟩⟩
    · cases h

/-- The bundle has no worker, and none comes until it is retried. -/
def rests : Status → Bool
  | .failed | .cancelled => true
  | _ => false

theorem job_rests (h : Legacy.step job event = some job')
    (hevent : ∀ failedItems now, event ≠ .retry failedItems now)
    (hrests : rests job.status = true) : rests job'.status = true := by
  cases event with
  | retry failedItems now => exact absurd rfl (hevent failedItems now)
  | cancel now =>
    simp only [Legacy.step] at h
    split at h
    · cases h
    · cases h
      rfl
  | fail code now =>
    simp only [Legacy.step] at h
    split at h
    · cases h
      rfl
    · cases h
  | apply now | saveAnalysis now | item now | backpressure now | complete now =>
    simp only [Legacy.step] at h
    split at h
    · rename_i hstatus
      rw [hstatus] at hrests
      cases hrests
    · cases h

end Jobs

section Plans

variable {η : Type} {tools : Tools η} {bundle bundle' : Bundle η}

theorem proceed_eq_ok {event : Legacy.Event} (h : bundle.proceed event = .ok bundle') :
    ∃ job, Legacy.step bundle.toLegacyBundle event = some job ∧
      bundle' = { bundle with toLegacyBundle := job } := by
  obtain ⟨job, hjob, rfl⟩ := map_eq_ok.mp h
  exact ⟨job, fromSome_eq_ok.mp hjob, rfl⟩

/-- What an item keeps, its bundle keeps. -/
theorem put_map {β : Type} (f : LegacyItem → β) {old new : LegacyItem}
    (hids : (bundle.items.map LegacyItem.id).Nodup) (hold : bundle.item new.id = some old)
    (hf : f new = f old) : (bundle.put new).items.map f = bundle.items.map f := by
  refine (map_replace (g := id) hids hold hf).trans (List.map_congr_left fun item _ => ?_)
  split <;> rfl

theorem put_ids (bundle : Bundle η) (new : LegacyItem) :
    bundle.items.map LegacyItem.id = (bundle.put new).items.map LegacyItem.id :=
  (map_key_replace new).symm

/-- What every bundle keeps to: its items are distinct, and a plan that was confirmed is the plan
that the confirmed hash is of. -/
structure Sound (tools : Tools η) (bundle : Bundle η) : Prop extends
    Ordered bundle.toLegacyBundle where
  ids : (bundle.items.map LegacyItem.id).Nodup
  identities : (bundle.items.map LegacyItem.identity).Nodup
  confirmed : bundle.phase = .apply →
    bundle.confirmedHash = some (reviewHash tools bundle) ∧ bundle.confirmedBy.isSome
  unconfirmed : bundle.phase ≠ .apply → bundle.confirmedHash = none

/-- What a confirmed bundle keeps. -/
structure Kept (bundle bundle' : Bundle η) : Prop where
  phase : bundle.phase = .apply → bundle'.phase = .apply
  plan : bundle.phase = .apply → bundle'.reviewPlan = bundle.reviewPlan
  confirmedBy : bundle.phase = .apply → bundle'.confirmedBy = bundle.confirmedBy

/-- The identities of the items are those of their lines. -/
theorem identities_of_lines {items items' : List LegacyItem}
    (h : items'.map LegacyItem.line = items.map LegacyItem.line) :
    items'.map LegacyItem.identity = items.map LegacyItem.identity := by
  have hmap := congrArg (List.map ReviewLine.identity) h
  simpa [Function.comp_def, LegacyItem.line] using hmap

/-- The next row of a bundle. -/
structure Follows (tools : Tools η) (bundle bundle' : Bundle η) : Prop where
  id : bundle'.id = bundle.id
  sound : Sound tools bundle → Sound tools bundle'
  kept : Sound tools bundle → Kept bundle bundle'

/-- The job moves on, and the items change outside the plan. -/
theorem Follows.of_job {job : LegacyBundle} {items : List LegacyItem}
    (hphase : job.phase = bundle.phase) (hordered : Ordered bundle.toLegacyBundle → Ordered job)
    (hids : items.map LegacyItem.id = bundle.items.map LegacyItem.id)
    (hlines : Sound tools bundle → items.map LegacyItem.line = bundle.items.map LegacyItem.line) :
    Follows tools bundle { bundle with toLegacyBundle := job, items := items } := by
  have hplan : Sound tools bundle →
      ({ bundle with toLegacyBundle := job, items := items } : Bundle η).reviewPlan =
        bundle.reviewPlan := fun hs => congrArg (ReviewPlan.mk bundle.planHash) (hlines hs)
  refine ⟨rfl, fun hs => ?_, fun hs => ⟨fun h => hphase.trans h, fun _ => hplan hs, fun _ => rfl⟩⟩
  exact
    { toOrdered := hordered hs.toOrdered
      ids := hids.symm ▸ hs.ids
      identities := (identities_of_lines (hlines hs)).symm ▸ hs.identities
      confirmed := fun h => by
        rw [reviewHash, hplan hs]
        exact hs.confirmed (hphase.symm.trans h)
      unconfirmed := fun h => hs.unconfirmed fun hold => h (hphase.trans hold) }

theorem Follows.of_step {event : Legacy.Event} {job : LegacyBundle}
    (hjob : Legacy.step bundle.toLegacyBundle event = some job)
    (hevent : ∀ now, event ≠ .apply now) :
    Follows tools bundle { bundle with toLegacyBundle := job } :=
  .of_job (job_step hjob hevent).1 (job_step hjob hevent).2 rfl fun _ => rfl

theorem exhausted_follows (now : Time) :
    Follows tools bundle
      { bundle with toLegacyBundle := dispatchExhausted now bundle.toLegacyBundle } :=
  .of_job rfl (fun _ => ⟨by simp [dispatchExhausted], fun _ => rfl⟩) rfl fun _ => rfl

/-- A bundle whose plan is not confirmed follows any other. -/
theorem Follows.of_review (hid : bundle'.id = bundle.id)
    (hphase : Sound tools bundle → bundle.phase ≠ .apply)
    (hsound : Sound tools bundle → Sound tools bundle') : Follows tools bundle bundle' where
  id := hid
  sound := hsound
  kept hs := ⟨fun h => absurd h (hphase hs), fun h => absurd h (hphase hs),
    fun h => absurd h (hphase hs)⟩

/-- In review, the phase is that of the analysis. -/
theorem Sound.phase_ne (hs : Sound tools bundle) (hstatus : pastReview bundle.status = false) :
    bundle.phase ≠ .apply := by
  intro hphase
  rw [hs.past hphase] at hstatus
  cases hstatus

/-- A bundle after one of its items. -/
theorem Follows.item {event : Legacy.Event} {job : LegacyBundle} {old : LegacyItem}
    (new : LegacyItem) (hjob : Legacy.step bundle.toLegacyBundle event = some job)
    (hevent : ∀ now, event ≠ .apply now) (hold : bundle.item new.id = some old)
    (hline : new.line = old.line) :
    Follows tools bundle (({ bundle with toLegacyBundle := job } : Bundle η).put new) :=
  .of_job (job_step hjob hevent).1 (job_step hjob hevent).2 (put_ids bundle new).symm fun hs =>
    put_map LegacyItem.line hs.ids hold hline

theorem plannedItems_ids {db : Db} {rows : List (UUID × PlannedTarget)} {items : List LegacyItem}
    (h : rows.mapM (fun row => plannedItem tools db row.1 row.2) = .ok items) :
    items.map LegacyItem.id = rows.map Prod.fst := by
  induction rows generalizing items with
  | nil =>
    cases h
    rfl
  | cons row rows ih =>
    rw [List.mapM_cons] at h
    obtain ⟨item, hitem, h⟩ := bind_eq_ok.mp h
    obtain ⟨rest, hrest, h⟩ := bind_eq_ok.mp h
    obtain ⟨_, -, hitem⟩ := bind_eq_ok.mp hitem
    cases hitem
    cases h
    exact congrArg (List.cons row.1) (ih hrest)

theorem saveAnalysis_follows {db : Db} {analysis : Analysis} {ids : List UUID} {now : Time}
    (hstatus : bundle.status = .analyzing)
    (h : saveAnalysis tools db bundle analysis ids now = .ok bundle') :
    Follows tools bundle bundle' := by
  obtain ⟨-, h⟩ := seq_eq_ok.mp h
  obtain ⟨hids, h⟩ := seq_eq_ok.mp h
  obtain ⟨items, hitems, h⟩ := bind_eq_ok.mp h
  obtain ⟨hidentities, h⟩ := seq_eq_ok.mp h
  obtain ⟨next, hnext, h⟩ := bind_eq_ok.mp h
  obtain ⟨hlength, hnodup⟩ := require_eq_ok.mp hids
  obtain ⟨job, hjob, rfl⟩ := proceed_eq_ok hnext
  simp only [Legacy.step, if_pos hstatus] at hjob
  cases hjob
  cases h
  have hphase := fun hs : Sound tools bundle => hs.phase_ne (by rw [hstatus]; rfl)
  refine .of_review rfl hphase fun hs =>
    { applying := by simp
      past := fun h => absurd h (hphase hs)
      ids := ?_
      identities := require_eq_ok.mp hidentities
      confirmed := fun h => absurd h (hphase hs)
      unconfirmed := hs.unconfirmed }
  change (items.map LegacyItem.id).Nodup
  rw [plannedItems_ids hitems, List.map_fst_zip hlength.le]
  exact hnodup

variable [DecidableEq η]

theorem decide_item_eq_ok {item item' : LegacyItem} {decision : Decision} {mergeId : Option UUID}
    (h : item.decide decision mergeId = .ok item') :
    item'.id = item.id ∧ item'.identity = item.identity := by
  simp only [LegacyItem.decide] at h
  split at h
  · obtain ⟨_, -, h⟩ := bind_eq_ok.mp h
    cases h
    exact ⟨rfl, rfl⟩
  · cases h
    exact ⟨rfl, rfl⟩

/-- **Every request leaves a confirmed plan as it is.** -/
theorem perform_follows {request : Request η} (h : request.perform tools bundle = .ok bundle') :
    Follows tools bundle bundle' := by
  cases request with
  | uploaded zipSize xlsxSize now =>
    obtain ⟨hstatus, h⟩ := seq_eq_ok.mp h
    obtain ⟨-, h⟩ := seq_eq_ok.mp h
    have hstatus := require_eq_ok.mp hstatus
    cases h
    have hphase := fun hs : Sound tools bundle => hs.phase_ne (by rw [hstatus]; rfl)
    exact .of_review rfl hphase fun hs =>
      { applying := by simp
        past := fun h => absurd h (hphase hs)
        ids := hs.ids
        identities := hs.identities
        confirmed := fun h => absurd h (hphase hs)
        unconfirmed := hs.unconfirmed }
  | analyze now =>
    obtain ⟨hstatus, h⟩ := seq_eq_ok.mp h
    have hstatus := require_eq_ok.mp hstatus
    cases h
    have hphase := fun hs : Sound tools bundle => hs.phase_ne (by rw [hstatus]; rfl)
    exact .of_review rfl hphase fun hs =>
      { applying := by simp [startAnalysis]
        past := by simp [startAnalysis]
        ids := hs.ids
        identities := hs.identities
        confirmed := by simp [startAnalysis]
        unconfirmed := fun _ => hs.unconfirmed (hphase hs) }
  | decide itemId planHash decision mergeId =>
    obtain ⟨-, h⟩ := seq_eq_ok.mp h
    obtain ⟨hready, h⟩ := seq_eq_ok.mp h
    obtain ⟨old, hold, h⟩ := bind_eq_ok.mp h
    obtain ⟨-, h⟩ := seq_eq_ok.mp h
    obtain ⟨new, hnew, h⟩ := bind_eq_ok.mp h
    have hstatus := (require_eq_ok.mp hready).1
    have hold : bundle.item itemId = some old := fromSome_eq_ok.mp hold
    obtain ⟨hid, hidentity⟩ := decide_item_eq_ok hnew
    cases h
    have hphase := fun hs : Sound tools bundle => hs.phase_ne (by rw [hstatus]; rfl)
    refine .of_review rfl hphase fun hs =>
      { applying := hs.applying
        past := hs.past
        ids := put_ids bundle new ▸ hs.ids
        identities := ?_
        confirmed := fun h => absurd h (hphase hs)
        unconfirmed := hs.unconfirmed }
    have hfound : bundle.item new.id = some old := by
      rw [hid, key_of_lookup hold]
      exact hold
    rw [put_map LegacyItem.identity hs.ids hfound hidentity]
    exact hs.identities
  | apply planHash actor now =>
    obtain ⟨hready, h⟩ := seq_eq_ok.mp h
    obtain ⟨-, h⟩ := seq_eq_ok.mp h
    obtain ⟨next, hnext, h⟩ := bind_eq_ok.mp h
    obtain ⟨hstatus, hhash⟩ := require_eq_ok.mp hready
    obtain ⟨job, hjob, rfl⟩ := proceed_eq_ok hnext
    cases h
    simp only [Legacy.step, if_pos hstatus] at hjob
    cases hjob
    exact .of_review rfl (fun hs => hs.phase_ne (by rw [hstatus]; rfl)) fun hs =>
      { applying := fun _ => rfl
        past := fun _ => rfl
        ids := hs.ids
        identities := hs.identities
        confirmed := fun _ => ⟨congrArg some hhash.symm, rfl⟩
        unconfirmed := fun h => absurd rfl h }
  | cancel now =>
    obtain ⟨job, hjob, rfl⟩ := proceed_eq_ok h
    exact .of_step hjob (by simp)
  | retry now =>
    obtain ⟨next, hnext, h⟩ := bind_eq_ok.mp h
    obtain ⟨job, hjob, rfl⟩ := proceed_eq_ok hnext
    split at h
    · obtain ⟨-, h⟩ := seq_eq_ok.mp h
      cases h
      obtain ⟨hphase, hordered⟩ := job_step hjob (by simp)
      refine .of_job hphase hordered ?_ fun _ => ?_
      · rw [List.map_map]
        refine List.map_congr_left fun item _ => ?_
        simp only [Function.comp_apply, LegacyItem.again]
        split <;> rfl
      · rw [List.map_map]
        refine List.map_congr_left fun item _ => ?_
        simp only [Function.comp_apply, LegacyItem.again]
        split <;> rfl
    · cases h
      exact .of_step hjob (by simp)

/-- Only a retry brings a bundle back. -/
theorem perform_rests {request : Request η} (h : request.perform tools bundle = .ok bundle')
    (hrequest : ∀ now, request ≠ .retry now) (hrests : rests bundle.status = true) :
    rests bundle'.status = true := by
  have hbusy : ∀ status, bundle.status = status → rests status = false → False := by
    rintro status rfl hbusy
    rw [hrests] at hbusy
    cases hbusy
  cases request with
  | uploaded zipSize xlsxSize now =>
    obtain ⟨hstatus, -⟩ := seq_eq_ok.mp h
    exact (hbusy _ (require_eq_ok.mp hstatus) rfl).elim
  | analyze now =>
    obtain ⟨hstatus, -⟩ := seq_eq_ok.mp h
    exact (hbusy _ (require_eq_ok.mp hstatus) rfl).elim
  | decide itemId planHash decision mergeId =>
    obtain ⟨-, h⟩ := seq_eq_ok.mp h
    obtain ⟨hready, -⟩ := seq_eq_ok.mp h
    exact (hbusy _ (require_eq_ok.mp hready).1 rfl).elim
  | apply planHash actor now =>
    obtain ⟨hready, -⟩ := seq_eq_ok.mp h
    exact (hbusy _ (require_eq_ok.mp hready).1 rfl).elim
  | cancel now =>
    obtain ⟨job, hjob, rfl⟩ := proceed_eq_ok h
    exact job_rests hjob (by simp) hrests
  | retry now => exact absurd rfl (hrequest now)

end Plans

/-! ## Steps -/

section Steps

variable {η : Type} {tools : Tools η} {w w' : World η} {event : Event η}

/-- The event is a retry of the bundle. -/
def Event.retries (event : Event η) (id : UUID) : Prop :=
  match event with
  | .request bundleId (.retry _) => bundleId = id
  | _ => False

/-- What a step does to the catalog, the bundles and the record. -/
inductive Change (tools : Tools η) (event : Event η) (w w' : World η) : Prop where
  | quiet : w'.db = w.db → w'.bundles = w.bundles → w'.applied = w.applied →
      Change tools event w w'
  | catalog {transaction : Catalog.Event} :
      Catalog.step tools.catalog w.db transaction = some w'.db →
      w'.bundles = w.bundles → w'.applied = w.applied → Change tools event w w'
  | created {bundle : Bundle η} : w.bundle bundle.id = none → Sound tools bundle →
      w'.db = w.db → w'.bundles = w.bundles ++ [bundle] → w'.applied = w.applied →
      Change tools event w w'
  | moved {old new : Bundle η} : w.bundle new.id = some old → Follows tools old new →
      (¬ event.retries new.id → rests old.status = true → rests new.status = true) →
      w'.db = w.db → w'.bundles = replace Bundle.id w.bundles new → w'.applied = w.applied →
      Change tools event w w'
  | applied {old new : Bundle η} {item : LegacyItem} {applied : Applied} :
      w.bundle new.id = some old → Follows tools old new → old.status = .applying →
      item ∈ old.items → AppliesTo tools w.db w'.db old item applied →
      w'.bundles = replace Bundle.id w.bundles new → w'.applied = w.applied ++ [applied] →
      Change tools event w w'

/-- The bundle is saved, whatever happens to the turns. -/
theorem Change.put {old new : Bundle η} (hfound : w.bundle old.id = some old)
    (hfollows : Follows tools old new)
    (hrests : ¬ event.retries new.id → rests old.status = true → rests new.status = true)
    (hdb : w'.db = w.db) (hbundles : w'.bundles = replace Bundle.id w.bundles new)
    (happlied : w'.applied = w.applied) : Change tools event w w' :=
  .moved (hfollows.id.symm ▸ hfound) hfollows hrests hdb hbundles happlied

theorem World.found {bundle : Bundle η} {id : UUID} (h : w.bundle id = some bundle) :
    w.bundle bundle.id = some bundle := by
  rw [key_of_lookup h]
  exact h

theorem createBundle_sound (tools : Tools η) {active zipSize xlsxSize : Nat} {id ownerId : UUID}
    {now : Time} {bundle : Bundle η}
    (h : createBundle active id ownerId zipSize xlsxSize now = .ok bundle) :
    bundle.id = id ∧ Sound tools bundle := by
  obtain ⟨-, h⟩ := seq_eq_ok.mp h
  obtain ⟨-, h⟩ := seq_eq_ok.mp h
  cases h
  exact ⟨rfl,
    { applying := by simp
      past := by simp
      ids := List.nodup_nil
      identities := List.nodup_nil
      confirmed := by simp
      unconfirmed := fun _ => rfl }⟩

variable [DecidableEq η]

theorem runItem_change {turn : Turn} {bundle : Bundle η} {pending : Nat} {run : ItemRun}
    (hfound : w.bundle bundle.id = some bundle)
    (h : runItem tools w turn bundle pending run = some w') : Change tools event w w' := by
  unfold runItem at h
  split at h
  · rename_i itemId rest hitems
    split at h
    · cases h
      exact .quiet rfl rfl rfl
    · rename_i hstatus
      obtain ⟨item, hitem, h⟩ := Option.bind_eq_some_iff.mp h
      simp only at h
      split at h
      · cases h
        exact .quiet rfl rfl rfl
      · split at h
        · obtain ⟨next, hnext, rfl⟩ := Option.map_eq_some_iff.mp h
          obtain ⟨job, hjob, rfl⟩ := proceed_eq_ok (toOption_eq_some.mp hnext)
          exact .put hfound (.of_step hjob (by simp)) (fun _ => job_rests hjob (by simp)) rfl rfl
            rfl
        · obtain ⟨next, hnext, rfl⟩ := Option.map_eq_some_iff.mp h
          obtain ⟨job, hjob, rfl⟩ := proceed_eq_ok (toOption_eq_some.mp hnext)
          have hold : bundle.item item.id = some item := by
            rw [key_of_lookup hitem]
            exact hitem
          split
          · rename_i db' item' applied hdone
            obtain ⟨hline, hid, happlied⟩ := applyItem_eq_ok hdone
            have hfollows : Follows tools bundle _ :=
              .item item' hjob (by simp) (hid.symm ▸ hold) hline
            rcases happlied with ⟨rfl, rfl⟩ | ⟨a, rfl, hto⟩
            · exact .put hfound hfollows (fun _ => job_rests hjob (by simp)) rfl rfl
                (List.append_nil _)
            · exact .applied (hfollows.id.symm ▸ hfound) hfollows (not_not.mp hstatus)
                (mem_of_lookup hitem) hto rfl rfl
          · exact .put hfound (.item item.fail hjob (by simp) hold rfl)
              (fun _ => job_rests hjob (by simp)) rfl rfl rfl
  · cases h

theorem perform_change {work : Work} {turn : Turn} {bundle : Bundle η}
    (hfound : w.bundle bundle.id = some bundle)
    (h : work.perform tools w turn bundle = some w') : Change tools event w w' := by
  cases work with
  | start => cases h
  | saveAnalysis analysis ids now =>
    change storeAnalysis tools w turn bundle analysis ids now = some w' at h
    unfold storeAnalysis at h
    split at h
    · cases h
    · split at h
      · rename_i hstatus
        obtain ⟨next, hnext, rfl⟩ := Option.map_eq_some_iff.mp h
        refine .put hfound (saveAnalysis_follows hstatus (toOption_eq_some.mp hnext))
          (fun _ hrests => ?_) rfl rfl rfl
        rw [hstatus] at hrests
        cases hrests
      · cases h
        exact .quiet rfl rfl rfl
  | load zipSha256 xlsxSha256 =>
    change checkPlan tools w turn bundle zipSha256 xlsxSha256 = some w' at h
    unfold checkPlan at h
    split at h
    · cases h
      exact .quiet rfl rfl rfl
    · cases h
  | item pending run => exact runItem_change hfound h
  | complete now =>
    change completeBundle w turn bundle now = some w' at h
    unfold completeBundle at h
    split at h
    · split at h
      · obtain ⟨next, hnext, rfl⟩ := Option.map_eq_some_iff.mp h
        obtain ⟨job, hjob, rfl⟩ := proceed_eq_ok (toOption_eq_some.mp hnext)
        exact .put hfound (.of_step hjob (by simp)) (fun _ => job_rests hjob (by simp)) rfl rfl rfl
      · cases h
        exact .quiet rfl rfl rfl
    · cases h
  | fail code now =>
    change failBundle w bundle code now = some w' at h
    unfold failBundle at h
    split at h
    · obtain ⟨next, hnext, rfl⟩ := Option.map_eq_some_iff.mp h
      obtain ⟨job, hjob, rfl⟩ := proceed_eq_ok (toOption_eq_some.mp hnext)
      exact .put hfound (.of_step hjob (by simp)) (fun _ => job_rests hjob (by simp)) rfl rfl rfl
    · cases h
      exact .quiet rfl rfl rfl
  | crash =>
    cases h
    exact .quiet rfl rfl rfl

/-- **What a step can do.** -/
theorem step_change (h : step tools w event = some w') : Change tools event w w' := by
  cases event with
  | catalog event =>
    simp only [step] at h
    split at h
    · obtain ⟨db, hdb, rfl⟩ := Option.map_eq_some_iff.mp h
      exact .catalog hdb rfl rfl
    · cases h
  | create id ownerId zipSize xlsxSize now =>
    simp only [step] at h
    split at h
    · cases h
    · rename_i hnone
      obtain ⟨bundle, hbundle, rfl⟩ := Option.map_eq_some_iff.mp h
      obtain ⟨rfl, hsound⟩ := createBundle_sound tools (toOption_eq_some.mp hbundle)
      exact .created (by simpa using hnone) hsound rfl rfl rfl
  | request id request =>
    obtain ⟨bundle, hbundle, h⟩ := Option.bind_eq_some_iff.mp h
    obtain ⟨next, hnext, rfl⟩ := Option.map_eq_some_iff.mp h
    have hnext := toOption_eq_some.mp hnext
    have hfollows := perform_follows hnext
    refine .put (World.found hbundle) hfollows (fun hretry => perform_rests hnext ?_) rfl rfl rfl
    rintro now rfl
    exact hretry (by rw [hfollows.id, key_of_lookup hbundle]; rfl)
  | work id work =>
    cases work with
    | start =>
      obtain ⟨bundle, -, h⟩ := Option.bind_eq_some_iff.mp h
      split at h
      · cases h
        exact .quiet rfl rfl rfl
      · cases h
    | _ =>
      obtain ⟨bundle, hbundle, h⟩ := Option.bind_eq_some_iff.mp h
      obtain ⟨turn, -, h⟩ := Option.bind_eq_some_iff.mp h
      exact perform_change (World.found hbundle) h
  | exhaust id =>
    obtain ⟨bundle, -, h⟩ := Option.bind_eq_some_iff.mp h
    split at h
    · cases h
      exact .quiet rfl rfl rfl
    · cases h
  | markFailed id now =>
    simp only [step] at h
    split at h
    · obtain ⟨bundle, hbundle, rfl⟩ := Option.map_eq_some_iff.mp h
      exact .put (World.found hbundle) (exhausted_follows now) (fun _ _ => rfl) rfl rfl rfl
    · cases h

end Steps

/-! ## Runs -/

section Runs

variable {η : Type} {tools : Tools η} {w w' : World η}

/-- An item was applied by the administrator who confirmed its bundle, and as every plan with the
confirmed hash decides it. -/
def AsConfirmed (tools : Tools η) (w : World η) (a : Applied) : Prop :=
  ∃ bundle, w.bundle a.bundleId = some bundle ∧ bundle.confirmedBy = some a.actor ∧
    ∃ hash, bundle.confirmedHash = some hash ∧ ∀ plan, tools.reviewDigest plan = hash →
      (plan.lines.map ReviewLine.identity).Nodup ∧
        ∃ line ∈ plan.lines, line.identity = a.identity ∧ line.chosen = some a.decision

/-- The item is linked to the card that it was applied to, and to no other. -/
def LinkedTo (db : Db) (a : Applied) : Prop :=
  (∃ card, db.card a.componentId = some card ∧ a.identity ∈ card.items) ∧
    ∀ card ∈ db.cards, a.identity ∈ card.items → card.id = a.componentId

/-- An applied item is a line of a confirmed plan. -/
def Planned (w : World η) (a : Applied) : Prop :=
  ∃ bundle, w.bundle a.bundleId = some bundle ∧ bundle.phase = .apply ∧
    bundle.confirmedBy = some a.actor ∧
      ∃ line ∈ bundle.reviewPlan.lines, line.identity = a.identity ∧ line.chosen = some a.decision

structure Inv (tools : Tools η) (w : World η) : Prop where
  sound : ∀ bundle ∈ w.bundles, Sound tools bundle
  planned : ∀ a ∈ w.applied, Planned w a
  linked : ∀ a ∈ w.applied, ∃ card, w.db.card a.componentId = some card ∧ a.identity ∈ card.items
  once : (w.applied.map Applied.identity).Nodup
  owner : OneOwner w.db

/-- A plan that was confirmed stays where it is. -/
theorem Planned.keep {a : Applied} (ha : Planned w a)
    (h : ∀ bundle, w.bundle a.bundleId = some bundle →
      ∃ bundle', w'.bundle a.bundleId = some bundle' ∧ Kept bundle bundle') : Planned w' a := by
  obtain ⟨bundle, hbundle, hphase, hactor, hline⟩ := ha
  obtain ⟨bundle', hbundle', hkept⟩ := h bundle hbundle
  refine ⟨bundle', hbundle', hkept.phase hphase, (hkept.confirmedBy hphase).trans hactor, ?_⟩
  rw [hkept.plan hphase]
  exact hline

theorem Kept.refl (bundle : Bundle η) : Kept bundle bundle := ⟨id, fun _ => rfl, fun _ => rfl⟩

theorem Inv.bundle (hi : Inv tools w) {id : UUID} {bundle : Bundle η}
    (h : w.bundle id = some bundle) : Sound tools bundle := hi.sound bundle (mem_of_lookup h)

/-- The bundles after one of them is saved. -/
theorem bundles_replaced (hs : ∀ bundle ∈ w.bundles, Sound tools bundle) {old new : Bundle η}
    (hfound : w.bundle new.id = some old) (hfollows : Follows tools old new)
    (hbundles : w'.bundles = replace Bundle.id w.bundles new) :
    (∀ bundle ∈ w'.bundles, Sound tools bundle) ∧ ∀ id bundle, w.bundle id = some bundle →
      ∃ bundle', w'.bundle id = some bundle' ∧ Kept bundle bundle' := by
  have hold := hs old (mem_of_lookup hfound)
  constructor
  · intro bundle hbundle
    rw [hbundles] at hbundle
    rcases mem_replace hbundle with rfl | hbundle
    · exact hfollows.sound hold
    · exact hs bundle hbundle
  · intro id bundle hbundle
    rw [World.bundle, hbundles]
    by_cases hid : new.id = id
    · subst hid
      obtain rfl := Option.some.inj (hfound.symm.trans hbundle)
      exact ⟨new, lookup_replace_self hfound, hfollows.kept hold⟩
    · exact ⟨bundle, (lookup_replace_ne hid).trans hbundle, .refl bundle⟩

theorem sound_change {event : Event η} (hs : ∀ bundle ∈ w.bundles, Sound tools bundle)
    (h : Change tools event w w') : ∀ bundle ∈ w'.bundles, Sound tools bundle := by
  cases h with
  | quiet _ hbundles _ => exact hbundles ▸ hs
  | catalog _ hbundles _ => exact hbundles ▸ hs
  | created _ hsound _ hbundles _ =>
    intro bundle hbundle
    rw [hbundles, List.mem_append, List.mem_singleton] at hbundle
    rcases hbundle with hbundle | rfl
    · exact hs bundle hbundle
    · exact hsound
  | moved hfound hfollows _ _ hbundles _ => exact (bundles_replaced hs hfound hfollows hbundles).1
  | applied hfound hfollows _ _ _ hbundles _ =>
    exact (bundles_replaced hs hfound hfollows hbundles).1

/-- An item that is not linked was not applied. -/
theorem Inv.new (hi : Inv tools w) {identity : String} (h : linkOf w.db identity = none) :
    identity ∉ w.applied.map Applied.identity := by
  intro hmem
  obtain ⟨a, ha, rfl⟩ := List.mem_map.mp hmem
  obtain ⟨card, hcard, hitem⟩ := hi.linked a ha
  exact linkOf_eq_none.mp h card (Db.mem_of_card hcard) hitem

/-- **Every step keeps the invariant.** -/
theorem Inv.change {event : Event η} (hi : Inv tools w) (h : Change tools event w w') :
    Inv tools w' := by
  have hsound := sound_change hi.sound h
  cases h with
  | quiet hdb hbundles happlied =>
    exact
      { sound := hsound
        planned := fun a ha => (hi.planned a (happlied ▸ ha)).keep fun bundle hbundle =>
          ⟨bundle, by rw [World.bundle, hbundles]; exact hbundle, .refl bundle⟩
        linked := by
          rw [hdb, happlied]
          exact hi.linked
        once := happlied ▸ hi.once
        owner := hdb ▸ hi.owner }
  | catalog hstep hbundles happlied =>
    exact
      { sound := hsound
        planned := fun a ha => (hi.planned a (happlied ▸ ha)).keep fun bundle hbundle =>
          ⟨bundle, by rw [World.bundle, hbundles]; exact hbundle, .refl bundle⟩
        linked := fun a ha => by
          obtain ⟨card, hcard, hitem⟩ := hi.linked a (happlied ▸ ha)
          obtain ⟨card', hcard', hsub⟩ := step_keepsItems hstep _ card hcard
          exact ⟨card', hcard', hsub hitem⟩
        once := happlied ▸ hi.once
        owner := step_oneOwner hi.owner hstep }
  | created _ _ hdb hbundles happlied =>
    refine
      { sound := hsound
        planned := fun a ha => (hi.planned a (happlied ▸ ha)).keep fun bundle hbundle => ?_
        linked := by
          rw [hdb, happlied]
          exact hi.linked
        once := happlied ▸ hi.once
        owner := hdb ▸ hi.owner }
    refine ⟨bundle, ?_, .refl bundle⟩
    rw [World.bundle, hbundles, lookup_append_of_isSome]
    · exact hbundle
    · rw [← World.bundle, hbundle]
      rfl
  | moved hfound hfollows _ hdb hbundles happlied =>
    have hkept := (bundles_replaced hi.sound hfound hfollows hbundles).2
    exact
      { sound := hsound
        planned := fun a ha => (hi.planned a (happlied ▸ ha)).keep (hkept _)
        linked := by
          rw [hdb, happlied]
          exact hi.linked
        once := happlied ▸ hi.once
        owner := hdb ▸ hi.owner }
  | applied hfound hfollows hstatus hitem hto hbundles happlied =>
    rename_i old new item a
    have hkept := (bundles_replaced hi.sound hfound hfollows hbundles).2
    obtain ⟨data, images, newId, owner, now, later, hcomponent, hstep⟩ := hto.transaction
    obtain ⟨-, hperform⟩ := step_eq_some hstep
    have hphase := (hi.bundle hfound).applying hstatus
    have hplanned : Planned w a := by
      refine ⟨old, ?_, hphase, hto.actor, item.line, List.mem_map_of_mem hitem, hto.identity.symm,
        hto.chosen⟩
      rw [hto.bundleId, ← hfollows.id]
      exact hfound
    have hmem : ∀ b ∈ w'.applied, b ∈ w.applied ∨ b = a := fun b hb => by
      rw [happlied, List.mem_append, List.mem_singleton] at hb
      exact hb
    refine
      { sound := hsound
        planned := fun b hb => ?_
        linked := fun b hb => ?_
        once := ?_
        owner := step_oneOwner hi.owner hstep }
    · rcases hmem b hb with hb | rfl
      · exact (hi.planned b hb).keep (hkept _)
      · exact hplanned.keep (hkept _)
    · rcases hmem b hb with hb | rfl
      · obtain ⟨card, hcard, hitem⟩ := hi.linked b hb
        obtain ⟨card', hcard', hsub⟩ := step_keepsItems hstep _ card hcard
        exact ⟨card', hcard', hsub hitem⟩
      · rw [hcomponent, hto.identity]
        exact applyItem_links (toOption_eq_some.mp hperform)
    · have hnew := hi.new hto.fresh
      rw [← hto.identity] at hnew
      rw [happlied, List.map_append, List.map_singleton, ← List.concat_eq_append]
      exact List.Nodup.concat hnew hi.once

/-- No bundle yet. -/
structure Untouched (w : World η) : Prop where
  bundles : w.bundles = []
  applied : w.applied = []
  owner : OneOwner w.db

theorem Untouched.inv (h : Untouched w) : Inv tools w where
  sound := by simp [h.bundles]
  planned := by simp [h.applied]
  linked := by simp [h.applied]
  once := by simp [h.applied]
  owner := h.owner

theorem Inv.asConfirmed (hdigest : Function.Injective tools.reviewDigest) (hi : Inv tools w)
    {a : Applied} (ha : a ∈ w.applied) : AsConfirmed tools w a := by
  obtain ⟨bundle, hbundle, hphase, hactor, line, hline, hidentity, hchosen⟩ := hi.planned a ha
  have hsound := hi.bundle hbundle
  refine ⟨bundle, hbundle, hactor, _, (hsound.confirmed hphase).1, fun plan hplan => ?_⟩
  obtain rfl := hdigest hplan
  refine ⟨?_, line, hline, hidentity, hchosen⟩
  have hmap : bundle.reviewPlan.lines.map ReviewLine.identity =
      bundle.items.map LegacyItem.identity := List.map_map
  rw [hmap]
  exact hsound.identities

/-- The items of one bundle that were applied. -/
def World.appliedOf (w : World η) (id : UUID) : List Applied :=
  w.applied.filter fun a => a.bundleId = id

/-- The bundle is cancelled, or failed after that. -/
def Resting (w : World η) (id : UUID) : Prop :=
  ∃ bundle, w.bundle id = some bundle ∧ rests bundle.status = true

theorem Resting.change {event : Event η} {id : UUID} (hr : Resting w id)
    (hevent : ¬ event.retries id) (h : Change tools event w w') :
    Resting w' id ∧ w'.appliedOf id = w.appliedOf id := by
  obtain ⟨bundle, hbundle, hrests⟩ := hr
  cases h with
  | quiet hdb hbundles happlied =>
    refine ⟨⟨bundle, ?_, hrests⟩, by rw [World.appliedOf, happlied, World.appliedOf]⟩
    rw [World.bundle, hbundles]
    exact hbundle
  | catalog hstep hbundles happlied =>
    refine ⟨⟨bundle, ?_, hrests⟩, by rw [World.appliedOf, happlied, World.appliedOf]⟩
    rw [World.bundle, hbundles]
    exact hbundle
  | created hnone hsound hdb hbundles happlied =>
    refine ⟨⟨bundle, ?_, hrests⟩, by rw [World.appliedOf, happlied, World.appliedOf]⟩
    rw [World.bundle, hbundles, lookup_append_of_isSome]
    · exact hbundle
    · rw [← World.bundle, hbundle]
      rfl
  | moved hfound hfollows hkeeps hdb hbundles happlied =>
    rename_i old new
    refine ⟨?_, by rw [World.appliedOf, happlied, World.appliedOf]⟩
    unfold Resting
    rw [World.bundle, hbundles]
    by_cases hid : new.id = id
    · subst hid
      obtain rfl := Option.some.inj (hfound.symm.trans hbundle)
      exact ⟨new, lookup_replace_self hfound, hkeeps hevent hrests⟩
    · exact ⟨bundle, (lookup_replace_ne hid).trans hbundle, hrests⟩
  | applied hfound hfollows hstatus hitem hto hbundles happlied =>
    rename_i old new item a
    -- the bundle of the item is being applied, so it is another one
    have hid : new.id ≠ id := by
      rintro rfl
      obtain rfl := Option.some.inj (hfound.symm.trans hbundle)
      rw [hstatus] at hrests
      cases hrests
    have hother : a.bundleId ≠ id := by
      rw [hto.bundleId, ← hfollows.id]
      exact hid
    refine ⟨⟨bundle, ?_, hrests⟩, ?_⟩
    · rw [World.bundle, hbundles]
      exact (lookup_replace_ne hid).trans hbundle
    · rw [World.appliedOf, happlied, List.filter_append, World.appliedOf]
      simp [hother]

variable [DecidableEq η]

/-- **Each item at most once, and only as confirmed.** Over every run of administrators, workers
that may stop anywhere, dispatchers and the rest of the catalog, no identity is applied twice, an
applied item is linked to its card and to no other, and it was decided so in the plan that its
administrator confirmed. -/
theorem applied_once (hdigest : Function.Injective tools.reviewDigest) (hw : Untouched w)
    {es : List (Event η)} (h : run (step tools) w es = some w') :
    (w'.applied.map Applied.identity).Nodup ∧
      ∀ a ∈ w'.applied, LinkedTo w'.db a ∧ AsConfirmed tools w' a := by
  have hstep : ∀ s e s', Inv tools s → True → step tools s e = some s' → Inv tools s' :=
    fun _ _ _ hi _ hstep => hi.change (step_change hstep)
  have hi : Inv tools w' := run_inv hstep hw.inv (along_true w es) h
  refine ⟨hi.once, fun a ha => ⟨⟨hi.linked a ha, fun card hcard hitem => ?_⟩,
    hi.asConfirmed hdigest ha⟩⟩
  obtain ⟨owner, howner, howned⟩ := hi.linked a ha
  rw [← Db.id_of_card howner]
  exact hi.owner card hcard owner (Db.mem_of_card howner) _ hitem howned

/-- **A cancelled bundle applies nothing.** From any state in which a bundle is cancelled, whatever
its worker and the dispatcher still do, none of its items is applied before an administrator
retries it. -/
theorem cancelled_rests {id : UUID} {bundle : Bundle η} (hbundle : w.bundle id = some bundle)
    (hcancelled : bundle.status = .cancelled) {es : List (Event η)}
    (hretry : ∀ event ∈ es, ¬ event.retries id) (h : run (step tools) w es = some w') :
    w'.appliedOf id = w.appliedOf id := by
  have hstep : ∀ s e s', (Resting s id ∧ s.appliedOf id = w.appliedOf id) → ¬ e.retries id →
      step tools s e = some s' → Resting s' id ∧ s'.appliedOf id = w.appliedOf id := by
    intro s e s' hs he hstep
    obtain ⟨hrests, happlied⟩ := hs.1.change he (step_change hstep)
    exact ⟨hrests, happlied.trans hs.2⟩
  have hstart : Resting w id := ⟨bundle, hbundle, by rw [hcancelled]; rfl⟩
  exact (run_inv hstep ⟨hstart, rfl⟩ (along_of_mem hretry w) h).2

end Runs

/-! ## A bundle of one sensor -/

/-- Digests that are free of collisions. -/
inductive Hash where
  | stored (plan : StoredPlan)
  | unplanned (lines : List ReviewLine)
  | planned (planHash : Hash) (lines : List ReviewLine)
  | found (candidates : List Candidate)
  deriving DecidableEq

def Hash.review : ReviewPlan Hash → Hash
  | ⟨none, lines⟩ => .unplanned lines
  | ⟨some planHash, lines⟩ => .planned planHash lines

theorem Hash.review_injective : Function.Injective Hash.review := by
  rintro ⟨_ | planHash, lines⟩ ⟨_ | planHash', lines'⟩ h <;> cases h <;> rfl

def plainTools : Tools Hash where
  catalog := plainEnv
  keyDigest := fun _ => "e8ee603acfbe711e405259acfc544e8c359f60ea3b92790c0684104f43f3a3f5"
  storedDigest := .stored
  reviewDigest := .review
  candidatesDigest := .found
  search := fun _ _ _ => []

def plainWorld : World Hash := ⟨plainDb, [], [], [], []⟩

def sensorTarget : PlannedTarget where
  identity := "sensor"
  title := "Ultrasonic sensor"
  category := "ДАТЧИКИ"
  description := ""
  specifications := [⟨"voltage", "5 V", none⟩]
  folderMatch := "unmatched"
  warnings := []

def sensorAnalysis : Analysis := ⟨"zip", "xlsx", parserVersion, [sensorTarget]⟩

/-- The hash of the plan that the analysis makes. -/
def sensorHash : Hash :=
  .planned (.stored ⟨some "zip", some "xlsx", some parserVersion, [(sensorTarget, [])]⟩)
    [⟨"sensor", .create, none, none, none⟩]

/-- The bundle 50 is analyzed and confirmed; its worker stops before the item and starts again. -/
def sensorRun : List (Event Hash) :=
  [.create 50 7 100 100 1, .request 50 (.uploaded 100 100 2), .request 50 (.analyze 3),
   .work 50 .start, .work 50 (.saveAnalysis sensorAnalysis [60] 4),
   .request 50 (.apply sensorHash 8 5), .work 50 .start, .work 50 (.load "zip" "xlsx"),
   .work 50 .crash, .work 50 .start, .work 50 (.load "zip" "xlsx"),
   .work 50 (.item 0 ⟨[], [], 70, 6, 7⟩)]

def afterSensor : World Hash := (run (step plainTools) plainWorld sensorRun).getD plainWorld

theorem afterSensor_eq : run (step plainTools) plainWorld sensorRun = some afterSensor := by
  decide +kernel

theorem plainWorld_untouched : Untouched plainWorld :=
  ⟨rfl, rfl, fun _ hcard => absurd hcard List.not_mem_nil⟩

theorem applied_once_sensor :
    afterSensor.applied = [⟨50, 60, "sensor", .create, 70, 8⟩] ∧
      ∀ a ∈ afterSensor.applied, LinkedTo afterSensor.db a ∧ AsConfirmed plainTools afterSensor a :=
  ⟨by decide +kernel, (applied_once Hash.review_injective plainWorld_untouched afterSensor_eq).2⟩

/-- The bundle is cancelled before its item, while a dispatcher holds it for active. -/
def cancelledWorld : World Hash :=
  (run (step plainTools) plainWorld
    (sensorRun.dropLast ++ [.exhaust 50, .request 50 (.cancel 8)])).getD plainWorld

/-- The worker and the dispatcher go on. -/
def lateRun : List (Event Hash) :=
  [.work 50 (.item 0 ⟨[], [], 70, 9, 10⟩), .markFailed 50 11]

def lateWorld : World Hash :=
  (run (step plainTools) cancelledWorld lateRun).getD plainWorld

theorem cancelled_rests_sensor :
    (lateWorld.bundle 50).map (·.status) = some .failed ∧
      lateWorld.appliedOf 50 = cancelledWorld.appliedOf 50 := by
  have hrun : run (step plainTools) cancelledWorld lateRun = some lateWorld := by decide +kernel
  refine ⟨by decide +kernel, ?_⟩
  refine cancelled_rests (Option.some_get (by decide +kernel)).symm (by decide +kernel) ?_ hrun
  simp [lateRun, Event.retries]

end ComponentKb.Legacy.Bundles
