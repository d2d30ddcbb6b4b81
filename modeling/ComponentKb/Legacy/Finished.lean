import ComponentKb.Legacy.Confirmed

/-!
# A completed bundle has no item left

The loop of `run_bundle` is resumed after a crash, a redelivery or backpressure: each turn reads the
items again and passes over those that are finished. A bundle is completed by the turn that came to
their end.

* `applyItem_finished`: an item that was tried is finished.
* **`completed_finished`**: no item of a completed bundle is left, if no administrator retries a
  bundle while its worker is still at work.
* `left_behind`: the condition is needed. The dispatcher gives a bundle up, its failed item is
  planned again, and the old turn completes it.
-/

namespace ComponentKb.Legacy.Bundles

open Catalog Lib

/-- An item that its turn is past. -/
def Done (rest : List UUID) (items : List LegacyItem) : Prop :=
  ∀ item ∈ items, item.id ∈ rest ∨ item.status.finished = true

section Items

variable {η : Type} {tools : Tools η} {bundle bundle' : Bundle η}

theorem commitItem_finished {db db' : Db} {item item' : LegacyItem} {actor : UUID}
    {run : ItemRun} {decision : LegacyDecision} {data : DraftData} {componentId : UUID}
    {warnings : List String} {applied : Option Applied}
    (h : commitItem tools db bundle item actor run decision data componentId warnings =
      .ok (db', item', applied)) : item'.status = .applied := by
  obtain ⟨_, -, h⟩ := bind_eq_ok.mp h
  cases h
  rfl

theorem saveAnalysis_status {db : Db} {analysis : Analysis} {ids : List UUID} {now : Time}
    (hstatus : bundle.status = .analyzing)
    (h : saveAnalysis tools db bundle analysis ids now = .ok bundle') :
    bundle'.status ≠ .completed := by
  obtain ⟨-, h⟩ := seq_eq_ok.mp h
  obtain ⟨-, h⟩ := seq_eq_ok.mp h
  obtain ⟨items, -, h⟩ := bind_eq_ok.mp h
  obtain ⟨-, h⟩ := seq_eq_ok.mp h
  obtain ⟨next, hnext, h⟩ := bind_eq_ok.mp h
  obtain ⟨job, hjob, rfl⟩ := proceed_eq_ok hnext
  simp only [Legacy.step, if_pos hstatus] at hjob
  cases hjob
  cases h
  simp

variable [DecidableEq η]

/-- An item that was tried is not tried again. -/
theorem applyItem_finished {db db' : Db} {item item' : LegacyItem} {run : ItemRun}
    {applied : Option Applied}
    (h : applyItem tools db bundle item run = .ok (db', item', applied)) :
    item'.status.finished = true := by
  obtain ⟨actor, -, h⟩ := bind_eq_ok.mp h
  simp only at h
  split at h
  · cases h
    rfl
  · obtain ⟨current, -, h⟩ := bind_eq_ok.mp h
    split at h
    · cases h
      rfl
    · obtain ⟨category, -, h⟩ := bind_eq_ok.mp h
      obtain ⟨incoming, -, h⟩ := bind_eq_ok.mp h
      split at h
      · split at h
        · cases h
          rfl
        · rw [commitItem_finished h]
          rfl
      · rw [commitItem_finished h]
        rfl
      · cases h

/-- The items of a confirmed bundle change by a retry only, and no request completes a bundle. -/
theorem perform_items {request : Request η} (h : request.perform tools bundle = .ok bundle')
    (hrequest : ∀ now, request ≠ .retry now) (hs : Sound tools bundle) :
    (bundle.phase = .apply → bundle'.items = bundle.items) ∧
      bundle'.status ≠ .completed := by
  cases request with
  | uploaded zipSize xlsxSize now =>
    obtain ⟨-, h⟩ := seq_eq_ok.mp h
    obtain ⟨-, h⟩ := seq_eq_ok.mp h
    cases h
    exact ⟨fun _ => rfl, by simp⟩
  | analyze now =>
    obtain ⟨-, h⟩ := seq_eq_ok.mp h
    cases h
    exact ⟨fun _ => rfl, by simp [startAnalysis]⟩
  | decide itemId planHash decision mergeId =>
    obtain ⟨-, h⟩ := seq_eq_ok.mp h
    obtain ⟨hready, h⟩ := seq_eq_ok.mp h
    obtain ⟨_, -, h⟩ := bind_eq_ok.mp h
    obtain ⟨-, h⟩ := seq_eq_ok.mp h
    obtain ⟨_, -, h⟩ := bind_eq_ok.mp h
    have hstatus := (require_eq_ok.mp hready).1
    cases h
    refine ⟨fun hphase => absurd hphase (hs.phase_ne (by rw [hstatus]; rfl)), ?_⟩
    change bundle.status ≠ .completed
    rw [hstatus]
    simp
  | apply planHash actor now =>
    obtain ⟨hready, h⟩ := seq_eq_ok.mp h
    obtain ⟨-, h⟩ := seq_eq_ok.mp h
    obtain ⟨next, hnext, h⟩ := bind_eq_ok.mp h
    obtain ⟨job, hjob, rfl⟩ := proceed_eq_ok hnext
    cases h
    simp only [Legacy.step, if_pos (require_eq_ok.mp hready).1] at hjob
    cases hjob
    exact ⟨fun _ => rfl, by simp⟩
  | cancel now =>
    obtain ⟨job, hjob, rfl⟩ := proceed_eq_ok h
    simp only [Legacy.step] at hjob
    split at hjob
    · cases hjob
    · cases hjob
      exact ⟨fun _ => rfl, by simp⟩
  | retry now => exact absurd rfl (hrequest now)

theorem retry_status {now : Time} (h : bundle.retry tools now = .ok bundle') :
    bundle'.status ≠ .completed := by
  obtain ⟨next, hnext, h⟩ := bind_eq_ok.mp h
  obtain ⟨job, hjob, rfl⟩ := proceed_eq_ok hnext
  have hstatus : job.status ≠ .completed := by
    simp only [Legacy.step] at hjob
    split at hjob
    · cases hjob
      simp only [ne_eq]
      split <;> simp
    · cases hjob
  split at h
  · obtain ⟨-, h⟩ := seq_eq_ok.mp h
    cases h
    exact hstatus
  · cases h
    exact hstatus

end Items

/-! ## Turns -/

section Turns

variable {η : Type} {tools : Tools η} {w w' : World η}

/-- A turn that loaded the items is past those that it does not have left. -/
def Loaded (w : World η) (id : UUID) (rest : List UUID) : Prop :=
  ∃ bundle, w.bundle id = some bundle ∧ bundle.phase = .apply ∧ Done rest bundle.items

structure Progress (tools : Tools η) (w : World η) : Prop where
  sound : ∀ bundle ∈ w.bundles, Sound tools bundle
  loaded : ∀ id turn rest, w.turn id = some turn → turn.itemIds = some rest → Loaded w id rest
  completed : ∀ bundle ∈ w.bundles, bundle.status = .completed → Done [] bundle.items

/-- The bundles stay as they are. -/
theorem Progress.same (hp : Progress tools w) (hbundles : w'.bundles = w.bundles)
    (hturns : ∀ id turn rest, w'.turn id = some turn → turn.itemIds = some rest →
      w.turn id = some turn ∨ Loaded w id rest) : Progress tools w' where
  sound := hbundles ▸ hp.sound
  loaded id turn rest hturn hrest := by
    have hloaded : Loaded w id rest := by
      rcases hturns id turn rest hturn hrest with hturn | hloaded
      · exact hp.loaded id turn rest hturn hrest
      · exact hloaded
    rw [Loaded, World.bundle, hbundles]
    exact hloaded
  completed := hbundles ▸ hp.completed

/-- One bundle is saved, and the turns of the others stay. -/
theorem Progress.put (hp : Progress tools w) {old new : Bundle η}
    (hfound : w.bundle new.id = some old) (hfollows : Follows tools old new)
    (hbundles : w'.bundles = replace Bundle.id w.bundles new)
    (hcompleted : new.status = .completed → Done [] new.items)
    (hturns : ∀ id turn rest, w'.turn id = some turn → turn.itemIds = some rest →
      if id = new.id then new.phase = .apply ∧ Done rest new.items else w.turn id = some turn) :
    Progress tools w' where
  sound := (bundles_replaced hp.sound hfound hfollows hbundles).1
  loaded id turn rest hturn hrest := by
    have hloaded := hturns id turn rest hturn hrest
    rw [Loaded, World.bundle, hbundles]
    split at hloaded
    · rename_i hid
      subst hid
      exact ⟨new, lookup_replace_self hfound, hloaded⟩
    · rename_i hid
      obtain ⟨bundle, hbundle, hdone⟩ := hp.loaded id turn rest hloaded hrest
      exact ⟨bundle, (lookup_replace_ne (Ne.symm hid)).trans hbundle, hdone⟩
  completed bundle hbundle hstatus := by
    rw [hbundles] at hbundle
    rcases mem_replace hbundle with rfl | hbundle
    · exact hcompleted hstatus
    · exact hp.completed bundle hbundle hstatus

theorem World.turn_leave {id id' : UUID} {turn : Turn} (h : (w.leave id).turn id' = some turn) :
    id ≠ id' ∧ w.turn id' = some turn := by
  rw [World.turn, World.leave, lookup_remove] at h
  split at h
  · cases h
  · exact ⟨‹_›, h⟩

theorem World.turn_putTurn {id : UUID} {new turn : Turn} (h : (w.putTurn new).turn id = some turn) :
    (new.bundleId = id ∧ turn = new) ∨ (new.bundleId ≠ id ∧ w.turn id = some turn) := by
  rw [World.turn, World.putTurn, lookup_replace] at h
  split at h
  · obtain ⟨_, -, rfl⟩ := Option.map_eq_some_iff.mp h
    exact Or.inl ⟨‹_›, rfl⟩
  · exact Or.inr ⟨‹_›, h⟩

/-- A bundle is saved whose confirmed items stay, and no turn begins. -/
theorem Progress.put_items (hp : Progress tools w) {old new : Bundle η}
    (hfound : w.bundle old.id = some old) (hfollows : Follows tools old new)
    (hitems : old.phase = .apply → new.items = old.items)
    (hbundles : w'.bundles = replace Bundle.id w.bundles new)
    (hcompleted : new.status = .completed → Done [] new.items)
    (hturns : ∀ id turn, w'.turn id = some turn → w.turn id = some turn) : Progress tools w' := by
  refine hp.put (hfollows.id.symm ▸ hfound) hfollows hbundles hcompleted
    fun id turn rest hturn hrest => ?_
  have hturn := hturns id turn hturn
  split
  · rename_i hid
    obtain ⟨bundle, hbundle, hphase, hdone⟩ := hp.loaded id turn rest hturn hrest
    rw [hid, hfollows.id, hfound] at hbundle
    obtain rfl := Option.some.inj hbundle
    rw [hitems hphase]
    exact ⟨(hfollows.kept (hp.sound old (mem_of_lookup hfound))).phase hphase, hdone⟩
  · exact hturn

theorem Progress.created (hp : Progress tools w) {bundle : Bundle η}
    (hsound : Sound tools bundle) (hitems : bundle.items = [])
    (hbundles : w'.bundles = w.bundles ++ [bundle]) (hturns : w'.turns = w.turns) :
    Progress tools w' where
  sound old hold := by
    rw [hbundles, List.mem_append, List.mem_singleton] at hold
    rcases hold with hold | rfl
    · exact hp.sound old hold
    · exact hsound
  loaded id turn rest hturn hrest := by
    rw [World.turn, hturns] at hturn
    obtain ⟨old, hold, hloaded⟩ := hp.loaded id turn rest hturn hrest
    refine ⟨old, ?_, hloaded⟩
    rw [World.bundle, hbundles, lookup_append_of_isSome]
    · exact hold
    · rw [← World.bundle, hold]
      rfl
  completed old hold hstatus := by
    rw [hbundles, List.mem_append, List.mem_singleton] at hold
    rcases hold with hold | rfl
    · exact hp.completed old hold hstatus
    · rw [hitems]
      exact List.forall_mem_nil _

/-- The first item that is left is finished. -/
theorem Done.tail {rest : List UUID} {items : List LegacyItem} {item : LegacyItem} {itemId : UUID}
    (h : Done (itemId :: rest) items) (hids : (items.map LegacyItem.id).Nodup)
    (hitem : lookup LegacyItem.id items itemId = some item)
    (hfinished : item.status.finished = true) : Done rest items := by
  intro other hother
  rcases h other hother with hleft | hdone
  · rcases List.mem_cons.mp hleft with hid | hleft
    · have hfound := lookup_of_mem hids hother
      rw [hid, hitem] at hfound
      obtain rfl := Option.some.inj hfound
      exact Or.inr hfinished
    · exact Or.inl hleft
  · exact Or.inr hdone

/-- The first item that is left is saved as finished. -/
theorem Done.replace {rest : List UUID} {items : List LegacyItem} {item : LegacyItem}
    (h : Done (item.id :: rest) items) (hfinished : item.status.finished = true) :
    Done rest (replace LegacyItem.id items item) := by
  intro row hrow
  obtain ⟨old, hold, rfl⟩ := List.mem_map.mp hrow
  split
  · exact Or.inr hfinished
  · rename_i hid
    rcases h old hold with hleft | hdone
    · exact Or.inl (List.mem_of_ne_of_mem hid hleft)
    · exact Or.inr hdone

/-- An item does not end its bundle. -/
theorem job_status {job job' : LegacyBundle} {event : Legacy.Event} {now : Time}
    (hevent : event = .item now ∨ event = .backpressure now)
    (h : Legacy.step job event = some job') : job'.status ≠ .completed := by
  rcases hevent with rfl | rfl <;> simp only [Legacy.step] at h <;> split at h <;> cases h <;>
    simp_all

/-- The first item that is left is tried. -/
theorem Progress.tried (hp : Progress tools w) {turn : Turn} {bundle : Bundle η}
    {job : LegacyBundle} {item : LegacyItem} {rest : List UUID} {now : Time} (item' : LegacyItem)
    (hturn : w.turn bundle.id = some turn) (hfound : w.bundle bundle.id = some bundle)
    (hitems : turn.itemIds = some (item'.id :: rest))
    (hjob : Legacy.step bundle.toLegacyBundle (.item now) = some job)
    (hold : bundle.item item'.id = some item) (hline : item'.line = item.line)
    (hfinished : item'.status.finished = true)
    (hbundles : w'.bundles = replace Bundle.id w.bundles
      (({ bundle with toLegacyBundle := job } : Bundle η).put item'))
    (hturns : w'.turns = replace Turn.bundleId w.turns { turn with itemIds := some rest }) :
    Progress tools w' := by
  have hid : turn.bundleId = bundle.id := key_of_lookup hturn
  obtain ⟨_, hsame, hphase, hdone⟩ := hp.loaded bundle.id turn _ hturn hitems
  obtain rfl := Option.some.inj (hfound.symm.trans hsame)
  have hstatus := job_status (Or.inl rfl) hjob
  have hkept := (job_step hjob (by simp)).1
  have hfollows : Follows tools bundle
      (({ bundle with toLegacyBundle := job } : Bundle η).put item') :=
    .item item' hjob (by simp) hold hline
  refine hp.put (hfollows.id.symm ▸ hfound) hfollows hbundles
    (fun hcompleted => absurd hcompleted hstatus) fun id next left hnext hleft => ?_
  have hnext : (w.putTurn { turn with itemIds := some rest }).turn id = some next := by
    rw [World.turn, hturns] at hnext
    exact hnext
  rcases World.turn_putTurn hnext with ⟨hnow, rfl⟩ | ⟨hother, hnext⟩
  · obtain rfl := Option.some.inj hleft
    refine (if_pos (hnow.symm.trans hid)).mpr ?_
    exact ⟨hkept.trans hphase, hdone.replace hfinished⟩
  · exact (if_neg fun hnow => hother (hid.trans hnow.symm)).mpr hnext

variable [DecidableEq η]

theorem Progress.runItem (hp : Progress tools w) {turn : Turn} {bundle : Bundle η} {pending : Nat}
    {run : ItemRun} (hturn : w.turn bundle.id = some turn)
    (hfound : w.bundle bundle.id = some bundle)
    (h : runItem tools w turn bundle pending run = some w') : Progress tools w' := by
  have hid : turn.bundleId = bundle.id := key_of_lookup hturn
  unfold Bundles.runItem at h
  split at h
  · rename_i itemId rest hitems
    obtain ⟨_, hsame, hphase, hdone⟩ := hp.loaded bundle.id turn _ hturn hitems
    obtain rfl := Option.some.inj (hfound.symm.trans hsame)
    have hsound := hp.sound bundle (mem_of_lookup hfound)
    split at h
    · cases h
      exact hp.same rfl fun id _ _ hleft _ => Or.inl (World.turn_leave hleft).2
    · obtain ⟨item, hitem, h⟩ := Option.bind_eq_some_iff.mp h
      simp only at h
      split at h
      · rename_i hfinished
        cases h
        refine hp.same rfl fun id next left hnext hleft => ?_
        rcases World.turn_putTurn hnext with ⟨hnow, rfl⟩ | ⟨-, hother⟩
        · obtain rfl := Option.some.inj hleft
          obtain rfl := hid.symm.trans hnow
          exact Or.inr ⟨bundle, hfound, hphase, hdone.tail hsound.ids hitem hfinished⟩
        · exact Or.inl hother
      · split at h
        · obtain ⟨next, hnext, rfl⟩ := Option.map_eq_some_iff.mp h
          obtain ⟨job, hjob, rfl⟩ := proceed_eq_ok (toOption_eq_some.mp hnext)
          exact hp.put_items hfound (.of_step hjob (by simp)) (fun _ => rfl) rfl
            (fun hcompleted => absurd hcompleted (job_status (Or.inr rfl) hjob))
            fun id _ hleft => (World.turn_leave hleft).2
        · obtain ⟨next, hnext, rfl⟩ := Option.map_eq_some_iff.mp h
          obtain ⟨job, hjob, rfl⟩ := proceed_eq_ok (toOption_eq_some.mp hnext)
          obtain rfl : item.id = itemId := key_of_lookup hitem
          split
          · rename_i db' item' applied htried
            obtain ⟨hline, hsameId, -⟩ := applyItem_eq_ok htried
            exact hp.tried item' hturn hfound (hsameId.symm ▸ hitems) hjob (hsameId.symm ▸ hitem) hline
              (applyItem_finished htried) rfl rfl
          · exact hp.tried item.fail hturn hfound hitems hjob hitem rfl rfl rfl rfl
  · cases h

theorem Progress.perform (hp : Progress tools w) {work : Work} {turn : Turn} {bundle : Bundle η}
    (hturn : w.turn bundle.id = some turn) (hfound : w.bundle bundle.id = some bundle)
    (h : work.perform tools w turn bundle = some w') : Progress tools w' := by
  have hid : turn.bundleId = bundle.id := key_of_lookup hturn
  have hleave : ∀ id next rest, (w.leave turn.bundleId).turn id = some next →
      next.itemIds = some rest → w.turn id = some next ∨ Loaded w id rest :=
    fun id next rest hnext _ => Or.inl (World.turn_leave hnext).2
  cases work with
  | start => cases h
  | saveAnalysis analysis ids now =>
    change storeAnalysis tools w turn bundle analysis ids now = some w' at h
    unfold storeAnalysis at h
    split at h
    · cases h
    · split at h
      · rename_i hstatus
        obtain ⟨next, hnext, rfl⟩ := Option.map_eq_some_iff.mp h
        have hnext := toOption_eq_some.mp hnext
        have hfollows := saveAnalysis_follows hstatus hnext
        have hready := saveAnalysis_status hstatus hnext
        refine hp.put_items hfound hfollows (fun hphase => ?_) rfl
          (fun hcompleted => absurd hcompleted hready) fun id _ hleft => (World.turn_leave hleft).2
        have hpast := (hp.sound bundle (mem_of_lookup hfound)).past hphase
        rw [hstatus] at hpast
        cases hpast
      · cases h
        exact hp.same rfl hleave
  | load zipSha256 xlsxSha256 =>
    change checkPlan tools w turn bundle zipSha256 xlsxSha256 = some w' at h
    unfold checkPlan at h
    split at h
    · rename_i hplan
      cases h
      refine hp.same rfl fun id next rest hnext hrest => ?_
      rcases World.turn_putTurn hnext with ⟨hnow, rfl⟩ | ⟨-, hother⟩
      · obtain rfl := Option.some.inj hrest
        obtain rfl := hid.symm.trans hnow
        refine Or.inr ⟨bundle, hfound, ?_, fun item hitem => Or.inl (List.mem_map_of_mem hitem)⟩
        by_contra hphase
        have hnone := (hp.sound bundle (mem_of_lookup hfound)).unconfirmed hphase
        obtain ⟨-, -, -, -, -, -, hhash⟩ := hplan
        rw [hnone] at hhash
        cases hhash
      · exact Or.inl hother
    · cases h
  | item pending run => exact hp.runItem hturn hfound h
  | complete now =>
    change completeBundle w turn bundle now = some w' at h
    unfold completeBundle at h
    split at h
    · rename_i hitems
      split at h
      · obtain ⟨next, hnext, rfl⟩ := Option.map_eq_some_iff.mp h
        obtain ⟨job, hjob, rfl⟩ := proceed_eq_ok (toOption_eq_some.mp hnext)
        obtain ⟨_, hsame, -, hdone⟩ := hp.loaded bundle.id turn _ hturn hitems
        obtain rfl := Option.some.inj (hfound.symm.trans hsame)
        exact hp.put_items hfound (.of_step hjob (by simp)) (fun _ => rfl) rfl (fun _ => hdone)
          fun id _ hleft => (World.turn_leave hleft).2
      · cases h
        exact hp.same rfl hleave
    · cases h
  | fail code now =>
    change failBundle w bundle code now = some w' at h
    unfold failBundle at h
    split at h
    · rename_i hactive
      obtain ⟨next, hnext, rfl⟩ := Option.map_eq_some_iff.mp h
      obtain ⟨job, hjob, rfl⟩ := proceed_eq_ok (toOption_eq_some.mp hnext)
      have hstatus : job.status ≠ .completed := by
        simp only [Legacy.step, if_pos hactive] at hjob
        cases hjob
        simp
      exact hp.put_items hfound (.of_step hjob (by simp)) (fun _ => rfl) rfl
        (fun hcompleted => absurd hcompleted hstatus) fun id _ hleft => (World.turn_leave hleft).2
    · cases h
      rw [← hid]
      exact hp.same rfl hleave
  | crash =>
    cases h
    exact hp.same rfl hleave

/-- A bundle is not retried while its worker is at work. -/
def Unhurried (w : World η) (event : Event η) (_ : World η) : Prop :=
  match event with
  | .request id (.retry _) => w.turn id = none
  | _ => True

instance (w : World η) (event : Event η) (w' : World η) : Decidable (Unhurried w event w') := by
  unfold Unhurried
  split <;> infer_instance

/-- **Every step keeps the progress** of the turns, if a bundle that is retried has none. -/
theorem Progress.step (hp : Progress tools w) {event : Event η} (hretry : Unhurried w event w')
    (h : step tools w event = some w') : Progress tools w' := by
  cases event with
  | catalog event =>
    simp only [Bundles.step] at h
    split at h
    · obtain ⟨db, -, rfl⟩ := Option.map_eq_some_iff.mp h
      exact hp.same rfl fun _ _ _ hturn _ => Or.inl hturn
    · cases h
  | create id ownerId zipSize xlsxSize now =>
    simp only [Bundles.step] at h
    split at h
    · cases h
    · obtain ⟨bundle, hbundle, rfl⟩ := Option.map_eq_some_iff.mp h
      have hbundle := toOption_eq_some.mp hbundle
      obtain ⟨-, hsound⟩ := createBundle_sound tools hbundle
      refine hp.created hsound ?_ rfl rfl
      obtain ⟨-, hbundle⟩ := seq_eq_ok.mp hbundle
      obtain ⟨-, hbundle⟩ := seq_eq_ok.mp hbundle
      cases hbundle
      rfl
  | request id request =>
    obtain ⟨bundle, hbundle, h⟩ := Option.bind_eq_some_iff.mp h
    obtain ⟨next, hnext, rfl⟩ := Option.map_eq_some_iff.mp h
    have hnext := toOption_eq_some.mp hnext
    have hfound := World.found hbundle
    have hfollows := perform_follows hnext
    obtain rfl : bundle.id = id := key_of_lookup hbundle
    by_cases hrequest : ∀ now, request ≠ .retry now
    · obtain ⟨hitems, hstatus⟩ := perform_items hnext hrequest (hp.sound _ (mem_of_lookup hfound))
      exact hp.put_items hfound hfollows hitems rfl (fun hcompleted => absurd hcompleted hstatus)
        fun _ _ hturn => hturn
    · simp only [not_forall, not_not] at hrequest
      obtain ⟨now, rfl⟩ := hrequest
      have hnone : w.turn bundle.id = none := hretry
      refine hp.put (hfollows.id.symm ▸ hfound) hfollows rfl
        (fun hcompleted => absurd hcompleted (retry_status hnext)) fun id turn rest hturn _ => ?_
      split
      · rename_i hid
        have hsome : w.turn id = some turn := hturn
        rw [hid, hfollows.id, hnone] at hsome
        cases hsome
      · exact hturn
  | work id work =>
    cases work with
    | start =>
      obtain ⟨bundle, -, h⟩ := Option.bind_eq_some_iff.mp h
      split at h
      · cases h
        refine hp.same rfl fun id' turn rest hturn hrest => ?_
        rw [World.turn, lookup_append] at hturn
        rcases Option.or_eq_some_iff.mp hturn with hturn | ⟨-, hnew⟩
        · exact Or.inl hturn
        · split at hnew
          · obtain rfl := Option.some.inj hnew
            cases hrest
          · cases hnew
      · cases h
    | _ =>
      obtain ⟨bundle, hbundle, h⟩ := Option.bind_eq_some_iff.mp h
      obtain ⟨turn, hturn, hwork⟩ := Option.bind_eq_some_iff.mp h
      obtain rfl : bundle.id = id := key_of_lookup hbundle
      exact hp.perform hturn hbundle hwork
  | exhaust id =>
    obtain ⟨bundle, -, h⟩ := Option.bind_eq_some_iff.mp h
    split at h
    · cases h
      exact hp.same rfl fun _ _ _ hturn _ => Or.inl hturn
    · cases h
  | markFailed id now =>
    simp only [Bundles.step] at h
    split at h
    · obtain ⟨bundle, hbundle, rfl⟩ := Option.map_eq_some_iff.mp h
      exact hp.put_items (World.found hbundle) (exhausted_follows now) (fun _ => rfl) rfl
        (by simp [dispatchExhausted]) fun _ _ hturn => hturn
    · cases h

/-- **No item is left behind.** Over every run of administrators, workers that may stop anywhere,
and dispatchers, in which no bundle is retried while its worker is at work, a completed bundle has
no item left: each is applied, skipped, failed or waits for another review. -/
theorem completed_finished (hbundles : w.bundles = []) (hturns : w.turns = [])
    {es : List (Event η)} (hretry : Along (step tools) Unhurried w es)
    (h : run (step tools) w es = some w') {bundle : Bundle η} (hbundle : bundle ∈ w'.bundles)
    (hstatus : bundle.status = .completed) :
    ∀ item ∈ bundle.items, item.status.finished = true := by
  have hstart : Progress tools w :=
    { sound := by simp [hbundles]
      loaded := fun id turn rest hturn _ => by simp [World.turn, hturns, lookup] at hturn
      completed := by simp [hbundles] }
  have hp : Progress tools w' :=
    run_inv (fun _ _ _ hp hretry hstep => hp.step hretry hstep) hstart hretry h
  intro item hitem
  exact (hp.completed bundle hbundle hstatus item hitem).resolve_left List.not_mem_nil

end Turns

/-- The worker of the sensor ends its turn. -/
def completedRun : List (Event Hash) := sensorRun ++ [.work 50 (.complete 8)]

def completedWorld : World Hash :=
  (run (step plainTools) plainWorld completedRun).getD plainWorld

theorem completed_finished_sensor :
    (completedWorld.bundle 50).map (·.status) = some .completed ∧
      ∀ bundle ∈ completedWorld.bundles, bundle.status = .completed →
        ∀ item ∈ bundle.items, item.status.finished = true := by
  have hrun : run (step plainTools) plainWorld completedRun = some completedWorld := by
    decide +kernel
  have hretry : Along (step plainTools) Unhurried plainWorld completedRun := by decide +kernel
  exact ⟨by decide +kernel, fun _ => completed_finished rfl rfl hretry hrun⟩

/-- The category is closed before the item, which fails; the dispatcher gives the bundle up, an
administrator retries it, and the worker that was there all the time ends its turn. -/
def hurriedRun : List (Event Hash) :=
  sensorRun.dropLast ++
    [.catalog (.deactivateCategory 1), .work 50 (.item 0 ⟨[], [], 70, 6, 7⟩), .exhaust 50,
     .markFailed 50 8, .request 50 (.retry 9), .work 50 (.complete 10)]

/-- **An item can be left behind.** The bundle is completed with its item planned, and it cannot be
retried. -/
theorem left_behind :
    ∃ w, run (step plainTools) plainWorld hurriedRun = some w ∧
      (w.bundle 50).map (fun bundle => (bundle.status, bundle.items.map LegacyItem.status)) =
        some (.completed, [.planned]) ∧
      step plainTools w (.request 50 (.retry 11)) = none := by
  have hsome : (run (step plainTools) plainWorld hurriedRun).isSome := by decide +kernel
  exact ⟨_, (Option.some_get hsome).symm, by decide +kernel +revert, by decide +kernel +revert⟩

end ComponentKb.Legacy.Bundles
