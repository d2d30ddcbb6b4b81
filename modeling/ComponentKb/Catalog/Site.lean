import ComponentKb.Catalog.Shelf
import ComponentKb.Media.Worker

/-!
# The catalog and the processing of its media

The system of `World.lean`, with the upload of each asset followed on: its confirmation
(`confirm_upload`), the workers at its job, the manual retry, the dispatcher and the retention, one
transaction at a time. The steps at one job are those of `Media/Worker.lean`, on the row of the
asset that the catalog has.

* `Media.step_asset`: what a step at a job makes of the asset.
* `siteStep_change`: a step is a transaction of the catalog, or works at one asset.
* `siteStep_distinct`: no asset is lost, doubled or given to two cards, in any interleaving.
-/

namespace ComponentKb.Media

open ComponentKb.Lib

/-! ## What a step at a job makes of the asset -/

/-- The event may bring back an asset that was rejected: the manual retry, and a worker that ends
its turn with a result although it has lost its lease. -/
def Event.revives (s : State) : Event → Bool
  | .complete worker processed _ =>
    (s.turns worker).isSome && !processed.variants.any (· ∈ s.variants)
  | .retry _ => s.row.1.status = .failed
  | _ => false

/-- The time that an event reads from the clock. -/
def Event.time : Event → Time
  | .claim _ now _ => now
  | .progress _ _ _ now => now
  | .complete _ _ now => now
  | .reject _ _ now => now
  | .fail _ now => now
  | .retry now => now
  | .failMedia now => now
  | .markEnqueued now => now
  | .clean _ _ now => now

/-- What no step changes. -/
structure SameUpload (a b : MediaAsset) : Prop where
  kind : b.kind = a.kind
  uploadExpiresAt : b.uploadExpiresAt = a.uploadExpiresAt

/-- The asset is left in its status, or rejected. -/
structure Declines (a b : MediaAsset) : Prop extends SameUpload a b where
  status : b.status = a.status ∨ b.status = .rejected

theorem SameUpload.refl (a : MediaAsset) : SameUpload a a := ⟨rfl, rfl⟩

theorem Declines.refl (a : MediaAsset) : Declines a a := ⟨.refl a, Or.inl rfl⟩

theorem SameUpload.transact {copy stored : Pair} {f : Pair → Pair}
    (h : SameUpload copy.2 (f copy).2) :
    SameUpload stored.2 (transact (some copy) f stored).stored.2 := by
  rcases transact_stored_eq_or (some copy) f stored with hsame | hwritten
  · rw [hsame]
    exact .refl _
  · rw [hwritten]
    have hkind : column copy.2.kind (f copy).2.kind stored.2.kind = stored.2.kind := by
      rw [h.kind, column_unchanged]
    have hexpires : column copy.2.uploadExpiresAt (f copy).2.uploadExpiresAt
        stored.2.uploadExpiresAt = stored.2.uploadExpiresAt := by
      rw [h.uploadExpiresAt, column_unchanged]
    exact ⟨hkind, hexpires⟩

/-- A column that keeps its value or becomes `rejected` does so in the row. -/
theorem Declines.transact {copy stored : Pair} {f : Pair → Pair} (h : Declines copy.2 (f copy).2) :
    Declines stored.2 (transact (some copy) f stored).stored.2 := by
  refine ⟨h.toSameUpload.transact, ?_⟩
  rcases transact_columns copy f stored with hsame | ⟨-, -, hstatus⟩
  · rw [hsame]
    exact Or.inl rfl
  · rw [hstatus]
    rcases h.status with hkept | hrejected
    · rw [hkept, column_unchanged]
      exact Or.inl rfl
    · rw [hrejected]
      exact column_eq_or

theorem SameUpload.commit {s : State} {f : Pair → Pair} (h : SameUpload s.row.2 (f s.row).2) :
    SameUpload s.row.2 (s.commit f).row.2 := by
  rcases commit_row s f with hrow | hrow <;> rw [hrow]
  · exact .refl _
  · exact h

theorem Declines.commit {s : State} {f : Pair → Pair} (h : Declines s.row.2 (f s.row).2) :
    Declines s.row.2 (s.commit f).row.2 := by
  rcases commit_row s f with hrow | hrow <;> rw [hrow]
  · exact .refl _
  · exact h

theorem claimJob_declines {now : Time} {lease : Nat} {row row' : Pair}
    (h : claimJob now lease row = .claimed row' ∨ claimJob now lease row = .exhausted row') :
    Declines row.2 row'.2 := by
  rcases h with h | h
  · rw [(claimJob_eq_claimed h).2.2.2]
    exact .refl _
  · refine ⟨?_, Or.inr (claimJob_eq_exhausted h).2.2⟩
    unfold claimJob at h
    simp only at h
    split at h
    · cases h
    · split at h
      · cases h
      · split at h
        · cases h
        · split at h
          · obtain rfl := Claim.exhausted.inj h
            exact ⟨rfl, rfl⟩
          · cases h

theorem recordStorageFailure_declines (now : Time) (row : Pair) :
    Declines row.2 (recordStorageFailure now row).2 := by
  unfold recordStorageFailure
  simp only
  split
  · exact ⟨⟨rfl, rfl⟩, Or.inr rfl⟩
  · exact .refl _

theorem failMedia_declines (now : Time) (row : Pair) : Declines row.2 (failMedia now row).2 := by
  unfold failMedia
  simp only
  split
  · exact ⟨⟨rfl, rfl⟩, Or.inr rfl⟩
  · exact .refl _

theorem markStorageCleaned_declines (reason : String) (now : Time) (row : Pair) :
    Declines row.2 (markStorageCleaned reason now row).2 := by
  unfold markStorageCleaned
  simp only
  split
  · exact ⟨⟨rfl, rfl⟩, Or.inr rfl⟩
  · exact ⟨⟨rfl, rfl⟩, Or.inl rfl⟩

theorem completeJob_same (processed : Processed) (now : Time) (row : Pair) :
    SameUpload row.2 (completeJob processed now row).2 := by
  cases processed <;> exact ⟨rfl, rfl⟩

theorem prepareManualRetry_same {now : Time} {row row' : Pair} {reset : Bool}
    (h : prepareManualRetry now row = some (row', reset)) : SameUpload row.2 row'.2 := by
  unfold prepareManualRetry at h
  simp only at h
  split at h
  · obtain ⟨rfl, -⟩ := Prod.mk.inj (Option.some.inj h)
    exact .refl _
  · split at h
    · cases h
    · split at h
      · cases h
      · obtain ⟨rfl, -⟩ := Prod.mk.inj (Option.some.inj h)
        exact ⟨rfl, rfl⟩

/-- **A step at a job leaves the asset in its status or rejects it, or it is one of those that may
bring it back.** -/
theorem step_asset {s s' : State} {e : Event} (h : step s e = some s') :
    SameUpload s.row.2 s'.row.2 ∧
      (s'.row.2.status = s.row.2.status ∨ s'.row.2.status = .rejected ∨ e.revives s) := by
  have hdeclines : Declines s.row.2 s'.row.2 → SameUpload s.row.2 s'.row.2 ∧
      (s'.row.2.status = s.row.2.status ∨ s'.row.2.status = .rejected ∨ e.revives s) :=
    fun hd => ⟨hd.toSameUpload, hd.status.imp_right Or.inl⟩
  cases e with
  | claim worker now lease =>
    refine hdeclines ?_
    simp only [step] at h
    split at h
    · cases h
      unfold claimStep
      split
      · exact .refl _
      · rename_i row hrow
        exact (claimJob_declines (Or.inr hrow)).commit (f := fun _ => row)
      · rename_i row hrow
        exact (claimJob_declines (Or.inl hrow)).commit (f := fun _ => row)
    · cases h
  | progress worker phase percent now =>
    refine hdeclines ?_
    simp only [step] at h
    split at h
    · rename_i copy hcopy
      split at h
      · cases h
        exact Declines.transact (f := updateJobProgress phase percent now) (.refl _)
      · cases h
    · cases h
  | complete worker processed now =>
    obtain ⟨copy, hcopy, rfl⟩ := Option.map_eq_some_iff.mp h
    unfold completeStep
    split
    · exact ⟨.refl _, Or.inl rfl⟩
    · rename_i hnew
      refine ⟨SameUpload.transact (completeJob_same processed now copy), Or.inr (Or.inr ?_)⟩
      simp [Event.revives, hcopy, hnew]
  | reject worker code now =>
    obtain ⟨copy, hcopy, rfl⟩ := Option.map_eq_some_iff.mp h
    exact hdeclines (Declines.transact (f := rejectJob code now) ⟨⟨rfl, rfl⟩, Or.inr rfl⟩)
  | fail worker now =>
    obtain ⟨copy, hcopy, rfl⟩ := Option.map_eq_some_iff.mp h
    exact hdeclines (Declines.transact (recordStorageFailure_declines now copy))
  | retry now =>
    obtain ⟨⟨row, reset⟩, hrow, rfl⟩ := Option.map_eq_some_iff.mp h
    refine ⟨(prepareManualRetry_same hrow).commit (f := fun _ => row), ?_⟩
    rcases prepareManualRetry_eq_some hrow with ⟨-, rfl⟩ | ⟨hfailed, -⟩
    · rcases commit_row s fun _ => s.row with hsame | hsame <;> rw [hsame] <;> exact Or.inl rfl
    · exact Or.inr (Or.inr (decide_eq_true hfailed))
  | failMedia now =>
    cases h
    exact hdeclines (failMedia_declines now s.row).commit
  | markEnqueued now =>
    cases h
    exact hdeclines (Declines.commit (f := markEnqueued now) (.refl _))
  | clean cutoff reason now =>
    simp only [step] at h
    split at h
    · cases h
      exact hdeclines (markStorageCleaned_declines reason now s.row).commit
    · cases h

end ComponentKb.Media

namespace ComponentKb.Catalog

open ComponentKb.Lib

/-! ## The system -/

structure SiteEnv extends Env where
  mediaJobMaxAttempts : Nat

/-- The job of an asset, and the copies of the workers at it. -/
structure Work where
  job : Media.MediaJob
  turns : Nat → Option Media.Pair

/-- The tables of the catalog and of its media, the copies of the assets that requests have read
before they confirm them, and the latest time that a committed transaction has read. -/
structure Site where
  db : Db
  work : UUID → Option Work
  visits : Nat → Option (UUID × Media.MediaAsset)
  clock : Time

inductive SiteEvent where
  | catalog (event : Event)
  | visit (request : Nat) (assetId : UUID)
  | confirm (request : Nat) (size : Nat) (now : Time)
  | media (assetId : UUID) (event : Media.Event) (stored : List MediaVariant)
  | clean (assetId : UUID) (cutoff : Time) (reason : String) (now : Time)

/-- The row of an asset, wherever it is. -/
def Db.asset (db : Db) (id : UUID) : Option MediaAsset := lookup MediaAsset.id db.assets id

/-- An `UPDATE` of one asset, wherever it is. -/
def Db.putAsset (db : Db) (asset : MediaAsset) : Db :=
  { db with
    uploads := replace MediaAsset.id db.uploads asset
    cards := db.cards.map fun card =>
      { card with assets := replace MediaAsset.id card.assets asset } }

/-- `_reject_pending`. -/
def rejectPending (code : String) (now : Time) (asset : Media.MediaAsset) : Media.MediaAsset :=
  { asset with status := .rejected, failureCode := some code, updatedAt := now }

/-- `confirm_upload`, once the asset is found: what becomes of it, and whether a job is started;
`none` is `media_state_conflict`. -/
def confirmUpload (size declaredSizeBytes : Nat) (now : Time) (asset : Media.MediaAsset) :
    Option (Media.MediaAsset × Bool) :=
  if asset.status = .processing then some (asset, false)
  else if asset.status ≠ .pending then none
  else if asset.uploadExpiresAt ≤ now then some (rejectPending "upload_expired" now asset, false)
  else if size ≠ declaredSizeBytes ∨ ¬ (0 < size ∧ size ≤ asset.kind.maxBytes) then
    some (rejectPending "uploaded_size_mismatch" now asset, false)
  else some ({ asset with status := .processing, updatedAt := now }, true)

/-- The job that `start_processing` adds. -/
def startedWork (maxAttempts : Nat) (now : Time) (asset : Media.MediaAsset) : Work :=
  ⟨(Media.startProcessing asset maxAttempts now).1, fun _ => none⟩

/-- One asset as the workers at it see it. -/
def Work.state (work : Work) (asset : MediaAsset) : Media.State :=
  ⟨(work.job, asset.toMediaAsset), asset.variants.map MediaVariant.name, work.turns⟩

/-- What the retention makes of an upload without a job. -/
def cleaned (reason : String) (now : Time) (asset : Media.MediaAsset) : Media.MediaAsset :=
  let asset :=
    if asset.status = .pending then
      { asset with status := .rejected, failureCode := some reason }
    else asset
  { asset with storageCleanedAt := some now, updatedAt := now }

/-- With a job it is the same. -/
theorem markStorageCleaned_eq (reason : String) (now : Time) (row : Media.Pair) :
    (Media.markStorageCleaned reason now row).2 = cleaned reason now row.2 := rfl

/-- The jobs that are there once a transaction of the catalog is done: the images of a legacy item
have theirs from the start. -/
def Event.started (env : SiteEnv) (db : Db) (event : Event) (work : UUID → Option Work) :
    UUID → Option Work :=
  match event with
  | .applyItem _ _ _ images _ _ _ now _ => fun id =>
    if id ∈ images.map LegacyImage.assetId then
      (db.asset id).map fun asset => startedWork env.mediaJobMaxAttempts now asset.toMediaAsset
    else work id
  | _ => work

/-- A transaction of the catalog; assets are processed by the other events. -/
def catalogStep (env : SiteEnv) (s : Site) (event : Event) : Option Site :=
  if event.processes ∨ ¬ event.newAssets.Nodup then none
  else (step env.toEnv s.db event).map fun db =>
    { s with
      db := db
      work := event.started env db s.work
      clock := event.times.foldl max s.clock }

/-- The confirmation of an upload, over the copy of the asset that `visible_asset` has left in the
session of the request. -/
def confirmStep (env : SiteEnv) (s : Site) (request size : Nat) (now : Time) : Option Site :=
  (s.visits request).bind fun (id, copy) =>
    (s.db.asset id).bind fun asset =>
      (confirmUpload size asset.declaredSizeBytes now copy).bind fun (written, started) =>
        let done := transact (some copy) (fun _ => written) asset.toMediaAsset
        -- `idempotency_key` of `media_jobs` is unique
        if done.copy.isNone ∨ (started ∧ (s.work id).isSome) then none
        else
          some { db := s.db.putAsset (asset.processed done.stored asset.variants)
                 work :=
                   if started then
                     Function.update s.work id
                       (some (startedWork env.mediaJobMaxAttempts now copy))
                   else s.work
                 visits := Function.update s.visits request none
                 clock := max s.clock now }

/-- A transaction at the job of an asset; `stored` are the variants that come with a result. -/
def mediaStep (s : Site) (id : UUID) (event : Media.Event) (stored : List MediaVariant) :
    Option Site :=
  (s.work id).bind fun work =>
    (s.db.asset id).bind fun asset =>
      (Media.step (work.state asset) event).bind fun t =>
        if (asset.variants ++ stored).map MediaVariant.name = t.variants then
          some { s with
            db := s.db.putAsset (asset.processed t.row.2 (asset.variants ++ stored))
            work := Function.update s.work id (some ⟨t.row.1, t.turns⟩)
            clock := max s.clock event.time }
        else none

/-- The retention of an upload that was never confirmed. -/
def cleanStep (s : Site) (id : UUID) (cutoff : Time) (reason : String) (now : Time) :
    Option Site :=
  (s.db.asset id).bind fun asset =>
    if (s.work id).isNone ∧ Media.retentionCandidate cutoff asset.toMediaAsset then
      let done := transact none (cleaned reason now) asset.toMediaAsset
      some { s with
        db := s.db.putAsset (asset.processed done.stored asset.variants)
        clock := max s.clock now }
    else none

def siteStep (env : SiteEnv) (s : Site) : SiteEvent → Option Site
  | .catalog event => catalogStep env s event
  | .visit request id =>
    (s.db.asset id).map fun asset =>
      { s with visits := Function.update s.visits request (some (id, asset.toMediaAsset)) }
  | .confirm request size now => confirmStep env s request size now
  | .media id event stored => mediaStep s id event stored
  | .clean id cutoff reason now => cleanStep s id cutoff reason now

/-- The asset that an event may bring back to those that are processed or shown: an upload whose
confirmation starts its job, a failed one that is retried, or one whose worker ends its turn with a
result after others have ended the job. -/
def SiteEvent.revived (s : Site) : SiteEvent → Option UUID
  | .confirm request size now =>
    (s.visits request).bind fun (id, copy) =>
      (s.db.asset id).bind fun asset =>
        (confirmUpload size asset.declaredSizeBytes now copy).bind fun (_, started) =>
          if started ∧ (s.work id).isNone then some id else none
  | .media id event _ =>
    (s.work id).bind fun work =>
      (s.db.asset id).bind fun asset =>
        if event.revives (work.state asset) then some id else none
  | _ => none

/-! ## What a step does to the assets -/

section Steps

variable {env : SiteEnv} {s s' : Site} {e : SiteEvent} {id : UUID} {asset : MediaAsset}

theorem Db.shelf_putAsset (db : Db) (new : MediaAsset) :
    (db.putAsset new).shelf = db.shelf.map fun a => if a.id = new.id then new else a := by
  unfold Db.shelf Db.putAsset Holdings.map replace
  rw [List.map_map, List.map_map]
  rfl

theorem Db.id_of_asset (h : s.db.asset id = some asset) : asset.id = id := key_of_lookup h

/-- What a step does to the assets. -/
inductive Change (env : SiteEnv) (e : SiteEvent) (s s' : Site) : Prop where
  | kept : s'.db = s.db → s.clock ≤ s'.clock → Change env e s s'
  | catalog {event : Event} :
      e = .catalog event → event.processes = false → event.newAssets.Nodup →
      step env.toEnv s.db event = some s'.db → s'.clock = event.times.foldl max s.clock →
      Change env e s s'
  | reworked {asset : MediaAsset} {result : Media.MediaAsset} {variants : List MediaVariant} :
      s.db.asset asset.id = some asset →
      s'.db = s.db.putAsset (asset.processed result variants) →
      Media.SameUpload asset.toMediaAsset result →
      (result.status = asset.status ∨ result.status = .rejected ∨
        e.revived s = some asset.id) → s.clock ≤ s'.clock → Change env e s s'

theorem confirmUpload_spec {size declared : Nat} {now : Time} {copy written : Media.MediaAsset}
    {started : Bool} (h : confirmUpload size declared now copy = some (written, started)) :
    Media.SameUpload copy written ∧
      (written.status = copy.status ∨ written.status = .rejected ∨ started = true) := by
  unfold confirmUpload at h
  split at h
  · cases h
    exact ⟨.refl _, Or.inl rfl⟩
  · split at h
    · cases h
    · split at h
      · cases h
        exact ⟨⟨rfl, rfl⟩, Or.inr (Or.inl rfl)⟩
      · split at h
        · cases h
          exact ⟨⟨rfl, rfl⟩, Or.inr (Or.inl rfl)⟩
        · cases h
          exact ⟨⟨rfl, rfl⟩, Or.inr (Or.inr rfl)⟩

/-- A write of one asset over a copy, as its columns. -/
theorem transact_asset {copy written : Media.MediaAsset} (stored : Media.MediaAsset)
    (h : Media.SameUpload copy written) :
    Media.SameUpload stored (transact (some copy) (fun _ => written) stored).stored ∧
      ((transact (some copy) (fun _ => written) stored).stored.status = stored.status ∨
        (transact (some copy) (fun _ => written) stored).stored.status =
          column copy.status written.status stored.status) := by
  rcases transact_stored_eq_or (some copy) (fun _ => written) stored with hsame | hwritten
  · rw [hsame]
    exact ⟨.refl _, Or.inl rfl⟩
  · rw [hwritten]
    have hkind : column copy.kind written.kind stored.kind = stored.kind := by
      rw [h.kind, column_unchanged]
    have hexpires : column copy.uploadExpiresAt written.uploadExpiresAt stored.uploadExpiresAt =
        stored.uploadExpiresAt := by
      rw [h.uploadExpiresAt, column_unchanged]
    exact ⟨⟨hkind, hexpires⟩, Or.inr rfl⟩

theorem confirmStep_change {request size : Nat} {now : Time}
    (h : confirmStep env s request size now = some s') :
    Change env (.confirm request size now) s s' := by
  obtain ⟨⟨id, copy⟩, hvisit, h⟩ := Option.bind_eq_some_iff.mp h
  obtain ⟨asset, hasset, h⟩ := Option.bind_eq_some_iff.mp h
  obtain ⟨⟨written, started⟩, hconfirm, h⟩ := Option.bind_eq_some_iff.mp h
  obtain ⟨hsame, hstatus⟩ := confirmUpload_spec hconfirm
  obtain ⟨hupload, hcolumn⟩ := transact_asset asset.toMediaAsset hsame
  obtain rfl := Db.id_of_asset hasset
  simp only at h
  split at h
  · cases h
  · rename_i hfree
    cases h
    refine .reworked hasset rfl hupload ?_ (le_max_left ..)
    rcases hcolumn with hkept | hcolumn
    · exact Or.inl hkept
    · rw [hcolumn]
      rcases hstatus with hkept | hrejected | hstarted
      · rw [hkept, column_unchanged]
        exact Or.inl rfl
      · rw [hrejected]
        exact column_eq_or.imp_right Or.inl
      · refine Or.inr (Or.inr ?_)
        have hnone : s.work asset.id = none :=
          Option.not_isSome_iff_eq_none.mp fun hsome => hfree (Or.inr ⟨hstarted, hsome⟩)
        simp [SiteEvent.revived, hvisit, hasset, hconfirm, hstarted, hnone]

theorem mediaStep_change {event : Media.Event} {stored : List MediaVariant}
    (h : mediaStep s id event stored = some s') : Change env (.media id event stored) s s' := by
  obtain ⟨work, hwork, h⟩ := Option.bind_eq_some_iff.mp h
  obtain ⟨asset, hasset, h⟩ := Option.bind_eq_some_iff.mp h
  obtain ⟨t, hstep, h⟩ := Option.bind_eq_some_iff.mp h
  obtain ⟨hupload, hstatus⟩ := Media.step_asset hstep
  obtain rfl := Db.id_of_asset hasset
  split at h
  · cases h
    refine .reworked hasset rfl hupload ?_ (le_max_left ..)
    refine hstatus.imp_right (Or.imp_right fun hrevives => ?_)
    simp [SiteEvent.revived, hwork, hasset, hrevives]
  · cases h

theorem cleanStep_change {cutoff now : Time} {reason : String}
    (h : cleanStep s id cutoff reason now = some s') :
    Change env (.clean id cutoff reason now) s s' := by
  obtain ⟨asset, hasset, h⟩ := Option.bind_eq_some_iff.mp h
  obtain rfl := Db.id_of_asset hasset
  split at h
  · cases h
    have hcleaned : Media.SameUpload asset.toMediaAsset (cleaned reason now asset.toMediaAsset) ∧
        ((cleaned reason now asset.toMediaAsset).status = asset.status ∨
          (cleaned reason now asset.toMediaAsset).status = .rejected) := by
      unfold cleaned
      simp only
      split
      · exact ⟨⟨rfl, rfl⟩, Or.inr rfl⟩
      · exact ⟨⟨rfl, rfl⟩, Or.inl rfl⟩
    refine .reworked hasset rfl ?_ ?_ (le_max_left ..)
    · rw [transact_none]
      split
      · exact hcleaned.1
      · exact .refl _
    · rw [transact_none]
      split
      · exact hcleaned.2.imp_right Or.inl
      · exact Or.inl rfl
  · cases h

/-- **A step is a transaction of the catalog, or works at one asset.** -/
theorem siteStep_change (h : siteStep env s e = some s') : Change env e s s' := by
  cases e with
  | catalog event =>
    simp only [siteStep, catalogStep] at h
    split at h
    · cases h
    · rename_i hallowed
      obtain ⟨db, hstep, rfl⟩ := Option.map_eq_some_iff.mp h
      obtain ⟨hprocesses, hnodup⟩ := not_or.mp hallowed
      exact .catalog rfl (Bool.eq_false_iff.mpr hprocesses) (Decidable.not_not.mp hnodup) hstep rfl
  | visit request id =>
    obtain ⟨asset, -, rfl⟩ := Option.map_eq_some_iff.mp h
    exact .kept rfl le_rfl
  | confirm request size now => exact confirmStep_change h
  | media id event stored => exact mediaStep_change h
  | clean id cutoff reason now => exact cleanStep_change h

/-- **No asset is lost, doubled or given to two cards**, in any interleaving. -/
theorem siteStep_distinct (hi : s.db.shelf.Distinct MediaAsset.id)
    (h : siteStep env s e = some s') :
    s'.db.shelf.Distinct MediaAsset.id := by
  cases siteStep_change h with
  | kept hdb =>
    rw [hdb]
    exact hi
  | catalog hevent hprocesses hnodup hstep =>
    refine (step_handles hi hprocesses hstep).distinct hi hnodup fun id hid hmem => ?_
    obtain ⟨hnew, -⟩ := step_eq_some hstep
    rw [Db.shelf_all] at hmem
    exact hnew (Or.inr ⟨id, hid, hmem⟩)
  | reworked hasset hdb =>
    rw [hdb, Db.shelf_putAsset]
    refine hi.map fun a => ?_
    split
    · rename_i heq
      exact heq.symm
    · rfl

end Steps

end ComponentKb.Catalog
