import ComponentKb.Catalog.Site
import ComponentKb.Media.Revive

/-!
# The confirmation of one upload

Any number of `confirm_upload` requests for one asset, each with a session of its own, among the
workers at its job, the manual retry, the dispatcher and the retention. `visible_asset` leaves a
copy of the row in the session of the request, and `lock_asset` does not refresh it: the request
answers by the copy and writes over the stored row.

* `confirm_idempotent`: one job and one intent at most; the confirmations of a live upload are
  answered with the job, and those of a finished one leave it alone, exactly when none of them is
  `misled` by its copy.
-/

namespace ComponentKb.Catalog

open ComponentKb.Lib

/-! ## The system -/

/-- `media_job_max_attempts`, with the bounds of the settings field. -/
structure MediaSettings where
  maxAttempts : Nat
  bounds : 2 ≤ maxAttempts ∧ maxAttempts ≤ 10

/-- One asset, the copies of the requests that have read it, and all media jobs and dispatch
intents that were ever added for it. -/
structure Upload where
  row : Media.MediaAsset
  declaredSizeBytes : Nat
  variants : List String
  work : Option Work
  visits : Nat → Option Media.MediaAsset
  jobs : List UUID
  intents : List UUID

/-- `metadata` is the size that `storage.stat` finds, `none` when it raises; `jobId` is the new
`uuid4`. -/
inductive UploadEvent where
  | visit (request : Nat)
  | confirm (request : Nat) (metadata : Option Nat) (now : Time) (jobId : UUID)
  | media (event : Media.Event)
  | clean (cutoff : Time) (reason : String) (now : Time)
  deriving DecidableEq, Repr

/-- How a confirmation ends. -/
inductive Answer where
  | job (id : UUID)
  | stateConflict
  | invalid (code : Option String)
  | storageUnavailable
  /-- A constraint refuses the flush: the transaction is rolled back. -/
  | integrityError
  deriving DecidableEq, Repr

/-- The confirmation of a request, over the copy in its session, and what it leaves of the
upload. -/
def confirmUpon (settings : MediaSettings) (s : Upload) (copy : Media.MediaAsset)
    (metadata : Option Nat) (now : Time) (jobId : UUID) : Answer × Upload :=
  if copy.status = .pending ∧ now < copy.uploadExpiresAt ∧ metadata = none then
    (.storageUnavailable, s)
  else
    match confirmUpload (metadata.getD 0) s.declaredSizeBytes now copy with
    | none => (.stateConflict, s)
    | some (written, started) =>
      let done := transact (some copy) (fun _ => written) s.row
      -- `idempotency_key` of `media_jobs` is unique
      if done.copy.isNone ∨ (started ∧ s.jobs ≠ []) then (.integrityError, s)
      else if started then
        (.job jobId,
          { s with
            row := done.stored
            work := some (startedWork settings.maxAttempts now copy)
            jobs := s.jobs ++ [jobId]
            intents := s.intents ++ [jobId] })
      else if written.status = .processing then
        (s.jobs.head?.elim .stateConflict .job, { s with row := done.stored })
      else (.invalid written.failureCode, { s with row := done.stored })

/-- The session of a request is closed. -/
def Upload.leave (s : Upload) (request : Nat) : Upload :=
  { s with visits := Function.update s.visits request none }

def uploadStep (settings : MediaSettings) (s : Upload) : UploadEvent → Option Upload
  | .visit request => some { s with visits := Function.update s.visits request (some s.row) }
  | .confirm request metadata now jobId =>
    (s.visits request).map fun copy =>
      (confirmUpon settings (s.leave request) copy metadata now jobId).2
  | .media event =>
    s.work.bind fun work =>
      (Media.step ⟨(work.job, s.row), s.variants, work.turns⟩ event).map fun t =>
        { s with row := t.row.2, variants := t.variants, work := some ⟨t.row.1, t.turns⟩ }
  | .clean cutoff reason now =>
    if s.work.isNone ∧ Media.retentionCandidate cutoff s.row then
      some { s with row := (transact none (cleaned reason now) s.row).stored }
    else none

/-- The answer to a confirmation. -/
def UploadEvent.answer (settings : MediaSettings) (s : Upload) : UploadEvent → Option Answer
  | .confirm request metadata now jobId =>
    (s.visits request).map fun copy =>
      (confirmUpon settings (s.leave request) copy metadata now jobId).1
  | _ => none

def UploadEvent.confirms : UploadEvent → Bool
  | .confirm .. => true
  | _ => false

/-- The stored object is what was declared. -/
def Upload.Uploaded (s : Upload) (size : Nat) : Prop :=
  size = s.declaredSizeBytes ∧ 0 < size ∧ size ≤ s.row.kind.maxBytes

/-- An unexpired, correctly uploaded asset that is pending or processing. -/
structure Upload.Live (s : Upload) (size : Nat) (now : Time) : Prop where
  status : s.row.status = .pending ∨ s.row.status = .processing
  unexpired : now < s.row.uploadExpiresAt
  uploaded : s.Uploaded size

def Upload.finished (s : Upload) : Bool := s.row.status = .ready ∨ s.row.status = .rejected

/-- The confirmation of a live upload returns its job. -/
def Answers (settings : MediaSettings) (s : Upload) (e : UploadEvent) (s' : Upload) : Prop :=
  ∀ request size now jobId, e = .confirm request (some size) now jobId → s.Live size now →
    ∃ id, e.answer settings s = some (.job id) ∧ s'.jobs = [id]

/-- The confirmation of a finished upload leaves it alone. -/
def LeavesFinished (s : Upload) (e : UploadEvent) (s' : Upload) : Prop :=
  e.confirms → s.finished → s'.row = s.row

/-- **Confirmation is idempotent** along a run. -/
structure Idempotent (settings : MediaSettings) (s : Upload) (events : List UploadEvent) :
    Prop where
  single : Always (uploadStep settings) (fun t => t.jobs.length ≤ 1 ∧ t.intents = t.jobs ∧
    (t.row.status = .processing ∨ t.row.status = .ready → t.jobs.length = 1)) s events
  answered : Along (uploadStep settings) (Answers settings) s events
  unchanged : Along (uploadStep settings) LeavesFinished s events

/-! ## Where it fails -/

/-- The code a pending copy is rejected with. -/
def rejection (size : Option Nat) (declaredSizeBytes : Nat) (now : Time)
    (copy : Media.MediaAsset) : Option String :=
  if copy.uploadExpiresAt ≤ now then some "upload_expired"
  else size.bind fun size =>
    if size ≠ declaredSizeBytes ∨ ¬ (0 < size ∧ size ≤ copy.kind.maxBytes) then
      some "uploaded_size_mismatch"
    else none

/-- The copy no longer has the status of the row, and the confirmation turns a live upload away,
rejects a finished one, or starts one anew that was rejected before it had a job. -/
def Upload.misledBy (s : Upload) (metadata : Option Nat) (now : Time) (copy : Media.MediaAsset) :
    Bool :=
  copy.status ≠ s.row.status &&
    if s.finished then
      copy.status = .pending &&
        match rejection metadata s.declaredSizeBytes now copy with
        | some code =>
          s.row.status = .ready || s.row.failureCode ≠ some code ||
            (copy.updatedAt ≠ now && s.row.updatedAt ≠ now)
        | none => metadata.isSome && s.jobs = [] && s.row.storageCleanedAt.isNone
    else metadata.isSome && (rejection metadata s.declaredSizeBytes now s.row).isNone

def misled (s : Upload) : UploadEvent → Bool
  | .confirm request metadata now _ => (s.visits request).any (s.misledBy metadata now)
  | _ => false

/-! ## What a confirmation writes -/

section Writes

variable {settings : MediaSettings} {s : Upload} {copy row : Media.MediaAsset}
  {metadata : Option Nat} {now : Time} {jobId : UUID}

/-- A stored row after `_reject_pending` over a pending copy. -/
def rejectedRow (code : String) (now : Time) (copy row : Media.MediaAsset) : Media.MediaAsset :=
  { row with
    status := .rejected
    failureCode := some code
    updatedAt := column copy.updatedAt now row.updatedAt }

/-- A stored row after `start_processing` over a pending copy. -/
def startedRow (now : Time) (copy row : Media.MediaAsset) : Media.MediaAsset :=
  { row with status := .processing, updatedAt := column copy.updatedAt now row.updatedAt }

theorem flush_rejectPending (code : String) (hpending : copy.status = .pending)
    (hcode : copy.failureCode = none) :
    Mapped.flush copy (rejectPending code now copy) row = rejectedRow code now copy row := by
  have hstatus : column copy.status .rejected row.status = .rejected :=
    column_changed (by rw [hpending]; decide)
  have hfailure : column copy.failureCode (some code) row.failureCode = some code :=
    column_changed (by rw [hcode]; exact Option.some_ne_none code)
  simp only [Mapped.flush, rejectPending, column_unchanged, hstatus, hfailure, rejectedRow]

theorem flush_started (hpending : copy.status = .pending) :
    Mapped.flush copy { copy with status := .processing, updatedAt := now } row =
      startedRow now copy row := by
  have hstatus : column copy.status .processing row.status = .processing :=
    column_changed (by rw [hpending]; decide)
  simp only [Mapped.flush, column_unchanged, hstatus, startedRow]

theorem check_rejectedRow (code : String) (h : Mapped.check row = true) :
    Mapped.check (rejectedRow code now copy row) = true := by
  simp only [Mapped.check, Bool.and_eq_true] at h ⊢
  obtain ⟨⟨⟨hsize, -⟩, -⟩, -⟩ := h
  refine ⟨⟨⟨hsize, rfl⟩, rfl⟩, ?_⟩
  rw [rejectedRow]
  simp

/-- A row that the retention has cleaned may not be processed. -/
theorem check_startedRow (h : Mapped.check row = true) :
    Mapped.check (startedRow now copy row) = row.storageCleanedAt.isNone := by
  simp only [Mapped.check, Bool.and_eq_true] at h
  obtain ⟨⟨⟨hsize, -⟩, -⟩, -⟩ := h
  have hready : (startedRow now copy row).readyMetadata = true := rfl
  have hsize' : (startedRow now copy row).sizeBytes.all (fun n => decide (1 ≤ n) &&
      decide (n ≤ (startedRow now copy row).kind.maxBytes)) = true := hsize
  simp only [Mapped.check, hready, hsize']
  unfold startedRow
  cases row.storageCleanedAt <;> rfl

/-- The copy is processed: the job is looked up and nothing is written. -/
theorem confirmUpon_processing (hcheck : Mapped.check s.row = true)
    (h : copy.status = .processing) :
    confirmUpon settings s copy metadata now jobId =
      (s.jobs.head?.elim .stateConflict .job, s) := by
  have hdone : transact (some copy) (fun _ => copy) s.row = ⟨s.row, some copy⟩ := by
    simp only [transact, Option.getD_some, Mapped.flush_unchanged, hcheck, if_true]
  have hconfirm : confirmUpload (metadata.getD 0) s.declaredSizeBytes now copy =
      some (copy, false) := by rw [confirmUpload, if_pos h]
  simp [confirmUpon, hconfirm, hdone, h]

/-- The copy is finished: `media_state_conflict`. -/
theorem confirmUpon_finished (h : copy.status = .ready ∨ copy.status = .rejected) :
    confirmUpon settings s copy metadata now jobId = (.stateConflict, s) := by
  have hconfirm : confirmUpload (metadata.getD 0) s.declaredSizeBytes now copy = none := by
    rcases h with h | h <;> simp [confirmUpload, h]
  have hpending : copy.status ≠ .pending := by rcases h with h | h <;> rw [h] <;> decide
  simp [confirmUpon, hconfirm, hpending]

/-- A pending copy that is refused: the stored row is rejected, whatever it says by now. -/
theorem confirmUpon_refused (hcheck : Mapped.check s.row = true) (hpending : copy.status = .pending)
    (hcode : copy.failureCode = none) {code : String}
    (h : rejection metadata s.declaredSizeBytes now copy = some code) :
    confirmUpon settings s copy metadata now jobId =
      (.invalid (some code), { s with row := rejectedRow code now copy s.row }) := by
  have hdone : transact (some copy) (fun _ => rejectPending code now copy) s.row =
      ⟨rejectedRow code now copy s.row, some (rejectPending code now copy)⟩ := by
    simp only [transact, Option.getD_some, flush_rejectPending code hpending hcode,
      check_rejectedRow code hcheck, if_true]
  have hfirst : ¬(copy.status = .pending ∧ now < copy.uploadExpiresAt ∧ metadata = none) := by
    rintro ⟨-, hlt, rfl⟩
    rw [rejection, if_neg (not_le.mpr hlt)] at h
    exact absurd h (by simp)
  have hconfirm : confirmUpload (metadata.getD 0) s.declaredSizeBytes now copy =
      some (rejectPending code now copy, false) := by
    unfold rejection at h
    rw [confirmUpload, if_neg (by rw [hpending]; decide), if_neg (by simp [hpending])]
    by_cases hexpired : copy.uploadExpiresAt ≤ now
    · rw [if_pos hexpired] at h ⊢
      rw [Option.some.inj h]
    · rw [if_neg hexpired] at h ⊢
      obtain ⟨size, rfl, hsize⟩ := Option.bind_eq_some_iff.mp h
      split at hsize
      · rename_i hmismatch
        rw [Option.getD_some, if_pos hmismatch, Option.some.inj hsize]
      · exact absurd hsize (by simp)
  rw [confirmUpon, if_neg hfirst, hconfirm]
  simp only [hdone]
  simp [rejectPending]

/-- Without the size of the object there is no answer. -/
theorem confirmUpon_unavailable (hpending : copy.status = .pending)
    (hunexpired : now < copy.uploadExpiresAt) :
    confirmUpon settings s copy none now jobId = (.storageUnavailable, s) := by
  rw [confirmUpon, if_pos ⟨hpending, hunexpired, rfl⟩]

/-- A pending copy that is accepted: a job is added, unless there is one already or the stored row
was cleaned. -/
theorem confirmUpon_accepted (hcheck : Mapped.check s.row = true)
    (hpending : copy.status = .pending) {size : Nat}
    (h : rejection (some size) s.declaredSizeBytes now copy = none) :
    confirmUpon settings s copy (some size) now jobId =
      if s.row.storageCleanedAt.isNone ∧ s.jobs = [] then
        (.job jobId,
          { s with
            row := startedRow now copy s.row
            work := some (startedWork settings.maxAttempts now copy)
            jobs := [jobId]
            intents := s.intents ++ [jobId] })
      else (.integrityError, s) := by
  have hconfirm : confirmUpload size s.declaredSizeBytes now copy =
      some ({ copy with status := .processing, updatedAt := now }, true) := by
    unfold rejection at h
    rw [confirmUpload, if_neg (by rw [hpending]; decide), if_neg (by simp [hpending])]
    by_cases hexpired : copy.uploadExpiresAt ≤ now
    · rw [if_pos hexpired] at h
      exact absurd h (by simp)
    · rw [if_neg hexpired] at h ⊢
      rw [Option.bind_some] at h
      split at h
      · exact absurd h (by simp)
      · rename_i hmatch
        rw [if_neg hmatch]
  have hdone : transact (some copy)
      (fun _ => { copy with status := .processing, updatedAt := now }) s.row =
      if s.row.storageCleanedAt.isNone then
        ⟨startedRow now copy s.row, some { copy with status := .processing, updatedAt := now }⟩
      else ⟨s.row, none⟩ := by
    simp only [transact, Option.getD_some, flush_started hpending, check_startedRow hcheck]
  rw [confirmUpon, if_neg (by simp), Option.getD_some, hconfirm]
  simp only [hdone]
  cases hcleaned : s.row.storageCleanedAt with
  | none =>
    by_cases hjobs : s.jobs = []
    · simp [hjobs]
    · simp [hjobs]
  | some time => simp

end Writes

/-! ## What a run keeps -/

/-- The rows of an upload, and the copies of its row: a copy is of the same upload, and a row that
still says `pending` said so when it was copied. -/
structure Upload.Kept (s : Upload) : Prop where
  check : Mapped.check s.row = true
  job : ∀ work, s.work = some work → Mapped.check work.job = true
  jobs : s.jobs = [] ∧ s.work = none ∨ (∃ id, s.jobs = [id]) ∧ s.work.isSome
  intents : s.intents = s.jobs
  pending : s.row.status = .pending → s.jobs = [] ∧ s.row.failureCode = none
  live : s.row.status = .processing ∨ s.row.status = .ready → s.jobs ≠ []
  copies : ∀ request copy, s.visits request = some copy →
    Media.SameUpload copy s.row ∧ (s.row.status = .pending → copy.status = .pending) ∧
      (copy.status = .pending → copy.failureCode = none)

/-- A row that an upload may have after its row: the same upload, and pending only if it was. -/
structure Follows (old new : Media.MediaAsset) : Prop extends Media.SameUpload old new where
  pending : new.status = .pending → old.status = .pending

theorem Upload.Kept.copies_of_follows {s : Upload} (h : s.Kept) {row : Media.MediaAsset}
    (hrow : Follows s.row row) (request : Nat) (copy : Media.MediaAsset)
    (hcopy : s.visits request = some copy) :
    Media.SameUpload copy row ∧ (row.status = .pending → copy.status = .pending) ∧
      (copy.status = .pending → copy.failureCode = none) := by
  obtain ⟨hsame, hpending, hcode⟩ := h.copies request copy hcopy
  exact ⟨⟨hrow.kind.trans hsame.kind, hrow.uploadExpiresAt.trans hsame.uploadExpiresAt⟩,
    fun hnew => hpending (hrow.pending hnew), hcode⟩

theorem cleaned_status (reason : String) (now : Time) (asset : Media.MediaAsset) :
    (cleaned reason now asset).status =
      if asset.status = .pending then .rejected else asset.status := by
  unfold cleaned
  simp only
  split <;> rfl

theorem cleaned_follows (reason : String) (now : Time) (asset : Media.MediaAsset) :
    Follows asset (cleaned reason now asset) := by
  refine ⟨?_, fun hpending => ?_⟩
  · unfold cleaned
    simp only
    split <;> exact ⟨rfl, rfl⟩
  · rw [cleaned_status] at hpending
    split at hpending
    · exact absurd hpending (by simp)
    · exact hpending

/-- A step at a job never makes the asset pending. -/
theorem media_follows {s s' : Media.State} {e : Media.Event} (h : Media.step s e = some s') :
    Follows s.row.2 s'.row.2 := by
  obtain ⟨hsame, hstatus⟩ := Media.step_asset h
  refine ⟨hsame, fun hpending => ?_⟩
  rcases hstatus with hkept | hrejected | hrevives
  · exact hkept ▸ hpending
  · rw [hrejected] at hpending
    exact absurd hpending (by decide)
  · cases e with
    | complete worker processed now =>
      obtain ⟨copy, hcopy, rfl⟩ := Option.map_eq_some_iff.mp h
      unfold Media.completeStep at hpending
      split at hpending
      · exact hpending
      · rcases Media.transact_columns copy (Media.completeJob processed now) s.row with
          hrow | ⟨-, -, hcolumn⟩
        · change (transact (some copy) (Media.completeJob processed now) s.row).stored.2.status =
            .pending at hpending
          rwa [hrow] at hpending
        · change (transact (some copy) (Media.completeJob processed now) s.row).stored.2.status =
            .pending at hpending
          rw [hcolumn] at hpending
          have hready : (Media.completeJob processed now copy).2.status = .ready := by
            cases processed <;> rfl
          rw [hready] at hpending
          rcases @column_eq_or _ _ copy.2.status .ready s.row.2.status with hcol | hcol
          · rwa [hcol] at hpending
          · rw [hcol] at hpending
            exact absurd hpending (by decide)
    | retry now =>
      obtain ⟨⟨row, reset⟩, hrow, rfl⟩ := Option.map_eq_some_iff.mp h
      rcases Media.commit_row s (fun _ => row) with hsame' | hwritten
      · rwa [hsame'] at hpending
      · rw [hwritten] at hpending
        rcases Media.prepareManualRetry_eq_some hrow with ⟨-, rfl⟩ | ⟨-, -, -, hprocessing⟩
        · exact hpending
        · rw [hprocessing] at hpending
          exact absurd hpending (by decide)
    | claim | progress | reject | fail | failMedia | markEnqueued | clean =>
      simp [Media.Event.revives] at hrevives

section Kept

variable {settings : MediaSettings} {s : Upload} {copy : Media.MediaAsset}
  {metadata : Option Nat} {now : Time} {jobId : UUID}

theorem visits_update {visits : Nat → Option Media.MediaAsset} {P : Media.MediaAsset → Prop}
    (request : Nat) {visit : Option Media.MediaAsset}
    (h : ∀ other copy, visits other = some copy → P copy)
    (hvisit : ∀ copy, visit = some copy → P copy) :
    ∀ other copy, Function.update visits request visit other = some copy → P copy := by
  intro other copy hcopy
  by_cases hother : other = request
  · subst hother
    rw [Function.update_self] at hcopy
    exact hvisit copy hcopy
  · rw [Function.update_of_ne hother] at hcopy
    exact h other copy hcopy

theorem Upload.Kept.leave (h : s.Kept) (request : Nat) : (s.leave request).Kept where
  check := h.check
  job := h.job
  jobs := h.jobs
  intents := h.intents
  pending := h.pending
  live := h.live
  copies := visits_update request h.copies fun _ hno => absurd hno (by simp)

/-- A confirmation changes nothing, rejects the row, or starts the first job. -/
theorem confirmUpon_result (h : s.Kept) (hcode : copy.status = .pending → copy.failureCode = none) :
    (confirmUpon settings s copy metadata now jobId).2 = s ∨
      (∃ code, (confirmUpon settings s copy metadata now jobId).2 =
        { s with row := rejectedRow code now copy s.row }) ∨
      (s.jobs = [] ∧ s.row.storageCleanedAt.isNone ∧
        (confirmUpon settings s copy metadata now jobId).2 =
          { s with
            row := startedRow now copy s.row
            work := some (startedWork settings.maxAttempts now copy)
            jobs := [jobId]
            intents := s.intents ++ [jobId] }) := by
  cases hstatus : copy.status with
  | processing => exact Or.inl (by rw [confirmUpon_processing h.check hstatus])
  | ready => exact Or.inl (by rw [confirmUpon_finished (Or.inl hstatus)])
  | rejected => exact Or.inl (by rw [confirmUpon_finished (Or.inr hstatus)])
  | pending =>
    cases hrejection : rejection metadata s.declaredSizeBytes now copy with
    | some code =>
      refine Or.inr (Or.inl ⟨code, ?_⟩)
      rw [confirmUpon_refused h.check hstatus (hcode hstatus) hrejection]
    | none =>
      cases metadata with
      | none =>
        refine Or.inl ?_
        have hunexpired : now < copy.uploadExpiresAt := by
          by_contra hexpired
          rw [rejection, if_pos (not_lt.mp hexpired)] at hrejection
          exact absurd hrejection (by simp)
        rw [confirmUpon_unavailable hstatus hunexpired]
      | some size =>
        rw [confirmUpon_accepted h.check hstatus hrejection]
        by_cases hnew : s.row.storageCleanedAt.isNone ∧ s.jobs = []
        · rw [if_pos hnew]
          exact Or.inr (Or.inr ⟨hnew.2, hnew.1, rfl⟩)
        · rw [if_neg hnew]
          exact Or.inl rfl

theorem Upload.Kept.rejected (h : s.Kept) (code : String) :
    ({ s with row := rejectedRow code now copy s.row } : Upload).Kept where
  check := check_rejectedRow code h.check
  job := h.job
  jobs := h.jobs
  intents := h.intents
  pending := fun hno => absurd hno (by simp [rejectedRow])
  live := fun hno => absurd hno (by simp [rejectedRow])
  copies := h.copies_of_follows ⟨⟨rfl, rfl⟩, fun hno => absurd hno (by simp [rejectedRow])⟩

theorem check_startedWork (settings : MediaSettings) (now : Time) (copy : Media.MediaAsset) :
    Mapped.check (startedWork settings.maxAttempts now copy).job = true := by
  obtain ⟨hlow, hhigh⟩ := settings.bounds
  have hbounds : 1 ≤ settings.maxAttempts ∧ settings.maxAttempts ≤ 10 := ⟨by omega, hhigh⟩
  simp [Mapped.check, startedWork, Media.startProcessing, hbounds]

theorem Upload.Kept.started (h : s.Kept) (hjobs : s.jobs = [])
    (hcleaned : s.row.storageCleanedAt.isNone) :
    ({ s with
        row := startedRow now copy s.row
        work := some (startedWork settings.maxAttempts now copy)
        jobs := [jobId]
        intents := s.intents ++ [jobId] } : Upload).Kept where
  check := (check_startedRow h.check).trans hcleaned
  job := fun work hwork => Option.some.inj hwork ▸ check_startedWork settings now copy
  jobs := Or.inr ⟨⟨jobId, rfl⟩, rfl⟩
  intents := by
    rw [h.intents, hjobs]
    rfl
  pending := fun hno => absurd hno (by simp [startedRow])
  live := fun _ => by simp
  copies := h.copies_of_follows ⟨⟨rfl, rfl⟩, fun hno => absurd hno (by simp [startedRow])⟩

theorem uploadStep_kept {s' : Upload} {e : UploadEvent} (h : s.Kept)
    (hstep : uploadStep settings s e = some s') : s'.Kept := by
  cases e with
  | visit request =>
    cases hstep
    refine ⟨h.check, h.job, h.jobs, h.intents, h.pending, h.live,
      visits_update request h.copies fun copy hcopy => ?_⟩
    obtain rfl := Option.some.inj hcopy
    exact ⟨.refl _, id, fun hpending => (h.pending hpending).2⟩
  | confirm request metadata now jobId =>
    obtain ⟨copy, hcopy, rfl⟩ := Option.map_eq_some_iff.mp hstep
    have hleft := h.leave request
    have hcode := (h.copies request copy hcopy).2.2
    rcases @confirmUpon_result settings _ copy metadata now jobId hleft hcode with
      hsame | ⟨code, hrejected⟩ | ⟨hjobs, hcleaned, hnew⟩
    · rw [hsame]
      exact hleft
    · rw [hrejected]
      exact hleft.rejected code
    · rw [hnew]
      exact hleft.started hjobs hcleaned
  | media event =>
    obtain ⟨work, hwork, hmap⟩ := Option.bind_eq_some_iff.mp hstep
    obtain ⟨t, ht, rfl⟩ := Option.map_eq_some_iff.mp hmap
    have hsome : ∃ id, s.jobs = [id] := by
      rcases h.jobs with ⟨-, hnone⟩ | ⟨hid, -⟩
      · exact absurd (hwork.symm.trans hnone) (by simp)
      · exact hid
    obtain ⟨id, hid⟩ := hsome
    have hcheck : Mapped.check t.row = true :=
      Media.check_step (Bool.and_eq_true_iff.mpr ⟨h.job work hwork, h.check⟩) ht
    obtain ⟨hjob, hrow⟩ := Bool.and_eq_true_iff.mp hcheck
    have hfollows : Follows s.row t.row.2 := media_follows ht
    refine ⟨hrow, ?_, Or.inr ⟨⟨id, hid⟩, rfl⟩, h.intents, ?_, ?_, h.copies_of_follows hfollows⟩
    · intro work' hwork'
      obtain rfl := Option.some.inj hwork'
      exact hjob
    · intro hpending
      have hnone := (h.pending (hfollows.pending hpending)).1
      exact absurd (hid.symm.trans hnone) (by simp)
    · intro _ hnone
      exact absurd (hid.symm.trans hnone) (by simp)
  | clean cutoff reason now =>
    rw [uploadStep] at hstep
    split at hstep
    · cases hstep
      have hcheck : Mapped.check (transact none (cleaned reason now) s.row).stored = true :=
        transact_check h.check
      have hstatus : (transact none (cleaned reason now) s.row).stored = s.row ∨
          (transact none (cleaned reason now) s.row).stored = cleaned reason now s.row := by
        rw [transact_none]
        split
        · exact Or.inr rfl
        · exact Or.inl rfl
      rcases hstatus with hsame | hcleaned
      · rw [hsame]
        exact h
      · rw [hcleaned] at hcheck ⊢
        have hstatus := cleaned_status reason now s.row
        refine ⟨hcheck, h.job, h.jobs, h.intents, fun hpending => ?_, fun hlive => h.live ?_,
          h.copies_of_follows (cleaned_follows reason now s.row)⟩
        · change (cleaned reason now s.row).status = .pending at hpending
          rw [hstatus] at hpending
          split at hpending
          · exact absurd hpending (by simp)
          · rename_i hno
            exact absurd hpending hno
        · change (cleaned reason now s.row).status = _ ∨ (cleaned reason now s.row).status = _
            at hlive
          rw [hstatus] at hlive
          split at hlive
          · simp at hlive
          · exact hlive
    · exact absurd hstep (by simp)

theorem uploadStep_confirm {s' : Upload} {request : Nat}
    (h : uploadStep settings s (.confirm request metadata now jobId) = some s') :
    ∃ copy, s.visits request = some copy ∧
      s' = (confirmUpon settings (s.leave request) copy metadata now jobId).2 ∧
      (UploadEvent.confirm request metadata now jobId).answer settings s =
        some (confirmUpon settings (s.leave request) copy metadata now jobId).1 := by
  obtain ⟨copy, hcopy, rfl⟩ := Option.map_eq_some_iff.mp h
  exact ⟨copy, hcopy, rfl, Option.map_eq_some_iff.mpr ⟨copy, hcopy, rfl⟩⟩

theorem rejection_same {row : Media.MediaAsset} (h : Media.SameUpload copy row) (declared : Nat) :
    rejection metadata declared now row = rejection metadata declared now copy := by
  rw [rejection, rejection, h.kind, h.uploadExpiresAt]

theorem live_iff {size : Nat} (h : s.finished = false) :
    s.Live size now ↔ rejection (some size) s.declaredSizeBytes now s.row = none := by
  have hstatus : s.row.status = .pending ∨ s.row.status = .processing := by
    unfold Upload.finished at h
    cases hs : s.row.status <;> simp_all
  unfold rejection
  constructor
  · rintro ⟨-, hunexpired, hdeclared, hpositive, hbound⟩
    rw [if_neg (not_le.mpr hunexpired), Option.bind_some, if_neg]
    rintro (hne | hno)
    · exact hne hdeclared
    · exact hno ⟨hpositive, hbound⟩
  · intro hnone
    split at hnone
    · exact absurd hnone (by simp)
    · rename_i hunexpired
      rw [Option.bind_some] at hnone
      split at hnone
      · exact absurd hnone (by simp)
      · rename_i hmatch
        obtain ⟨hdeclared, hsize⟩ := not_or.mp hmatch
        obtain ⟨hpositive, hbound⟩ := not_not.mp hsize
        exact ⟨hstatus, not_le.mp hunexpired, not_not.mp hdeclared, hpositive, hbound⟩

theorem finished_iff : s.finished = true ↔ s.row.status = .ready ∨ s.row.status = .rejected := by
  simp [Upload.finished]

/-- The row after a rejection is the row before only when it said so already. -/
theorem rejectedRow_eq_iff (code : String) {row : Media.MediaAsset} :
    rejectedRow code now copy row = row ↔
      row.status = .rejected ∧ row.failureCode = some code ∧
        (copy.updatedAt = now ∨ row.updatedAt = now) := by
  constructor
  · intro h
    refine ⟨(congrArg Media.MediaAsset.status h).symm,
      (congrArg Media.MediaAsset.failureCode h).symm, ?_⟩
    by_cases hcopy : copy.updatedAt = now
    · exact Or.inl hcopy
    · refine Or.inr ?_
      have hcolumn := congrArg Media.MediaAsset.updatedAt h
      rw [rejectedRow, column_changed (Ne.symm hcopy)] at hcolumn
      exact hcolumn.symm
  · rintro ⟨hstatus, hcode, htime⟩
    have hcolumn : column copy.updatedAt now row.updatedAt = row.updatedAt := by
      rcases htime with rfl | htime
      · exact column_unchanged
      · rw [htime, column, ite_self]
    rw [rejectedRow, hcolumn, ← hstatus, ← hcode]

/-- A finished upload is left alone unless the copy still says `pending` and is refused, or starts
the upload anew. -/
theorem confirm_unchanged_iff (h : s.Kept)
    (hcode : copy.status = .pending → copy.failureCode = none) (hfinished : s.finished = true) :
    (confirmUpon settings s copy metadata now jobId).2.row = s.row ↔
      (copy.status = .pending →
        (∀ code, rejection metadata s.declaredSizeBytes now copy = some code →
          s.row.status = .rejected ∧ s.row.failureCode = some code ∧
            (copy.updatedAt = now ∨ s.row.updatedAt = now)) ∧
        (rejection metadata s.declaredSizeBytes now copy = none → metadata.isSome →
          ¬ (s.row.storageCleanedAt.isNone ∧ s.jobs = []))) := by
  cases hstatus : copy.status with
  | processing =>
    rw [confirmUpon_processing h.check hstatus]
    exact iff_of_true rfl (by simp)
  | ready =>
    rw [confirmUpon_finished (Or.inl hstatus)]
    exact iff_of_true rfl (by simp)
  | rejected =>
    rw [confirmUpon_finished (Or.inr hstatus)]
    exact iff_of_true rfl (by simp)
  | pending =>
    cases hrejection : rejection metadata s.declaredSizeBytes now copy with
    | some code =>
      rw [confirmUpon_refused h.check hstatus (hcode hstatus) hrejection]
      change rejectedRow code now copy s.row = s.row ↔ _
      rw [rejectedRow_eq_iff]
      simp
    | none =>
      cases metadata with
      | none =>
        have hunexpired : now < copy.uploadExpiresAt := by
          by_contra hexpired
          rw [rejection, if_pos (not_lt.mp hexpired)] at hrejection
          exact absurd hrejection (by simp)
        rw [confirmUpon_unavailable hstatus hunexpired]
        exact iff_of_true rfl (by simp)
      | some size =>
        rw [confirmUpon_accepted h.check hstatus hrejection]
        by_cases hnew : s.row.storageCleanedAt.isNone ∧ s.jobs = []
        · rw [if_pos hnew]
          refine iff_of_false (fun hrow => ?_) (fun hno => (hno rfl).2 rfl rfl hnew)
          have hprocessing : s.row.status = .processing :=
            (congrArg Media.MediaAsset.status hrow).symm
          rcases finished_iff.mp hfinished with hs | hs <;> rw [hs] at hprocessing <;>
            exact absurd hprocessing (by decide)
        · rw [if_neg hnew]
          exact iff_of_true rfl fun _ => ⟨by simp, fun _ _ => hnew⟩

/-- A live upload's confirmation returns its job exactly when the copy has the row's status. -/
theorem confirm_answer_iff (h : s.Kept) {size : Nat} (hlive : s.Live size now)
    (hsame : Media.SameUpload copy s.row)
    (hpending : s.row.status = .pending → copy.status = .pending) :
    (∃ id, (confirmUpon settings s copy (some size) now jobId).1 = .job id ∧
      (confirmUpon settings s copy (some size) now jobId).2.jobs = [id]) ↔
      copy.status = s.row.status := by
  have hrejection : rejection (some size) s.declaredSizeBytes now copy = none := by
    have hfinished : s.finished = false := by
      rw [← Bool.not_eq_true, finished_iff]
      rcases hlive.status with hs | hs <;> rw [hs] <;> decide
    rw [← rejection_same hsame, (live_iff hfinished).mp hlive]
  rcases hlive.status with hrow | hrow
  · have hcopy := hpending hrow
    rw [confirmUpon_accepted h.check hcopy hrejection]
    have hnone : s.row.storageCleanedAt.isNone := by
      have hcheck := h.check
      simp only [Mapped.check, Bool.and_eq_true, Bool.or_eq_true, hrow] at hcheck
      exact hcheck.2.resolve_right (by decide)
    rw [if_pos ⟨hnone, (h.pending hrow).1⟩, hrow, hcopy]
    exact iff_of_true ⟨jobId, rfl, rfl⟩ rfl
  · have hjobs := h.live (Or.inl hrow)
    rw [hrow]
    cases hcopy : copy.status with
    | processing =>
      rw [confirmUpon_processing h.check hcopy]
      refine iff_of_true ?_ rfl
      rcases h.jobs with ⟨hnone, -⟩ | ⟨⟨id, hid⟩, -⟩
      · exact absurd hnone hjobs
      · exact ⟨id, by rw [hid]; rfl, hid⟩
    | pending =>
      rw [confirmUpon_accepted h.check hcopy hrejection, if_neg fun hno => hjobs hno.2]
      exact iff_of_false (by simp) (by decide)
    | ready =>
      rw [confirmUpon_finished (Or.inl hcopy)]
      exact iff_of_false (by simp) (by decide)
    | rejected =>
      rw [confirmUpon_finished (Or.inr hcopy)]
      exact iff_of_false (by simp) (by decide)

end Kept

/-! ## Runs -/

section Runs

variable {settings : MediaSettings} {s s' : Upload} {copy : Media.MediaAsset}
  {metadata : Option Nat} {now : Time}

/-- What a finished upload's confirmation must not do, in the words of `misledBy`. -/
theorem finished_misledBy_iff (hfinished : s.finished = true) :
    s.misledBy metadata now copy = false ↔
      (copy.status = .pending →
        (∀ code, rejection metadata s.declaredSizeBytes now copy = some code →
          s.row.status = .rejected ∧ s.row.failureCode = some code ∧
            (copy.updatedAt = now ∨ s.row.updatedAt = now)) ∧
        (rejection metadata s.declaredSizeBytes now copy = none → metadata.isSome →
          ¬ (s.row.storageCleanedAt.isNone ∧ s.jobs = []))) := by
  rw [Upload.misledBy, if_pos hfinished]
  by_cases hpending : copy.status = .pending
  · have hne : copy.status ≠ s.row.status := by
      rw [hpending]
      rcases finished_iff.mp hfinished with hs | hs <;> rw [hs] <;> decide
    cases hrejection : rejection metadata s.declaredSizeBytes now copy with
    | some code =>
      rcases finished_iff.mp hfinished with hs | hs
      · simp [hpending, hs]
      · simp [hpending, hs, or_iff_not_imp_left]
    | none =>
      rw [hpending] at hne
      cases hcleaned : s.row.storageCleanedAt with
      | none => simp [hpending, hne]
      | some time => simp [hpending]
  · simp [hpending]

theorem live_misledBy_iff {size : Nat} (hlive : s.Live size now) :
    s.misledBy (some size) now copy = false ↔ copy.status = s.row.status := by
  have hfinished : s.finished = false := by
    rw [← Bool.not_eq_true, finished_iff]
    rcases hlive.status with hs | hs <;> rw [hs] <;> decide
  simp [Upload.misledBy, hfinished, (live_iff hfinished).mp hlive]

/-- **A step keeps confirmation idempotent exactly when no copy misleads it.** -/
theorem step_idempotent_iff {e : UploadEvent} (h : s.Kept)
    (hstep : uploadStep settings s e = some s') :
    Answers settings s e s' ∧ LeavesFinished s e s' ↔ misled s e = false := by
  cases e with
  | confirm request metadata now jobId =>
    obtain ⟨copy, hcopy, rfl, hanswer⟩ := uploadStep_confirm hstep
    obtain ⟨hsame, hpending, hcode⟩ := h.copies request copy hcopy
    have hmisled : misled s (.confirm request metadata now jobId) =
        s.misledBy metadata now copy := by
      rw [misled, hcopy, Option.any_some]
    rw [hmisled]
    cases hfinished : s.finished with
    | true =>
      have hvacuous : Answers settings s (.confirm request metadata now jobId)
          (confirmUpon settings (s.leave request) copy metadata now jobId).2 := by
        intro _ size _ _ _ hlive
        rcases finished_iff.mp hfinished with hs | hs <;> rcases hlive.status with hl | hl <;>
          exact absurd (hs.symm.trans hl) (by decide)
      rw [finished_misledBy_iff hfinished, and_iff_right hvacuous]
      have hiff := @confirm_unchanged_iff settings _ copy metadata now jobId (h.leave request)
        hcode hfinished
      refine Iff.trans ?_ hiff
      exact ⟨fun hleaves => hleaves rfl hfinished, fun hrow _ _ => hrow⟩
    | false =>
      have hvacuous : LeavesFinished s (.confirm request metadata now jobId)
          (confirmUpon settings (s.leave request) copy metadata now jobId).2 :=
        fun _ hno => absurd (hfinished.symm.trans hno) (by decide)
      rw [and_iff_left hvacuous]
      by_cases hlive : ∃ size, metadata = some size ∧ s.Live size now
      · obtain ⟨size, rfl, hlive⟩ := hlive
        rw [live_misledBy_iff hlive]
        have hleft : (s.leave request).Live size now :=
          ⟨hlive.status, hlive.unexpired, hlive.uploaded⟩
        have hiff := @confirm_answer_iff settings _ copy now jobId (h.leave request) size hleft
          hsame hpending
        refine Iff.trans ⟨fun hanswers => ?_, fun hfound => ?_⟩ hiff
        · obtain ⟨id, hid, hjobs⟩ := hanswers request size now jobId rfl hlive
          exact ⟨id, Option.some.inj (hanswer.symm.trans hid), hjobs⟩
        · obtain ⟨id, hid, hjobs⟩ := hfound
          intro request' size' now' jobId' heq _
          cases heq
          exact ⟨id, hanswer.trans (congrArg some hid), hjobs⟩
      · refine iff_of_true ?_ ?_
        · intro request' size' now' jobId' heq hl
          cases heq
          exact absurd ⟨size', rfl, hl⟩ hlive
        · cases metadata with
          | none => simp [Upload.misledBy, hfinished]
          | some size =>
            have hnot : rejection (some size) s.declaredSizeBytes now s.row ≠ none :=
              fun hnone => hlive ⟨size, rfl, (live_iff hfinished).mpr hnone⟩
            simp [Upload.misledBy, hfinished, Option.isSome_iff_ne_none.mpr hnot]
  | visit | media | clean =>
    refine iff_of_true ⟨?_, ?_⟩ rfl
    · intro _ _ _ _ heq _
      cases heq
    · exact fun hno => absurd hno (by simp [UploadEvent.confirms])

/-- An asset nobody has confirmed yet, or one that came with its job. -/
structure Upload.Fresh (s : Upload) : Prop where
  check : Mapped.check s.row = true
  visits : ∀ request, s.visits request = none
  reserved : (s.row.status = .pending ∧ s.row.failureCode = none ∧ s.jobs = [] ∧ s.intents = [] ∧
      s.work = none) ∨
    (s.row.status = .processing ∧ s.intents = s.jobs ∧ (∃ id, s.jobs = [id]) ∧
      ∃ work, s.work = some work ∧ Mapped.check work.job = true)

theorem Upload.Fresh.kept (h : s.Fresh) : s.Kept := by
  have hcopies : ∀ request copy, s.visits request = some copy →
      Media.SameUpload copy s.row ∧ (s.row.status = .pending → copy.status = .pending) ∧
        (copy.status = .pending → copy.failureCode = none) :=
    fun request copy hcopy => absurd (hcopy.symm.trans (h.visits request)) (by simp)
  rcases h.reserved with ⟨hstatus, hcode, hjobs, hintents, hwork⟩ |
    ⟨hstatus, hintents, hid, work, hwork, hjob⟩
  · refine ⟨h.check, ?_, Or.inl ⟨hjobs, hwork⟩, hintents.trans hjobs.symm,
      fun _ => ⟨hjobs, hcode⟩, ?_, hcopies⟩
    · exact fun work hsome => absurd (hsome.symm.trans hwork) (by simp)
    · rw [hstatus]
      exact fun hno => absurd hno (by decide)
  · refine ⟨h.check, ?_, Or.inr ⟨hid, by rw [hwork]; rfl⟩, hintents, ?_, ?_, hcopies⟩
    · exact fun other hother => Option.some.inj (hwork.symm.trans hother) ▸ hjob
    · rw [hstatus]
      exact fun hno => absurd hno (by decide)
    · rintro - hnone
      obtain ⟨id, hid⟩ := hid
      exact absurd (hid.symm.trans hnone) (by simp)

theorem Upload.Kept.single (h : s.Kept) :
    s.jobs.length ≤ 1 ∧ s.intents = s.jobs ∧
      (s.row.status = .processing ∨ s.row.status = .ready → s.jobs.length = 1) := by
  rcases h.jobs with ⟨hnone, -⟩ | ⟨⟨id, hid⟩, -⟩
  · exact ⟨by simp [hnone], h.intents, fun hlive => absurd hnone (h.live hlive)⟩
  · exact ⟨by simp [hid], h.intents, fun _ => by simp [hid]⟩

/-- **Confirmation is idempotent exactly along the runs in which no copy misleads a request.** -/
theorem confirm_idempotent (settings : MediaSettings) (s : Upload) (hfresh : s.Fresh)
    (events : List UploadEvent) :
    Idempotent settings s events ↔
      Along (uploadStep settings) (fun s e _ => misled s e = false) s events := by
  have hkeep : ∀ s e s', s.Kept → uploadStep settings s e = some s' → s'.Kept :=
    fun _ _ _ => uploadStep_kept
  have hsplit : Along (uploadStep settings) (fun s e _ => misled s e = false) s events ↔
      Along (uploadStep settings) (Answers settings) s events ∧
        Along (uploadStep settings) LeavesFinished s events := by
    rw [← along_and]
    exact along_congr_of_inv hkeep (fun s e s' hk he => (step_idempotent_iff hk he).symm)
      hfresh.kept
  rw [hsplit]
  constructor
  · exact fun h => ⟨h.answered, h.unchanged⟩
  · rintro ⟨hanswered, hunchanged⟩
    refine ⟨?_, hanswered, hunchanged⟩
    exact always_of_inv (fun s e s' hk _ he => hkeep s e s' hk he) (fun _ hk => hk.single)
      hfresh.kept (along_true s events)

end Runs

/-- An image of 1000 bytes that may be confirmed for an hour. -/
def plainUpload : Upload where
  row :=
    { kind := .image, status := .pending, declaredMime := "image/png", detectedMime := none
      sizeBytes := none, sha256 := none, phash := none, width := none, height := none
      durationMs := none, videoCodec := none, audioCodec := none, frameRate := none
      failureCode := none, uploadExpiresAt := seconds 3600, updatedAt := 0
      storageCleanedAt := none }
  declaredSizeBytes := 1000
  variants := []
  work := none
  visits := fun _ => none
  jobs := []
  intents := []

def plainSettings : MediaSettings := ⟨4, by decide⟩

theorem plainUpload_fresh : plainUpload.Fresh :=
  ⟨by decide, fun _ => rfl, Or.inl ⟨rfl, rfl, rfl, rfl, rfl⟩⟩

/-- One confirmation after the other: the second one reads the asset once the first has
committed. -/
theorem confirm_idempotent_twice :
    Idempotent plainSettings plainUpload
      [.visit 1, .confirm 1 (some 1000) (seconds 1) 71, .visit 2,
        .confirm 2 (some 1000) (seconds 2) 72] :=
  (confirm_idempotent _ _ plainUpload_fresh _).mpr (by decide +kernel)

/-- Both requests have read the pending asset before the first one commits: the second one fails
on the unique key of the job. -/
theorem confirm_not_idempotent :
    ¬Idempotent plainSettings plainUpload
      [.visit 1, .visit 2, .confirm 1 (some 1000) (seconds 1) 71,
        .confirm 2 (some 1000) (seconds 2) 72] := by
  intro h
  obtain ⟨-, -, -, hanswers, -⟩ := h.answered
  have hlast := hanswers 2 1000 (seconds 2) 72 rfl
    ⟨Or.inr rfl, by decide, rfl, by decide, by decide⟩
  obtain ⟨id, hid, -⟩ := hlast
  have herror : some Answer.integrityError = some (Answer.job id) := hid
  exact absurd herror (by simp)

end ComponentKb.Catalog
