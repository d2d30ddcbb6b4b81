import ComponentKb.Imports.Revive
import ComponentKb.Lib.Table
import Mathlib.Algebra.Order.Ring.Int

/-!
# The admission of import submissions

The two submission endpoints (`api/imports.py`) over all import jobs. `_admit_submission` takes an
advisory lock that is held to the end of the transaction, looks the idempotency key up and counts;
the job is inserted and committed later, and between the two the workers, cancels and dispatches of
other jobs commit. A submission that has passed the checks is the `Ticket`.

* `admission_bounds`: keys are unique, replays are answered with their job, the rate holds in every
  window, and both limits of active jobs hold along every run in which no revival finds them full.
-/

namespace ComponentKb.Imports

open ComponentKb.Lib

/-! ## Submissions -/

/-- A registered repository source. -/
structure RepositorySource where
  key : String
  repositoryUrl : String
  deriving DecidableEq, Repr

/-- A validated payload: an approved page URL, or an entry of a repository. -/
inductive Payload where
  | url (url : String)
  | repository (source : RepositorySource) (revision filePath : String) (entryName : Option String)
  deriving DecidableEq, Repr

/-- The sources that submissions may name. Their URLs are unique (`uq_sources_repository_url`), and
no repository is an approved page. -/
structure Sources where
  repositories : List RepositorySource
  pages : String → Bool
  urls : (repositories.map (·.repositoryUrl)).Nodup
  apart : ∀ source ∈ repositories, pages source.repositoryUrl = false

def Sources.accepts (sources : Sources) : Payload → Bool
  | .url url => sources.pages url
  | .repository source _ _ _ => source ∈ sources.repositories

structure AdmissionSettings where
  pendingJobLimit : Nat
  globalPendingJobLimit : Nat
  submissionRateLimit : Nat
  submissionRateWindowSeconds : Nat
  jobMaxAttempts : Nat

/-- A row of `import_jobs` with its workers; `request` is the payload it was created for, which no
function reads. -/
structure SubmittedJob where
  id : UUID
  requestedBy : UUID
  idempotencyKey : String
  submittedUrl : String
  createdAt : Time
  request : Payload
  state : State

def SubmittedJob.active (job : SubmittedJob) : Bool := job.state.job.status.active

/-- A submission that holds the lock and has passed the checks. -/
structure Ticket where
  actorId : UUID
  idempotencyKey : String
  payload : Payload
  admittedAt : Time
  deriving DecidableEq, Repr

/-- All jobs, the transaction that holds the submission lock, and the latest time that a submission
has read. -/
structure Board where
  jobs : List SubmittedJob
  ticket : Option Ticket
  clock : Time

/-- `get_idempotent_job`. -/
def Board.idempotentJob (board : Board) (actorId : UUID) (key : String) : Option SubmittedJob :=
  board.jobs.find? fun job => job.requestedBy = actorId ∧ job.idempotencyKey = key

/-- `count_recent_submissions`. -/
def Board.recent (board : Board) (actorId : UUID) (since : Time) : Nat :=
  board.jobs.countP fun job => job.requestedBy = actorId && since ≤ job.createdAt

/-- `count_active` of one user. -/
def Board.activeOf (board : Board) (actorId : UUID) : Nat :=
  board.jobs.countP fun job => job.requestedBy = actorId && job.active

/-- `count_active`. -/
def Board.activeAll (board : Board) : Nat := board.jobs.countP (·.active)

/-- What an endpoint finds under the idempotency key, or what the checks say. -/
inductive Admission where
  | existing (jobId : UUID)
  | conflict
  | refused (code : String)
  | admitted
  deriving DecidableEq, Repr

/-- The comparison of an endpoint with the job it found: the URL endpoint compares `submitted_url`,
the repository endpoint the stored identity. -/
def Payload.matches (job : SubmittedJob) : Payload → Bool
  | .url pageUrl => job.submittedUrl = pageUrl
  | .repository source revision filePath entryName =>
    job.state.job.repositoryUrl = some source.repositoryUrl ∧
      job.state.job.requestedRevision = some revision ∧
      job.state.job.sourceFilePath = some filePath ∧ job.state.job.sourceEntryName = entryName

/-- `_admit_submission`, with the comparison that follows it. -/
def admitSubmission (settings : AdmissionSettings) (board : Board) (actorId : UUID) (key : String)
    (payload : Payload) (now : Time) : Admission :=
  match board.idempotentJob actorId key with
  | some job => if payload.matches job then .existing job.id else .conflict
  | none =>
    if board.recent actorId (now - seconds settings.submissionRateWindowSeconds) ≥
        settings.submissionRateLimit then .refused "import_rate_limited"
    else if board.activeOf actorId ≥ settings.pendingJobLimit then
      .refused "import_pending_quota_exceeded"
    else if board.activeAll ≥ settings.globalPendingJobLimit then
      .refused "import_global_pending_quota_exceeded"
    else .admitted

/-- `add_job` or `add_repository_job`. -/
def Payload.job (maxAttempts : Nat) (now : Time) : Payload → ImportJob
  | .url _ => addJob maxAttempts now
  | .repository source revision filePath entryName =>
    addRepositoryJob source.repositoryUrl revision filePath entryName maxAttempts now

def Payload.submittedUrl : Payload → String
  | .url pageUrl => pageUrl
  | .repository source _ _ _ => source.repositoryUrl

def Ticket.submitted (settings : AdmissionSettings) (ticket : Ticket) (jobId : UUID) (now : Time) :
    SubmittedJob where
  id := jobId
  requestedBy := ticket.actorId
  idempotencyKey := ticket.idempotencyKey
  submittedUrl := ticket.payload.submittedUrl
  createdAt := now
  request := ticket.payload
  state := ⟨ticket.payload.job settings.jobMaxAttempts now, [], fun _ => none⟩

/-! ## The system -/

/-- What a worker persists is the entry that its copy of the job names: the acquirer and the
adapters take the repository, the path and the entry over. -/
def Parsed.requestedBy (copy : ImportJob) : Parsed → Bool
  | .page _ _ => copy.repositoryUrl = none
  | .repository repositoryUrl _ _ filePath entryName _ _ _ _ =>
    copy.repositoryUrl = some repositoryUrl ∧ copy.sourceFilePath = some filePath ∧
      copy.sourceEntryName = entryName

/-- A result that is persisted belongs to the job. -/
def acquired (s : State) : Event → Bool
  | .exit worker (.persist parsed _) _ =>
    match s.turns worker with
    | some (.acquiring copy) => parsed.requestedBy copy
    | _ => true
  | _ => true

inductive BoardEvent where
  | submit (actorId : UUID) (key : String) (payload : Payload) (now : Time)
  | insert (jobId : UUID) (now : Time)
  /-- The connection is lost: the transaction is rolled back. -/
  | abandon
  | job (jobId : UUID) (event : Event)
  deriving DecidableEq, Repr

def boardStep (sources : Sources) (settings : AdmissionSettings) (board : Board) :
    BoardEvent → Option Board
  | .submit actorId key payload now =>
    if board.ticket.isSome ∨ now < board.clock ∨ ¬ sources.accepts payload then none
    else some { board with
      ticket :=
        if admitSubmission settings board actorId key payload now = .admitted then
          some ⟨actorId, key, payload, now⟩
        else none
      clock := now }
  | .insert jobId now =>
    board.ticket.bind fun ticket =>
      if now < board.clock ∨ jobId ∈ board.jobs.map (·.id) then none
      else some
        { jobs := board.jobs ++ [ticket.submitted settings jobId now]
          ticket := none
          clock := now }
  | .abandon => some { board with ticket := none }
  | .job jobId event =>
    (lookup (·.id) board.jobs jobId).bind fun job =>
      if acquired job.state event then
        (step job.state event).map fun state =>
          { board with jobs := replace (·.id) board.jobs { job with state } }
      else none

/-- A manual retry of a job. -/
def BoardEvent.retries : BoardEvent → Bool
  | .job _ event => event.isRetry
  | _ => false

/-- The jobs of a user created in a window of the rate. -/
def Board.window (board : Board) (actorId : UUID) (start : Time) (width : Nat) : Nat :=
  board.jobs.countP fun job => job.requestedBy = actorId && start ≤ job.createdAt &&
    job.createdAt ≤ start + seconds width

/-- A submission under a key that the user has used: the same payload is answered with the job,
another one is refused, and nothing changes but the clock. -/
def Replays (settings : AdmissionSettings) (s : Board) (e : BoardEvent) (s' : Board) : Prop :=
  ∀ actorId key payload now, e = .submit actorId key payload now → ∀ job ∈ s.jobs,
    job.requestedBy = actorId → job.idempotencyKey = key →
      admitSubmission settings s actorId key payload now =
        (if payload = job.request then .existing job.id else .conflict) ∧
      s' = { s with clock := now }

/-- **What admission promises** along a run. -/
structure Admits (sources : Sources) (settings : AdmissionSettings) (board : Board)
    (events : List BoardEvent) : Prop where
  keys : Always (boardStep sources settings)
    (fun t => (t.jobs.map fun job => (job.requestedBy, job.idempotencyKey)).Nodup) board events
  replays : Along (boardStep sources settings) (Replays settings) board events
  pending : Always (boardStep sources settings)
    (fun t => ∀ actorId, t.activeOf actorId ≤ settings.pendingJobLimit) board events
  globalPending : Always (boardStep sources settings)
    (fun t => t.activeAll ≤ settings.globalPendingJobLimit) board events
  rate : Always (boardStep sources settings) (fun t => ∀ actorId start,
    t.window actorId start settings.submissionRateWindowSeconds ≤ settings.submissionRateLimit)
    board events

/-! ## Where it fails -/

/-- The places a user's active jobs and a submission under way take. -/
def Board.takenBy (board : Board) (actorId : UUID) : Nat :=
  board.activeOf actorId + if board.ticket.any (·.actorId = actorId) then 1 else 0

def Board.taken (board : Board) : Nat :=
  board.activeAll + if board.ticket.isSome then 1 else 0

/-- **The overfull revival**: a finished job becomes active again (`revives`) while the places of
its owner, or of the system, are all taken. -/
def overfills (settings : AdmissionSettings) (board : Board) : BoardEvent → Bool
  | .job jobId event =>
    (lookup (·.id) board.jobs jobId).any fun job => revives job.state event &&
      (settings.pendingJobLimit ≤ board.takenBy job.requestedBy ||
        settings.globalPendingJobLimit ≤ board.taken)
  | _ => false

/-! ## The entry a job names -/

/-- The identity columns of a job. -/
def ImportJob.entry (job : ImportJob) :
    Option String × Option String × Option String × Option String :=
  (job.repositoryUrl, job.requestedRevision, job.sourceFilePath, job.sourceEntryName)

/-- The row and every copy of it name one entry. -/
structure Names (s : State)
    (entry : Option String × Option String × Option String × Option String) : Prop where
  row : s.job.entry = entry
  acquiring : ∀ worker copy, s.turns worker = some (.acquiring copy) → copy.entry = entry
  relock : ∀ worker copy, s.turns worker = some (.relock copy) → copy.entry = entry

section Names

variable {entry : Option String × Option String × Option String × Option String}
  {copy stored job : ImportJob} {f : ImportJob → ImportJob} {now : Time}

theorem entry_column (h : stored.entry = entry) (hcopy : copy.entry = entry)
    (hf : (f copy).entry = entry) : (Mapped.flush copy (f copy) stored).entry = entry := by
  have heq := hf.trans hcopy.symm
  simp only [ImportJob.entry, Prod.mk.injEq] at heq
  obtain ⟨hurl, hrevision, hpath, hname⟩ := heq
  rw [← h]
  simp only [Mapped.flush, ImportJob.entry, hurl, hrevision, hpath, hname, column_unchanged]

theorem entry_transact (h : stored.entry = entry) (hcopy : copy.entry = entry)
    (hf : (f copy).entry = entry) : (transact (some copy) f stored).stored.entry = entry := by
  rcases transact_stored_eq_or (some copy) f stored with hsame | hwritten
  · rw [hsame, h]
  · rw [hwritten]
    exact entry_column h hcopy hf

theorem entry_commit {s : State} (h : s.job.entry = entry) (hf : (f s.job).entry = entry) :
    (s.commit f).job.entry = entry := by
  rcases commit_job s f with hjob | hjob <;> rw [hjob]
  · exact h
  · exact hf

theorem entry_markFailed (code : String) : (markFailed code now job).entry = job.entry := by
  unfold markFailed
  split <;> rfl

theorem entry_recordTransient : (recordTransient now job).entry = job.entry := by
  unfold recordTransient
  split
  · rfl
  · split
    · exact entry_markFailed _
    · rfl

theorem entry_finish {parsed : Parsed} {component : UUID} (h : parsed.requestedBy job = true) :
    ((finish parsed component now job).getD job).entry = job.entry := by
  unfold finish
  split
  · rfl
  · cases parsed with
    | page canonicalUrl version => rfl
    | repository url original revision path name parser version status warnings =>
      simp only [Parsed.requestedBy, decide_eq_true_eq] at h
      obtain ⟨hurl, hpath, hname⟩ := h
      simp only [Option.getD_some, complete, ImportJob.entry, hurl, hpath, hname]

theorem entry_write {exit : Exit}
    (h : ∀ parsed component, exit = .persist parsed component → parsed.requestedBy job = true) :
    (exit.write now job).entry = job.entry := by
  cases exit with
  | failed code => exact entry_markFailed code
  | transient | lockBusy => exact entry_recordTransient
  | unparsed status warnings => exact entry_markFailed _
  | persist parsed component => exact entry_finish (h parsed component rfl)
  | rollback handler => rfl

/-- **A job goes on naming the entry it was submitted for.** -/
theorem names_step {s s' : State} {e : Event} (h : Names s entry) (hacquired : acquired s e = true)
    (hs : step s e = some s') : Names s' entry := by
  have hturns : ∀ {t : State} {worker : Nat} {turn : Option Turn} , t.job.entry = entry →
      t.turns = Function.update s.turns worker turn →
      (∀ copy, turn = some (.acquiring copy) → copy.entry = entry) →
      (∀ copy, turn = some (.relock copy) → copy.entry = entry) → Names t entry := by
    intro t worker turn hrow hupdate hacq hrel
    refine ⟨hrow, fun w copy hcopy => ?_, fun w copy hcopy => ?_⟩
    · rw [hupdate] at hcopy
      by_cases hw : w = worker
      · rw [hw, Function.update_self] at hcopy
        exact hacq copy hcopy
      · rw [Function.update_of_ne hw] at hcopy
        exact h.acquiring w copy hcopy
    · rw [hupdate] at hcopy
      by_cases hw : w = worker
      · rw [hw, Function.update_self] at hcopy
        exact hrel copy hcopy
      · rw [Function.update_of_ne hw] at hcopy
        exact h.relock w copy hcopy
  cases e with
  | claim worker source now ttl =>
    simp only [step] at hs
    split at hs
    · cases hs
      unfold claimStep
      split
      · exact h
      · rename_i job hclaim
        refine ⟨entry_commit h.row ?_, h.acquiring, h.relock⟩
        unfold claim at hclaim
        split at hclaim
        · cases hclaim
        · split at hclaim
          · cases hclaim
            exact (entry_markFailed _).trans h.row
          · split at hclaim <;> cases hclaim
      · rename_i job hclaim
        have hjob : job.entry = entry := by
          unfold claim at hclaim
          split at hclaim
          · cases hclaim
          · split at hclaim
            · cases hclaim
            · split at hclaim
              · cases hclaim
              · cases hclaim
                exact h.row
        refine hturns ?_ rfl (fun copy hcopy => ?_) (fun copy hcopy => ?_)
        · exact entry_commit (f := fun _ => job) h.row hjob
        · obtain ⟨row, hrow, hturn⟩ := Option.map_eq_some_iff.mp hcopy
          obtain rfl := Turn.acquiring.inj hturn
          rw [transact_copy hrow]
          exact hjob
        · obtain ⟨_, _, hturn⟩ := Option.map_eq_some_iff.mp hcopy
          cases hturn
    · cases hs
  | exit worker exit now =>
    simp only [step] at hs
    split at hs
    · rename_i copy hcopy
      cases hs
      have hentry := h.acquiring worker copy hcopy
      have hwrite : (exit.write now copy).entry = entry := by
        refine (entry_write fun parsed component hexit => ?_).trans hentry
        subst hexit
        simpa [acquired, hcopy] using hacquired
      refine hturns ?_ rfl (fun job hjob => absurd hjob (exit.next_not_acquiring _ _))
        (fun job hjob => ?_)
      · exact entry_transact h.row hentry hwrite
      · obtain ⟨-, hdone⟩ := Exit.next_relock hjob
        rw [transact_copy hdone]
        exact hwrite
    · cases hs
  | recordAgain worker now =>
    simp only [step] at hs
    split at hs
    · rename_i copy hcopy
      cases hs
      have hentry := h.relock worker copy hcopy
      refine hturns ?_ rfl (fun _ hno => by cases hno) (fun _ hno => by cases hno)
      exact entry_transact h.row hentry (entry_recordTransient.trans hentry)
    · cases hs
  | handle worker now =>
    simp only [step] at hs
    split at hs
    · rename_i handler _
      cases hs
      refine hturns ?_ rfl (fun _ hno => by cases hno) (fun _ hno => by cases hno)
      refine entry_commit (s := s.setTurn worker none) h.row ?_
      cases handler with
      | transient => exact entry_recordTransient.trans h.row
      | failed code => exact (entry_markFailed code).trans h.row
    · cases hs
  | retry now lease =>
    obtain ⟨⟨job, reset⟩, hjob, rfl⟩ := Option.map_eq_some_iff.mp hs
    refine ⟨entry_commit h.row ?_, h.acquiring, h.relock⟩
    unfold prepareManualRetry at hjob
    split at hjob
    · cases hjob
      exact h.row
    · split at hjob
      · cases hjob
        exact h.row
      · cases hjob
  | cancel now =>
    obtain ⟨job, hjob, rfl⟩ := Option.map_eq_some_iff.mp hs
    refine ⟨entry_commit h.row ?_, h.acquiring, h.relock⟩
    unfold cancel at hjob
    split at hjob
    · cases hjob
      exact h.row
    · cases hjob
  | failImport now =>
    cases hs
    refine ⟨entry_commit h.row ?_, h.acquiring, h.relock⟩
    unfold failImport
    split <;> exact h.row

end Names

/-! ## Replays -/

/-- What a job is, whatever its workers do. -/
structure SubmittedJob.Proper (sources : Sources) (job : SubmittedJob) : Prop where
  copies : Copies job.state
  names : Names job.state (job.request.job 0 0).entry
  accepted : sources.accepts job.request = true
  submittedUrl : job.submittedUrl = job.request.submittedUrl

theorem Sources.repository_inj {sources : Sources} {a b : RepositorySource}
    (ha : a ∈ sources.repositories) (hb : b ∈ sources.repositories)
    (h : a.repositoryUrl = b.repositoryUrl) : a = b :=
  List.inj_on_of_nodup_map sources.urls ha hb h

/-- **An endpoint recognizes exactly the payload a job was created for**, also when the other
endpoint created it. -/
theorem matches_iff {sources : Sources} {job : SubmittedJob} {payload : Payload}
    (hjob : job.Proper sources) (hpayload : sources.accepts payload = true) :
    payload.matches job = true ↔ payload = job.request := by
  have hentry := hjob.names.row
  have haccepted := hjob.accepted
  have hurl := hjob.submittedUrl
  cases hrequest : job.request with
  | url stored =>
    rw [hrequest] at hentry hurl
    cases payload with
    | url url => simp [Payload.matches, hurl, Payload.submittedUrl, eq_comm]
    | repository source revision path name =>
      simp only [Payload.job, addJob, ImportJob.entry, Prod.mk.injEq] at hentry
      simp [Payload.matches, hentry]
  | repository stored revision path name =>
    rw [hrequest] at hentry hurl haccepted
    simp only [Sources.accepts, decide_eq_true_eq] at haccepted
    cases payload with
    | url url =>
      refine iff_of_false (fun hmatch => ?_) (by simp)
      simp only [Payload.matches, decide_eq_true_eq] at hmatch
      rw [hurl] at hmatch
      change stored.repositoryUrl = url at hmatch
      simp only [Sources.accepts, ← hmatch, sources.apart stored haccepted] at hpayload
      exact absurd hpayload (by simp)
    | repository source revision' path' name' =>
      simp only [Sources.accepts, decide_eq_true_eq] at hpayload
      simp only [Payload.job, addRepositoryJob, ImportJob.entry, Prod.mk.injEq] at hentry
      obtain ⟨hrepository, hrevision, hpath, hname⟩ := hentry
      simp only [Payload.matches, hrepository, hrevision, hpath, hname, decide_eq_true_eq,
        Option.some.injEq, Payload.repository.injEq]
      constructor
      · rintro ⟨hsource, rfl, rfl, rfl⟩
        exact ⟨(sources.repository_inj haccepted hpayload hsource).symm, rfl, rfl, rfl⟩
      · rintro ⟨rfl, rfl, rfl, rfl⟩
        exact ⟨rfl, rfl, rfl, rfl⟩

/-! ## What a run keeps -/

structure Board.Kept (sources : Sources) (settings : AdmissionSettings) (board : Board) :
    Prop where
  ids : (board.jobs.map (·.id)).Nodup
  keys : (board.jobs.map fun job => (job.requestedBy, job.idempotencyKey)).Nodup
  jobs : ∀ job ∈ board.jobs, job.Proper sources
  rate : ∀ actorId start, board.window actorId start settings.submissionRateWindowSeconds ≤
    settings.submissionRateLimit
  pending : ∀ actorId, board.takenBy actorId ≤ settings.pendingJobLimit
  globalPending : board.taken ≤ settings.globalPendingJobLimit
  ticket : ∀ ticket, board.ticket = some ticket →
    sources.accepts ticket.payload = true ∧ ticket.admittedAt ≤ board.clock ∧
      board.idempotentJob ticket.actorId ticket.idempotencyKey = none ∧
      board.recent ticket.actorId
          (ticket.admittedAt - seconds settings.submissionRateWindowSeconds) <
        settings.submissionRateLimit

section Kept

variable {sources : Sources} {settings : AdmissionSettings} {s s' : Board}

theorem Board.Kept.lookup_key (h : s.Kept sources settings) {job : SubmittedJob}
    (hjob : job ∈ s.jobs) : s.idempotentJob job.requestedBy job.idempotencyKey = some job := by
  have hsome : (s.idempotentJob job.requestedBy job.idempotencyKey).isSome := by
    rw [Board.idempotentJob, List.find?_isSome]
    exact ⟨job, hjob, by simp⟩
  obtain ⟨found, hfound⟩ := Option.isSome_iff_exists.mp hsome
  have hsame := List.find?_some hfound
  simp only [decide_eq_true_eq] at hsame
  rw [hfound]
  refine congrArg some (List.inj_on_of_nodup_map h.keys (List.mem_of_find?_eq_some hfound) hjob ?_)
  exact Prod.ext hsame.1 hsame.2

/-- A key that is not used is new among the jobs' keys. -/
theorem key_not_mem {actorId : UUID} {key : String} (h : s.idempotentJob actorId key = none) :
    (actorId, key) ∉ s.jobs.map fun job => (job.requestedBy, job.idempotencyKey) := by
  intro hmem
  obtain ⟨job, hjob, heq⟩ := List.mem_map.mp hmem
  obtain ⟨hactor, hkey⟩ := Prod.mk.inj heq
  have hnone := List.find?_eq_none.mp h job hjob
  simp [hactor, hkey] at hnone

theorem submit_eq_some {actorId : UUID} {key : String} {payload : Payload} {now : Time}
    (h : boardStep sources settings s (.submit actorId key payload now) = some s') :
    s.ticket = none ∧ s.clock ≤ now ∧ sources.accepts payload = true ∧
      s' = { s with
        ticket :=
          if admitSubmission settings s actorId key payload now = .admitted then
            some ⟨actorId, key, payload, now⟩
          else none
        clock := now } := by
  rw [boardStep] at h
  split at h
  · exact absurd h (by simp)
  · rename_i hopen
    obtain ⟨hticket, hclock, haccepts⟩ := by simpa only [not_or] using hopen
    exact ⟨Option.not_isSome_iff_eq_none.mp hticket, not_lt.mp hclock, not_not.mp haccepts,
      (Option.some.inj h).symm⟩

theorem insert_eq_some {jobId : UUID} {now : Time}
    (h : boardStep sources settings s (.insert jobId now) = some s') :
    ∃ ticket, s.ticket = some ticket ∧ s.clock ≤ now ∧ jobId ∉ s.jobs.map (·.id) ∧
      s' = { jobs := s.jobs ++ [ticket.submitted settings jobId now], ticket := none, clock := now }
    := by
  obtain ⟨ticket, hticket, h⟩ := Option.bind_eq_some_iff.mp h
  split at h
  · exact absurd h (by simp)
  · rename_i hopen
    obtain ⟨hclock, hid⟩ := not_or.mp hopen
    exact ⟨ticket, hticket, not_lt.mp hclock, hid, (Option.some.inj h).symm⟩

theorem nodup_append_singleton {β : Type*} {f : SubmittedJob → β} {jobs : List SubmittedJob}
    {new : SubmittedJob} (h : (jobs.map f).Nodup) (hnew : f new ∉ jobs.map f) :
    ((jobs ++ [new]).map f).Nodup := by
  rw [List.map_append, List.map_singleton, ← List.concat_eq_append]
  exact h.concat hnew

/-- **Replays**: what one step does. -/
theorem step_replays {e : BoardEvent} (h : s.Kept sources settings)
    (hstep : boardStep sources settings s e = some s') : Replays settings s e s' := by
  rintro actorId key payload now rfl job hjob rfl rfl
  obtain ⟨hticket, -, haccepts, rfl⟩ := submit_eq_some hstep
  have hadmission : admitSubmission settings s job.requestedBy job.idempotencyKey payload now =
      if payload = job.request then .existing job.id else .conflict := by
    rw [admitSubmission, h.lookup_key hjob]
    simp only [matches_iff (h.jobs job hjob) haccepts]
  have hnot :
      admitSubmission settings s job.requestedBy job.idempotencyKey payload now ≠ .admitted := by
    rw [hadmission]
    split <;> simp
  exact ⟨hadmission, by rw [if_neg hnot, hticket]⟩

/-- The checks that an admitted submission has passed. -/
theorem admit_eq_admitted {actorId : UUID} {key : String} {payload : Payload} {now : Time}
    (h : admitSubmission settings s actorId key payload now = .admitted) :
    s.idempotentJob actorId key = none ∧
      s.recent actorId (now - seconds settings.submissionRateWindowSeconds) <
        settings.submissionRateLimit ∧
      s.activeOf actorId < settings.pendingJobLimit ∧
      s.activeAll < settings.globalPendingJobLimit := by
  unfold admitSubmission at h
  split at h
  · split at h <;> exact absurd h (by simp)
  · rename_i hnone
    split at h
    · exact absurd h (by simp)
    · split at h
      · exact absurd h (by simp)
      · split at h
        · exact absurd h (by simp)
        · rename_i hrate hpending hglobal
          exact ⟨hnone, not_le.mp hrate, not_le.mp hpending, not_le.mp hglobal⟩

theorem kept_submit {actorId : UUID} {key : String} {payload : Payload} {now : Time}
    (h : s.Kept sources settings)
    (hstep : boardStep sources settings s (.submit actorId key payload now) = some s') :
    s'.Kept sources settings := by
  obtain ⟨-, -, haccepts, rfl⟩ := submit_eq_some hstep
  have hactive : ∀ user, s.activeOf user ≤ settings.pendingJobLimit := fun user =>
    le_trans (Nat.le_add_right _ _) (h.pending user)
  have hall : s.activeAll ≤ settings.globalPendingJobLimit :=
    le_trans (Nat.le_add_right _ _) h.globalPending
  by_cases hadmission : admitSubmission settings s actorId key payload now = .admitted
  · obtain ⟨hnone, hrate, hpending, hglobal⟩ := admit_eq_admitted hadmission
    rw [if_pos hadmission]
    refine ⟨h.ids, h.keys, h.jobs, h.rate, fun user => ?_, hglobal, fun ticket heq => ?_⟩
    · change s.activeOf user + (if decide (actorId = user) then 1 else 0) ≤ _
      by_cases huser : actorId = user
      · subst huser
        simpa using Nat.succ_le_of_lt hpending
      · simpa [huser] using hactive user
    · obtain rfl := Option.some.inj heq
      exact ⟨haccepts, le_refl now, hnone, hrate⟩
  · rw [if_neg hadmission]
    exact ⟨h.ids, h.keys, h.jobs, h.rate, hactive, hall, fun _ hno => absurd hno (by simp)⟩

/-- The new job has its place since its ticket was given. -/
theorem kept_insert {jobId : UUID} {now : Time} (h : s.Kept sources settings)
    (hstep : boardStep sources settings s (.insert jobId now) = some s') :
    s'.Kept sources settings := by
  obtain ⟨ticket, hticket, hclock, hid, rfl⟩ := insert_eq_some hstep
  obtain ⟨haccepts, htime, hnone, hrecent⟩ := h.ticket ticket hticket
  refine ⟨nodup_append_singleton h.ids hid, nodup_append_singleton h.keys (key_not_mem hnone),
    ?_, ?_, ?_, ?_, fun _ hno => absurd hno (by simp)⟩
  · intro job hjob
    rcases List.mem_append.mp hjob with hold | hnew
    · exact h.jobs job hold
    · obtain rfl := List.mem_singleton.mp hnew
      refine ⟨fun worker => ⟨?_, ?_⟩, ⟨?_, ?_, ?_⟩, haccepts, rfl⟩
      · exact fun _ hno => by cases hno
      · exact fun _ hno => by cases hno
      · cases hpayload : ticket.payload <;> simp [Ticket.submitted, hpayload] <;> rfl
      · exact fun _ _ hno => by cases hno
      · exact fun _ _ hno => by cases hno
  · intro user start
    have hold := h.rate user start
    rw [Board.window, List.countP_append, List.countP_singleton]
    split
    · rename_i hin
      simp only [Bool.and_eq_true, decide_eq_true_eq] at hin
      obtain ⟨⟨huser, hstart⟩, hend⟩ := hin
      change ticket.actorId = user at huser
      change now ≤ start + seconds settings.submissionRateWindowSeconds at hend
      subst huser
      -- what the window counts, the ticket's check has counted
      have hmono : s.window ticket.actorId start settings.submissionRateWindowSeconds ≤
          s.recent ticket.actorId
            (ticket.admittedAt - seconds settings.submissionRateWindowSeconds) := by
        refine List.countP_mono_left fun job _ hcounted => ?_
        simp only [Bool.and_eq_true, decide_eq_true_eq] at hcounted ⊢
        refine ⟨hcounted.1.1, le_trans ?_ hcounted.1.2⟩
        exact sub_le_iff_le_add.mpr (le_trans htime (le_trans hclock hend))
      rw [Board.window] at hmono
      omega
    · exact hold
  · intro user
    have hold := h.pending user
    rw [Board.takenBy, hticket, Option.any_some] at hold
    rw [Board.takenBy, Board.activeOf, List.countP_append, List.countP_singleton]
    rw [Board.activeOf] at hold
    refine le_trans ?_ hold
    by_cases huser : ticket.actorId = user
    · simp only [huser, Option.any_none, decide_true, if_true]
      split <;> simp
    · simp [Ticket.submitted, huser]
  · have hold := h.globalPending
    rw [Board.taken, hticket, Option.isSome_some, if_pos rfl] at hold
    rw [Board.taken, Board.activeAll, List.countP_append, List.countP_singleton]
    rw [Board.activeAll] at hold
    refine le_trans ?_ hold
    split <;> simp

/-- What a job event does to the board. -/
theorem job_eq_some {jobId : UUID} {event : Event}
    (h : boardStep sources settings s (.job jobId event) = some s') :
    ∃ job state, lookup (·.id) s.jobs jobId = some job ∧ acquired job.state event = true ∧
      step job.state event = some state ∧
      s' = { s with jobs := replace (·.id) s.jobs { job with state } } := by
  obtain ⟨job, hjob, h⟩ := Option.bind_eq_some_iff.mp h
  split at h
  · rename_i hacquired
    obtain ⟨state, hstate, rfl⟩ := Option.map_eq_some_iff.mp h
    exact ⟨job, state, hjob, hacquired, hstate, rfl⟩
  · exact absurd h (by simp)

/-- A changed job keeps within a limit when it was counted before or there is a place left. -/
theorem room_replace {jobs : List SubmittedJob} {old new : SubmittedJob} {p : SubmittedJob → Bool}
    {held limit : Nat} (hids : (jobs.map (·.id)).Nodup)
    (hfound : lookup (·.id) jobs new.id = some old) (hold : jobs.countP p + held ≤ limit)
    (hroom : p new = true → p old = true ∨ jobs.countP p + held < limit) :
    (replace (·.id) jobs new).countP p + held ≤ limit := by
  have hadd := countP_replace (p := p) hids hfound
  cases hnew : p new with
  | false =>
    rw [hnew, if_neg Bool.false_ne_true] at hadd
    omega
  | true =>
    rw [hnew, if_pos rfl] at hadd
    rcases hroom hnew with hbefore | hfree
    · rw [hbefore, if_pos rfl] at hadd
      omega
    · split at hadd <;> omega

/-- **A job's step keeps the bounds**: it takes no place, or it is a revival that finds one. -/
theorem kept_job {jobId : UUID} {event : Event} (h : s.Kept sources settings)
    (hretry : event.isRetry = false) (hroom : overfills settings s (.job jobId event) = false)
    (hstep : boardStep sources settings s (.job jobId event) = some s') :
    s'.Kept sources settings := by
  obtain ⟨job, state, hjob, hacquired, hstate, rfl⟩ := job_eq_some hstep
  have hid : job.id = jobId := key_of_lookup hjob
  have hfound : lookup (·.id) s.jobs ({ job with state } : SubmittedJob).id = some job := by
    rw [← hid] at hjob
    exact hjob
  have hproper := h.jobs job (mem_of_lookup hjob)
  have hcolumns : ∀ {β : Type} (f : SubmittedJob → β), f { job with state } = f job →
      (replace (·.id) s.jobs { job with state }).map f = s.jobs.map f := by
    intro β f hf
    rw [map_replace h.ids hfound (g := id) hf]
    simp
  have hsame : ∀ p : SubmittedJob → Bool, p { job with state } = p job →
      (replace (·.id) s.jobs { job with state }).countP p = s.jobs.countP p := by
    intro p hp
    have hadd := countP_replace (p := p) h.ids hfound
    rw [hp] at hadd
    omega
  have hactive : state.job.status.active = true → job.active = true ∨
      s.takenBy job.requestedBy < settings.pendingJobLimit ∧
        s.taken < settings.globalPendingJobLimit := by
    intro hnew
    cases hrevives : revives job.state event with
    | false => exact Or.inl (active_step hproper.copies hrevives hretry hstate hnew)
    | true =>
      rw [overfills, hjob, Option.any_some, hrevives, Bool.true_and] at hroom
      simpa using Or.inr hroom
  refine ⟨?_, ?_, ?_, ?_, ?_, ?_, ?_⟩
  · exact (hcolumns (·.id) rfl) ▸ h.ids
  · exact (hcolumns (fun job => (job.requestedBy, job.idempotencyKey)) rfl) ▸ h.keys
  · intro other hother
    rcases mem_replace hother with rfl | hold
    · exact ⟨copies_step hproper.copies hstate, names_step hproper.names hacquired hstate,
        hproper.accepted, hproper.submittedUrl⟩
    · exact h.jobs other hold
  · intro user start
    exact le_trans (le_of_eq (hsame _ rfl)) (h.rate user start)
  · intro user
    refine room_replace h.ids hfound (h.pending user) fun hnew => ?_
    simp only [Bool.and_eq_true, decide_eq_true_eq] at hnew ⊢
    obtain ⟨rfl, hnew⟩ := hnew
    exact (hactive hnew).imp (fun hbefore => ⟨rfl, hbefore⟩) And.left
  · exact room_replace h.ids hfound h.globalPending fun hnew => (hactive hnew).imp_right And.right
  · intro ticket hticket
    obtain ⟨haccepts, htime, hnone, hrecent⟩ := h.ticket ticket hticket
    refine ⟨haccepts, htime, ?_, lt_of_le_of_lt (le_of_eq (hsame _ rfl)) hrecent⟩
    refine List.find?_eq_none.mpr fun other hother => ?_
    rcases mem_replace hother with rfl | hold
    · exact List.find?_eq_none.mp hnone job (mem_of_lookup hjob)
    · exact List.find?_eq_none.mp hnone other hold

theorem board_step {e : BoardEvent} (h : s.Kept sources settings) (hretry : e.retries = false)
    (hroom : overfills settings s e = false) (hstep : boardStep sources settings s e = some s') :
    s'.Kept sources settings := by
  cases e with
  | submit actorId key payload now => exact kept_submit h hstep
  | insert jobId now => exact kept_insert h hstep
  | abandon =>
    cases hstep
    have hpending : ∀ user, s.activeOf user ≤ settings.pendingJobLimit := fun user =>
      le_trans (Nat.le_add_right _ _) (h.pending user)
    have hglobal : s.activeAll ≤ settings.globalPendingJobLimit :=
      le_trans (Nat.le_add_right _ _) h.globalPending
    exact ⟨h.ids, h.keys, h.jobs, h.rate, hpending, hglobal, fun _ hno => absurd hno (by simp)⟩
  | job jobId event => exact kept_job h hretry hroom hstep

/-! ## Runs -/

/-- No submission yet. -/
def newBoard (clock : Time) : Board := ⟨[], none, clock⟩

theorem newBoard_kept (clock : Time) : (newBoard clock).Kept sources settings :=
  ⟨List.nodup_nil, List.nodup_nil, fun _ hno => absurd hno (by simp [newBoard]),
    fun _ _ => Nat.zero_le _, fun _ => Nat.zero_le _, Nat.zero_le _,
    fun _ hno => absurd hno (by simp [newBoard])⟩

end Kept

/-- **Admission keeps its promises along every run, without manual retries, in which no revival
finds the places taken.** -/
theorem admission_bounds (sources : Sources) (settings : AdmissionSettings) (clock : Time)
    (events : List BoardEvent) (hretry : ∀ e ∈ events, e.retries = false)
    (hroom : Along (boardStep sources settings) (fun s e _ => overfills settings s e = false)
      (newBoard clock) events) : Admits sources settings (newBoard clock) events := by
  have hok : Along (boardStep sources settings)
      (fun s e _ => overfills settings s e = false ∧ e.retries = false) (newBoard clock) events :=
    along_and.mpr ⟨hroom, along_of_mem hretry _⟩
  have hkeep : ∀ s e s', s.Kept sources settings →
      overfills settings s e = false ∧ e.retries = false →
      boardStep sources settings s e = some s' → s'.Kept sources settings :=
    fun _ _ _ hk hboth hstep => board_step hk hboth.2 hboth.1 hstep
  refine ⟨?_, ?_, ?_, ?_, ?_⟩
  · exact always_of_inv hkeep (fun _ hk => hk.keys) (newBoard_kept clock) hok
  · exact along_of_inv hkeep (fun _ _ _ hk _ hstep => step_replays hk hstep)
      (newBoard_kept clock) hok
  · exact always_of_inv hkeep (fun _ hk user => le_trans (Nat.le_add_right _ _) (hk.pending user))
      (newBoard_kept clock) hok
  · exact always_of_inv hkeep (fun _ hk => le_trans (Nat.le_add_right _ _) hk.globalPending)
      (newBoard_kept clock) hok
  · exact always_of_inv hkeep (fun _ hk => hk.rate) (newBoard_kept clock) hok

/-- One page and one repository. -/
def plainSources : Sources where
  repositories := [⟨"seeed_wiki", "https://github.com/Seeed-Studio/wiki-documents"⟩]
  pages := fun url => url = "https://arduino-tex.ru/lcd"
  urls := by decide
  apart := by decide

/-- One active job for each user. -/
def plainAdmission : AdmissionSettings := ⟨1, 10, 10, 60, 4⟩

def plainPage : Payload := .url "https://arduino-tex.ru/lcd"

def plainEntry : Payload :=
  .repository ⟨"seeed_wiki", "https://github.com/Seeed-Studio/wiki-documents"⟩ "main" "docs/lcd.md"
    none

/-- A user's job is cancelled before the next one is submitted, and a replay of the first key finds
the cancelled job. -/
theorem admission_bounds_cancelled :
    Admits plainSources plainAdmission (newBoard 0)
      [.submit 1 "a" plainPage 0, .insert 101 1, .job 101 (.claim 0 true 2 900),
        .job 101 (.cancel 3), .submit 1 "b" plainEntry 4, .insert 102 5,
        .submit 1 "a" plainPage 6] :=
  admission_bounds _ _ _ _ (by decide) (by decide +kernel)

/-- The worker of the cancelled job schedules its retry while the user's only place is taken. -/
theorem admission_exceeded :
    ¬Admits plainSources plainAdmission (newBoard 0)
      [.submit 1 "a" plainPage 0, .insert 101 1, .job 101 (.claim 0 true 2 900),
        .job 101 (.cancel 3), .submit 1 "b" plainEntry 4, .insert 102 5,
        .job 101 (.exit 0 .transient 6)] := by
  intro h
  have hlast := h.pending _ [] _ (List.append_nil _).symm rfl 1
  exact absurd hlast (by decide +kernel)

end ComponentKb.Imports
