import ComponentKb.Auth.Programs

/-!
# Password resets

A reset stores a new hash and revokes the sessions of the user under the lock of the user's row. A
login reads the hash without a lock, and it locks the row only to mark the login: the session and
the hash with new parameters that it writes are then those of a password that may have been reset in
between.

* `reset_final_iff`: resets are final along a run exactly when no login commits with a password that
  the stored hash does not accept any more.
* `stale_login`: such a login brings the old password back.
-/

namespace ComponentKb.Auth

open ComponentKb.Lib

/-! ## Resets -/

/-- The password that a reset gave to a user. -/
def Credential.resets (userId : UUID) : Credential → Option String
  | .reset id password => if id = userId then some password else none
  | .obtained .. => none

/-- The password of the last reset. -/
def lastReset (history : List Credential) (userId : UUID) : Option String :=
  history.reverse.findSome? (Credential.resets userId)

/-- **A reset is final**: the stored hash accepts its password and no other, and the sessions that
are valid were obtained with it. -/
structure Final (env : Env) (db : Db) : Prop where
  hash : ∀ id password, lastReset db.history id = some password →
    ∀ user, db.user id = some user → ∀ p, env.passwords.accepts user.passwordHash p ↔ p = password
  sessions : ∀ id password, lastReset db.history id = some password →
    ∀ session ∈ db.sessions, session.userId = id → ∀ now, session.valid now →
      ∀ p, .obtained session.id id p ∈ db.history → p = password

/-- A login commits with a password that the hash of its user does not accept any more. -/
def Stale (env : Env) (w : Server Db Key AuthError Request) (a : Action Request Time) : Prop :=
  ∃ o ∈ w.committing a, ∃ password ∈ o.request.attempt, ∃ user ∈ w.committed.users,
    .user user.id ∈ o.held ∧ env.passwords.accepts user.passwordHash password = false

section History

variable {history : List Credential} {id userId sessionId : UUID} {password p : String}

theorem lastReset_obtained : lastReset (history ++ [.obtained sessionId userId p]) id =
    lastReset history id := by
  unfold lastReset
  rw [List.reverse_append]
  rfl

theorem lastReset_reset : lastReset (history ++ [.reset userId password]) id =
    if userId = id then some password else lastReset history id := by
  unfold lastReset
  rw [List.reverse_append, List.reverse_singleton, List.singleton_append, List.findSome?_cons]
  by_cases hsame : userId = id
  · rw [Credential.resets, if_pos hsame, if_pos hsame]
  · rw [Credential.resets, if_neg hsame, if_neg hsame]

theorem mem_of_lastReset (h : lastReset history id = some password) :
    .reset id password ∈ history := by
  obtain ⟨c, hmem, hc⟩ := List.exists_of_findSome?_eq_some h
  cases c with
  | obtained sessionId userId p => cases hc
  | reset userId p =>
    unfold Credential.resets at hc
    dsimp only at hc
    split at hc
    · rename_i hsame
      obtain rfl := Option.some.inj hc
      rw [← hsame]
      exact List.mem_reverse.mp hmem
    · cases hc

theorem lastReset_of_mem (h : .reset id p ∈ history) :
    ∃ password, lastReset history id = some password := by
  refine Option.isSome_iff_exists.mp (List.findSome?_isSome_iff.mpr ⟨_, List.mem_reverse.mpr h, ?_⟩)
  rw [Credential.resets, if_pos rfl]
  rfl

end History

/-- What the history names is stored. -/
structure Recorded (db : Db) : Prop where
  obtained : ∀ sessionId userId p, .obtained sessionId userId p ∈ db.history →
    ∃ session ∈ db.sessions, session.id = sessionId
  reset : ∀ userId p, .reset userId p ∈ db.history → (db.user userId).isSome

section Resets

variable {env : Env} {request : Request} {held : List Key} {s s' : Db} {now : Time}
  {userId : UUID} {password : String}

/-- A session is valid at some time unless it is revoked. -/
theorem AuthSession.exists_valid {session : AuthSession} (h : session.revokedAt = none) :
    ∃ now, session.valid now := by
  refine ⟨session.expiresAt - 1, Bool.and_eq_true_iff.mpr ⟨decide_eq_true h, decide_eq_true ?_⟩⟩
  exact Int.sub_lt_self _ Int.one_pos

theorem AuthSession.unrevoked {session : AuthSession} (h : session.valid now) :
    session.revokedAt = none :=
  of_decide_eq_true (Bool.and_eq_true_iff.mp h).1

theorem exists_revoked {sessionIds : List UUID} {session : AuthSession}
    (h : session ∈ s.sessions) :
    ∃ session' ∈ (s.revokeSessions sessionIds now).sessions, session'.id = session.id := by
  refine ⟨_, List.mem_map_of_mem h, ?_⟩
  split
  · exact AuthSession.revoke_id session
  · rfl

/-- Sessions stay. -/
theorem Commits.sessions (h : Commits env request held s s') {session : AuthSession}
    (hmem : session ∈ s.sessions) : ∃ session' ∈ s'.sessions, session'.id = session.id := by
  cases h with
  | loggedIn _ _ _ _ _ _ _ => exact ⟨session, List.mem_append_left _ hmem, rfl⟩
  | created _ _ _ _ _ _ _ => exact ⟨session, hmem, rfl⟩
  | registered _ _ _ _ _ _ _ _ _ => exact ⟨session, List.mem_append_left _ hmem, rfl⟩
  | regranted _ _ _ _ _ _ _ _ _ _ => exact exists_revoked (s := Db.addGrants _ _) hmem
  | disabled _ _ _ => exact exists_revoked (s := Db.updateUser _ _ _) hmem
  | reset _ _ _ => exact exists_revoked (s := Db.resetPassword _ _ _ _ _) hmem
  | loggedOut _ => exact exists_revoked hmem

/-- What a commit adds to the history. -/
theorem Commits.history (h : Commits env request held s s') :
    s'.history = s.history ∨
      (∃ session ∈ s'.sessions, ∃ p,
        s'.history = s.history ++ [.obtained session.id session.userId p]) ∨
      ∃ id p, (s.user id).isSome ∧ s'.history = s.history ++ [.reset id p] := by
  cases h with
  | loggedIn _ _ _ _ _ _ _ =>
    exact Or.inr (Or.inl ⟨_, List.mem_append_right _ (List.mem_singleton_self _), _, rfl⟩)
  | created _ _ _ _ _ _ _ => exact Or.inl rfl
  | registered _ _ _ _ _ _ _ _ _ =>
    exact Or.inr (Or.inl ⟨_, List.mem_append_right _ (List.mem_singleton_self _), _, rfl⟩)
  | regranted _ _ _ _ _ _ _ _ _ _ => exact Or.inl rfl
  | disabled _ _ _ => exact Or.inl rfl
  | reset _ huser _ => exact Or.inr (Or.inr ⟨_, _, huser, rfl⟩)
  | loggedOut _ => exact Or.inl rfl

theorem Commits.recorded (h : Commits env request held s s') (hhashed : Hashed env.passwords s)
    (hi : Recorded s) : Recorded s' := by
  have hrely : Rely env.passwords [] s s' := h.rely hhashed (by simp)
  have hold : ∀ sessionId userId p, .obtained sessionId userId p ∈ s.history →
      ∃ session ∈ s'.sessions, session.id = sessionId := by
    intro sessionId userId p hmem
    obtain ⟨session, hsession, rfl⟩ := hi.obtained sessionId userId p hmem
    exact h.sessions hsession
  have hold' : ∀ userId p, .reset userId p ∈ s.history → (s'.user userId).isSome :=
    fun userId p hmem => hrely.user (hi.reset userId p hmem)
  rcases h.history with hsame | ⟨new, hnew, q, hsame⟩ | ⟨id, q, hid, hsame⟩
  · exact ⟨hsame ▸ hold, hsame ▸ hold'⟩
  · constructor
    · intro sessionId userId p hmem
      rw [hsame] at hmem
      rcases List.mem_append.mp hmem with hmem | hmem
      · exact hold sessionId userId p hmem
      · injection List.mem_singleton.mp hmem with hid
        exact ⟨new, hnew, hid.symm⟩
    · intro userId p hmem
      rw [hsame] at hmem
      rcases List.mem_append.mp hmem with hmem | hmem
      · exact hold' userId p hmem
      · cases List.mem_singleton.mp hmem
  · constructor
    · intro sessionId userId p hmem
      rw [hsame] at hmem
      rcases List.mem_append.mp hmem with hmem | hmem
      · exact hold sessionId userId p hmem
      · cases List.mem_singleton.mp hmem
    · intro userId p hmem
      rw [hsame] at hmem
      rcases List.mem_append.mp hmem with hmem | hmem
      · exact hold' userId p hmem
      · injection List.mem_singleton.mp hmem with hsameid
        rw [hsameid]
        exact hrely.user hid

/-! ## Commits -/

/-- What keeps resets final: the hashes that are stored and the sessions that are started are those
of the last reset. -/
theorem Final.kept (hi : Final env s)
    (hlast : ∀ id, lastReset s'.history id = lastReset s.history id)
    (husers : ∀ id password, lastReset s.history id = some password → ∀ user',
      s'.user id = some user' →
        (∃ user, s.user id = some user ∧ user'.passwordHash = user.passwordHash) ∨
          ∀ p, env.passwords.accepts user'.passwordHash p ↔ p = password)
    (hsessions : ∀ session ∈ s'.sessions, session.revokedAt = none → ∀ p,
      .obtained session.id session.userId p ∈ s'.history →
        (session ∈ s.sessions ∧ .obtained session.id session.userId p ∈ s.history) ∨
          ∀ password, lastReset s.history session.userId = some password → p = password) :
    Final env s' := by
  constructor
  · intro id password hreset user' huser' p
    rw [hlast] at hreset
    rcases husers id password hreset user' huser' with ⟨user, huser, hsame⟩ | hnew
    · rw [hsame]
      exact hi.hash id password hreset user huser p
    · exact hnew p
  · intro id password hreset session hsession howner now hvalid p hobtained
    rw [hlast] at hreset
    subst howner
    rcases hsessions session hsession (AuthSession.unrevoked hvalid) p hobtained with
      ⟨hold, hobtained'⟩ | hnew
    · exact hi.sessions _ password hreset session hold rfl now hvalid p hobtained'
    · exact hnew password hreset

/-- What is recorded of a new session is its own. -/
theorem Recorded.obtained_new (hi : Recorded s) {sessionId id : UUID} {p q : String}
    (hunused : s.unused sessionId)
    (h : .obtained sessionId id p ∈ s.history ++ [.obtained sessionId userId q]) : p = q := by
  rcases List.mem_append.mp h with hold | hnew
  · obtain ⟨session, hsession, hid⟩ := hi.obtained sessionId id p hold
    exact absurd hid (hunused.2.2 session hsession)
  · injection List.mem_singleton.mp hnew

/-- What is recorded of another session was recorded before. -/
theorem obtained_old {sessionId other id : UUID} {p q : String} (hne : other ≠ sessionId)
    (h : .obtained other id p ∈ s.history ++ [.obtained sessionId userId q]) :
    .obtained other id p ∈ s.history := by
  rcases List.mem_append.mp h with hold | hnew
  · exact hold
  · injection List.mem_singleton.mp hnew with hid
    exact absurd hid hne

/-- A login whose password the hash of its user accepts. -/
theorem Final.loggedIn {session : AuthSession} {user : User} {replacement : Option String}
    (hi : Final env s) (hrec : Recorded s) (howner : session.userId = userId)
    (hunused : s.unused session.id) (huser : s.user userId = some user)
    (haccepts : env.passwords.accepts user.passwordHash password)
    (hreplacement : ∀ hash ∈ replacement, ∃ salt, hash = env.passwords.hash salt password) :
    Final env ((s.createSession session password).updateUser userId
      (User.markLogin now replacement)) := by
  refine hi.kept (fun id => lastReset_obtained) ?_ ?_
  · intro id last hreset user' huser'
    have hid : ∀ user, (User.markLogin now replacement user).id = user.id := fun _ => rfl
    rw [Db.updateUser_user hid, Db.createSession_user] at huser'
    split at huser'
    · rename_i hsame
      subst hsame
      rw [huser] at huser'
      obtain rfl := Option.some.inj huser'
      cases replacement with
      | none => exact Or.inl ⟨user, huser, rfl⟩
      | some hash =>
        obtain ⟨salt, rfl⟩ := hreplacement hash rfl
        have hpassword : password = last :=
          (hi.hash id last hreset user huser password).mp haccepts
        rw [← hpassword]
        exact Or.inr fun p => env.passwords.accepts_hash salt password p
    · exact Or.inl ⟨user', huser', rfl⟩
  · intro other hother _ p hobtained
    rcases List.mem_append.mp hother with hold | hnew
    · exact Or.inl ⟨hold, obtained_old (hunused.2.2 other hold) hobtained⟩
    · obtain rfl := List.mem_singleton.mp hnew
      refine Or.inr fun last hreset => ?_
      rw [howner] at hreset
      rw [hrec.obtained_new hunused hobtained]
      exact (hi.hash userId last hreset user huser password).mp haccepts

theorem updateUser_hash (userId : UUID) (change : User → User)
    (hid : ∀ user, (change user).id = user.id)
    (hhash : ∀ user, (change user).passwordHash = user.passwordHash) {id : UUID} {user' : User}
    (h : (s.updateUser userId change).user id = some user') :
    ∃ user, s.user id = some user ∧ user'.passwordHash = user.passwordHash := by
  rw [Db.updateUser_user hid] at h
  split at h
  · obtain ⟨user, huser, rfl⟩ := Option.map_eq_some_iff.mp h
    exact ⟨user, huser, hhash user⟩
  · exact ⟨user', h, rfl⟩

/-- A user that is added has had no reset. -/
theorem Recorded.addUser (hi : Recorded s) {user : User} (hunused : s.user user.id = none) {id : UUID}
    (hreset : (lastReset s.history id).isSome) : (s.addUser user).user id = s.user id := by
  obtain ⟨p, hp⟩ := Option.isSome_iff_exists.mp hreset
  have hsome := hi.reset id p (mem_of_lastReset hp)
  have hne : user.id ≠ id := by
    intro hsame
    rw [hsame] at hunused
    rw [hunused] at hsome
    cases hsome
  rw [Db.addUser_user, if_neg hne, Option.or_none]

/-- A reset is final when it commits. -/
theorem Final.reset {sessionIds : List UUID} {salt : String} (hi : Final env s)
    (hfound : ∀ session ∈ s.sessions, session.userId = userId → session.revokedAt = none →
      session.id ∈ sessionIds) :
    Final env ((s.resetPassword userId (env.passwords.hash salt password) password
      now).revokeSessions sessionIds now) := by
  have huser : ∀ id, ((s.resetPassword userId (env.passwords.hash salt password) password
      now).revokeSessions sessionIds now).user id =
      if id = userId then (s.user id).map (User.setPassword (env.passwords.hash salt password) now)
      else s.user id := fun id => Db.updateUser_user fun _ => rfl
  constructor
  · intro id last hreset user' huser' p
    rw [huser] at huser'
    change lastReset (s.history ++ [.reset userId password]) id = some last at hreset
    rw [lastReset_reset] at hreset
    by_cases hsame : id = userId
    · rw [if_pos hsame.symm] at hreset
      rw [if_pos hsame] at huser'
      obtain rfl := Option.some.inj hreset
      obtain ⟨user, -, rfl⟩ := Option.map_eq_some_iff.mp huser'
      exact env.passwords.accepts_hash salt password p
    · rw [if_neg (Ne.symm hsame)] at hreset
      rw [if_neg hsame] at huser'
      exact hi.hash id last hreset user' huser' p
  · intro id last hreset session hsession howner t hvalid p hobtained
    change lastReset (s.history ++ [.reset userId password]) id = some last at hreset
    have hnone := AuthSession.unrevoked hvalid
    obtain ⟨hold, hfree⟩ := Db.mem_revokeSessions hsession hnone
    have hne : userId ≠ id := by
      rintro rfl
      exact hfree (hfound session hold howner hnone)
    rw [lastReset_reset, if_neg hne] at hreset
    refine hi.sessions id last hreset session hold howner t hvalid p ?_
    rcases List.mem_append.mp hobtained with hobtained | hnew
    · exact hobtained
    · cases List.mem_singleton.mp hnew

/-- **Commits keep resets final**, where the hash of a user who logs in accepts the password. -/
theorem Commits.final (h : Commits env request held s s') (hrec : Recorded s) (hi : Final env s)
    (hfresh : ∀ p ∈ request.attempt, ∀ id user, .user id ∈ held → s.user id = some user →
      env.passwords.accepts user.passwordHash p) : Final env s' := by
  cases h with
  | @loggedIn name password _ sessionId userId tokenHash salt _ _ user _ _ hrow _ _ hunused huser _
      hreplacement =>
    exact hi.loggedIn hrec rfl hunused huser (hfresh password rfl userId user hrow huser)
      fun hash hmem => ⟨salt, hreplacement hash hmem⟩
  | created _ _ _ huser _ _ _ =>
    refine hi.kept (fun _ => rfl) ?_ fun _ hsession _ _ hobtained => Or.inl ⟨hsession, hobtained⟩
    intro id last hreset user' huser'
    rw [Db.addGrants_user, hrec.addUser huser.1 (Option.isSome_of_eq_some hreset)] at huser'
    exact Or.inl ⟨user', huser', rfl⟩
  | @registered _ _ _ userId _ sessionId name displayName salt password _ now _ _ _ _ _ huser _
      hsession _ =>
    refine hi.kept (fun _ => lastReset_obtained) ?_ ?_
    · intro id last hreset user' huser'
      obtain ⟨user, huser', hsame⟩ := updateUser_hash
        (s := s.addUser (newUser userId name displayName (env.passwords.hash salt password) now))
        userId (User.markLogin now none) (fun _ => rfl) (fun _ => rfl) huser'
      rw [hrec.addUser huser.1 (Option.isSome_of_eq_some hreset)] at huser'
      exact Or.inl ⟨user, huser', hsame⟩
    · intro other hother _ p hobtained
      rcases List.mem_append.mp hother with hold | hnew
      · exact Or.inl ⟨hold, obtained_old (hsession.2.2 other hold) hobtained⟩
      · obtain rfl := List.mem_singleton.mp hnew
        refine Or.inr fun last hreset => ?_
        have hsome := hrec.reset userId last (mem_of_lastReset hreset)
        rw [huser.1] at hsome
        cases hsome
  | regranted _ _ _ _ _ _ _ _ _ _ =>
    refine hi.kept (fun _ => rfl) (fun _ _ _ user' huser' => Or.inl ⟨user', huser', rfl⟩) ?_
    exact fun _ hsession hnone _ hobtained =>
      Or.inl ⟨(Db.mem_revokeSessions hsession hnone).1, hobtained⟩
  | @disabled _ _ _ userId now _ _ _ _ =>
    refine hi.kept (fun _ => rfl) ?_ ?_
    · exact fun _ _ _ user' huser' => Or.inl (updateUser_hash userId (User.disable now)
        (fun _ => rfl) (fun _ => rfl) huser')
    · exact fun _ hsession hnone _ hobtained =>
        Or.inl ⟨(Db.mem_revokeSessions hsession hnone).1, hobtained⟩
  | reset _ _ hfound => exact hi.reset hfound
  | loggedOut _ =>
    refine hi.kept (fun _ => rfl) (fun _ _ _ user' huser' => Or.inl ⟨user', huser', rfl⟩) ?_
    exact fun _ hsession hnone _ hobtained =>
      Or.inl ⟨(Db.mem_revokeSessions hsession hnone).1, hobtained⟩

theorem Recorded.tick (hi : Recorded s) (h : tick s now = some s') : Recorded s' := by
  obtain ⟨-, rfl⟩ := tick_eq_some.mp h
  exact ⟨hi.obtained, hi.reset⟩

theorem Final.tick (hi : Final env s) (h : tick s now = some s') : Final env s' := by
  obtain ⟨-, rfl⟩ := tick_eq_some.mp h
  exact ⟨hi.hash, hi.sessions⟩

/-- **A stale login brings the old password back**: its session is valid and was obtained with it. -/
theorem Commits.not_final (h : Commits env request held s s') (hi : Final env s) {id : UUID}
    {user : User} (hattempt : request.attempt = some password) (hrow : .user id ∈ held)
    (hfound : s.user id = some user)
    (hstale : env.passwords.accepts user.passwordHash password = false) : ¬ Final env s' := by
  cases h with
  | @loggedIn name p remember sessionId userId tokenHash salt _ _ found now replacement _ honly _ _
      huser haccepts _ =>
    intro hfinal
    obtain rfl := Option.some.inj hattempt
    obtain rfl := honly id hrow
    obtain rfl := Option.some.inj (huser.symm.trans hfound)
    rcases haccepts with haccepts | ⟨q, hreset⟩
    · rw [hstale] at haccepts
      cases haccepts
    · obtain ⟨last, hlast⟩ := lastReset_of_mem hreset
      have hlast' : lastReset (s.history ++ [.obtained sessionId id p]) id = some last :=
        lastReset_obtained.trans hlast
      have hnone : (newSession env sessionId id tokenHash now remember).revokedAt = none := rfl
      obtain ⟨t, hvalid⟩ := AuthSession.exists_valid hnone
      have hsame : p = last := hfinal.sessions id last hlast'
        (newSession env sessionId id tokenHash now remember)
        (List.mem_append_right _ (List.mem_singleton_self _)) rfl t hvalid p
        (List.mem_append_right _ (List.mem_singleton_self _))
      have haccepts := (hi.hash id last hlast found hfound p).mpr hsame
      rw [hstale] at haccepts
      cases haccepts
  | created hno _ _ _ _ _ _ =>
    rw [hno] at hattempt
    cases hattempt
  | registered hno _ _ _ _ _ _ _ _ =>
    rw [hno] at hattempt
    cases hattempt
  | regranted hno _ _ _ _ _ _ _ _ _ =>
    rw [hno] at hattempt
    cases hattempt
  | disabled hno _ _ =>
    rw [hno] at hattempt
    cases hattempt
  | reset _ _ _ => cases hattempt
  | loggedOut hno =>
    rw [hno] at hattempt
    cases hattempt

end Resets

/-! ## Runs -/

section Runs

variable {env : Env} {w w' : Server Db Key AuthError Request} {a : Action Request Time}

/-- What the run keeps. -/
structure Sound (env : Env) (w : Server Db Key AuthError Request) : Prop where
  good : (discipline env).Good w
  recorded : Recorded w.committed
  final : Final env w.committed

theorem installation_sound (env : Env) (now : Time) : Sound env (installation now) := by
  refine ⟨installation_good env now, ⟨?_, ?_⟩, ⟨?_, ?_⟩⟩
  · intro sessionId userId p hmem
    cases hmem
  · intro userId p hmem
    cases hmem
  · intro id password hreset
    cases hreset
  · intro id password hreset
    cases hreset

theorem Sound.step (h : Sound env w) (hfresh : ¬ Stale env w a)
    (hstep : (system env).step w a = some w') : Sound env w' := by
  obtain ⟨hgood, hdoes⟩ := Discipline.step_good h.good hstep
  unfold Discipline.Does at hdoes
  split at hdoes
  · rename_i o hcommitting
    have hcommits : Commits env o.request o.held w.committed w'.committed := hdoes
    refine ⟨hgood, hcommits.recorded h.good.inv.hashed h.recorded, hcommits.final h.recorded h.final ?_⟩
    intro p hp id user hrow huser
    by_contra hno
    obtain rfl := key_of_lookup huser
    exact hfresh ⟨o, hcommitting, p, hp, user, mem_of_lookup huser, hrow, Bool.eq_false_iff.mpr hno⟩
  · rcases hdoes with hsame | ⟨now, htick⟩
    · exact ⟨hgood, hsame ▸ h.recorded, hsame ▸ h.final⟩
    · exact ⟨hgood, h.recorded.tick htick, h.final.tick htick⟩

theorem Sound.not_stale (h : Sound env w) (hstep : (system env).step w a = some w')
    (hfinal : Final env w'.committed) : ¬ Stale env w a := by
  rintro ⟨o, ho, p, hp, user, huser, hrow, hstale⟩
  have hdoes := (Discipline.step_good h.good hstep).2
  unfold Discipline.Does at hdoes
  rw [Option.mem_def.mp ho] at hdoes
  have hcommits : Commits env o.request o.held w.committed w'.committed := hdoes
  exact hcommits.not_final h.final hp hrow (lookup_of_mem h.good.inv.userIds huser) hstale hfinal

end Runs

/-- **Resets are final exactly when no stale login commits.** -/
theorem reset_final_iff (env : Env) (now : Time) (actions : List (Action Request Time)) :
    Always (system env).step (fun w => Final env w.committed) (installation now) actions ↔
      Along (system env).step (fun w a _ => ¬ Stale env w a) (installation now) actions := by
  have hstep : ∀ (w : Server Db Key AuthError Request) (a : Action Request Time)
      (w' : Server Db Key AuthError Request), Sound env w → ¬ Stale env w a →
      (system env).step w a = some w' → Sound env w' := fun _ _ _ h hfresh hstep => h.step hfresh hstep
  constructor
  · exact along_of_always hstep (fun _ _ _ h hstep hfinal => h.not_stale hstep hfinal)
      (installation_sound env now)
  · exact fun hfresh => always_of_inv hstep (fun _ h => h.final) (installation_sound env now) hfresh

/-! ## A stale login -/

/-- A login finds the password, the password is reset, and the login commits. -/
def staleRun : List (Action Request Time) :=
  .begin 1 (.register "alice" "old password" 1 2 3 "token-1" "salt-1") ::
    List.replicate 9 (.advance 1) ++
  .begin 2 (.login "alice" "old password" false 4 "token-2" "salt-2") ::
    List.replicate 3 (.advance 2) ++
  .begin 3 (.resetPassword 1 "new password" "salt-3") :: List.replicate 9 (.advance 3) ++
  List.replicate 3 (.advance 2)

/-- After the run the session of the login is valid, and it was obtained with the old password. -/
theorem stale_login : ∃ w, run (system plain).step (installation 0) staleRun = some w ∧
    ¬ Final plain w.committed := by
  have hrun : (run (system plain).step (installation 0) staleRun).any fun w =>
      lastReset w.committed.history 1 = some "new password" ∧
        ∃ session ∈ w.committed.sessions, session.userId = 1 ∧ session.valid 0 ∧
          .obtained session.id 1 "old password" ∈ w.committed.history := by
    decide +kernel
  obtain ⟨w, hw, hfound⟩ := (Option.any_eq_true _ _).mp hrun
  obtain ⟨hreset, session, hsession, howner, hvalid, hobtained⟩ := of_decide_eq_true hfound
  refine ⟨w, hw, fun hfinal => ?_⟩
  have hsame := hfinal.sessions 1 _ hreset session hsession howner 0 hvalid _ hobtained
  exact absurd hsame (by decide)

end ComponentKb.Auth
