import ComponentKb.Auth.Service
import Mathlib.Data.List.Nodup

/-!
# What the transactions of the service commit

`Commits` says what each request does to the tables when it commits, in terms of the database it
commits to: the statements before the commit have seen earlier ones, and the locks decide what is
left of what they saw. `Rely` is what a transaction knows to stay as it is while others commit.

* `program_meets`: every request does what `Commits` says, whatever is committed in between.
* `discipline`: the locks of the service are enough to check each request on its own.
* `WellFormed`: the constraints of `user_roles` and what the service adds to them.
-/

namespace ComponentKb.Auth

open ComponentKb.Lib

/-! ## Well-formed tables -/

/-- Two grants that `uq_user_roles_current_grant` forbids. -/
def UserRole.clashes (a b : UserRole) : Prop :=
  a.userId = b.userId ∧ a.role = b.role ∧ a.current ∧ b.current

instance (a b : UserRole) : Decidable (a.clashes b) := inferInstanceAs (Decidable (_ ∧ _ ∧ _ ∧ _))

/-- A row of `user_roles` that its check constraints allow. -/
structure UserRole.Checked (grant : UserRole) : Prop where
  editor : grant.role = .editor ↔ grant.expiresAt.isSome
  expires : ∀ t ∈ grant.expiresAt, grant.grantedAt < t
  revoked : ∀ t ∈ grant.revokedAt, grant.grantedAt ≤ t

/-- The constraints of `user_roles`: its primary key, its foreign keys, its checks and its unique
index. -/
structure Constraints (db : Db) : Prop where
  ids : (db.grants.map UserRole.id).Nodup
  owned : ∀ grant ∈ db.grants, (db.user grant.userId).isSome ∧
    ∀ actor ∈ grant.grantedBy, (db.user actor).isSome
  checked : ∀ grant ∈ db.grants, grant.Checked
  single : db.grants.Pairwise fun a b => ¬ a.clashes b

/-- The user keeps a role that does not expire. -/
def Db.based (db : Db) (userId : UUID) : Prop :=
  ∃ grant ∈ db.grants, grant.userId = userId ∧ grant.role ≠ .editor ∧ grant.current

structure WellFormed (db : Db) : Prop extends Constraints db where
  userIds : (db.users.map User.id).Nodup
  granted : ∀ grant ∈ db.grants, grant.grantedAt ≤ db.clock
  based : ∀ id, (db.user id).isSome → db.based id

/-! ## What stays -/

/-- What a transaction that holds some locks may rely on: users stay, a password that was accepted
is accepted until it is reset; roles and statuses stay under the lock of the memberships, a user
whose row is locked gets no sessions, and drawn ids stay new. -/
structure Rely (passwords : PasswordHasher) (held : List Key) (s s' : Db) : Prop where
  clock : s.clock ≤ s'.clock
  history : ∀ c ∈ s.history, c ∈ s'.history
  users : ∀ id user, s.user id = some user → ∃ user', s'.user id = some user' ∧
    (∀ p, passwords.accepts user.passwordHash p →
      passwords.accepts user'.passwordHash p ∨ ∃ q, .reset id q ∈ s'.history) ∧
    (.membership ∈ held → user'.status = user.status)
  grants : .membership ∈ held → ∀ id, (s.user id).isSome → s'.grantsOf id = s.grantsOf id
  sessions : ∀ id, .user id ∈ held → ∀ session ∈ s'.sessions, session.userId = id →
    session.revokedAt = none →
      ∃ old ∈ s.sessions, old.id = session.id ∧ old.userId = id ∧ old.revokedAt = none
  unused : ∀ id, .drawn id ∈ held → s.unused id → s'.unused id

section Rely

variable {passwords : PasswordHasher} {held : List Key} {s s' t : Db} {id userId : UUID}
  {now : Time}

theorem Rely.refl (passwords : PasswordHasher) (held : List Key) (s : Db) :
    Rely passwords held s s where
  clock := Int.le_refl _
  history := fun _ hc => hc
  users := fun _ user huser => ⟨user, huser, fun _ hp => Or.inl hp, fun _ => rfl⟩
  grants := fun _ _ _ => rfl
  sessions := fun _ _ session hsession hid hnone => ⟨session, hsession, rfl, hid, hnone⟩
  unused := fun _ _ h => h

theorem Rely.user (h : Rely passwords held s s') (hid : (s.user id).isSome) :
    (s'.user id).isSome := by
  obtain ⟨user, huser⟩ := Option.isSome_iff_exists.mp hid
  obtain ⟨user', huser', -⟩ := h.users id user huser
  rw [huser']
  rfl

theorem Rely.trans (h₁ : Rely passwords held s s') (h₂ : Rely passwords held s' t) :
    Rely passwords held s t where
  clock := Int.le_trans h₁.clock h₂.clock
  history := fun c hc => h₂.history c (h₁.history c hc)
  users := by
    intro id user huser
    obtain ⟨user₁, huser₁, haccepts₁, hstatus₁⟩ := h₁.users id user huser
    obtain ⟨user₂, huser₂, haccepts₂, hstatus₂⟩ := h₂.users id user₁ huser₁
    refine ⟨user₂, huser₂, ?_, fun hheld => (hstatus₂ hheld).trans (hstatus₁ hheld)⟩
    intro p hp
    rcases haccepts₁ p hp with hp | ⟨q, hq⟩
    · exact haccepts₂ p hp
    · exact Or.inr ⟨q, h₂.history _ hq⟩
  grants := fun hheld id hid => (h₂.grants hheld id (h₁.user hid)).trans (h₁.grants hheld id hid)
  sessions := by
    intro id hheld session hsession hid hnone
    obtain ⟨middle, hmiddle, hsame, hid', hnone'⟩ := h₂.sessions id hheld session hsession hid hnone
    obtain ⟨old, hold, hsame', hid'', hnone''⟩ := h₁.sessions id hheld middle hmiddle hid' hnone'
    exact ⟨old, hold, hsame'.trans hsame, hid'', hnone''⟩
  unused := fun id hheld hunused => h₂.unused id hheld (h₁.unused id hheld hunused)

/-- More locks leave the others less to do. -/
theorem Rely.mono {held' : List Key} (hsub : ∀ key ∈ held, key ∈ held')
    (h : Rely passwords held' s s') : Rely passwords held s s' where
  clock := h.clock
  history := h.history
  users := by
    intro id user huser
    obtain ⟨user', huser', haccepts, hstatus⟩ := h.users id user huser
    exact ⟨user', huser', haccepts, fun hheld => hstatus (hsub _ hheld)⟩
  grants := fun hheld => h.grants (hsub _ hheld)
  sessions := fun id hheld => h.sessions id (hsub _ hheld)
  unused := fun id hheld => h.unused id (hsub _ hheld)

theorem rely_tick (h : tick s now = some s') : Rely passwords held s s' := by
  obtain ⟨hle, rfl⟩ := tick_eq_some.mp h
  exact { Rely.refl passwords held s with clock := hle }

/-! ### One update -/

theorem rely_record (c : Credential) :
    Rely passwords held s { s with history := s.history ++ [c] } :=
  { Rely.refl passwords held s with
    history := fun _ hc => List.mem_append_left _ hc
    users := fun _ user huser => ⟨user, huser, fun _ hp => Or.inl hp, fun _ => rfl⟩ }

theorem rely_updateUser {change : User → User} (hid : ∀ user, (change user).id = user.id)
    (haccepts : ∀ user, s.user userId = some user → ∀ p,
      passwords.accepts user.passwordHash p →
        passwords.accepts (change user).passwordHash p ∨ ∃ q, .reset userId q ∈ s.history)
    (hstatus : .membership ∈ held → ∀ user, (change user).status = user.status) :
    Rely passwords held s (s.updateUser userId change) where
  clock := Int.le_refl _
  history := fun _ hc => hc
  users := by
    intro id user huser
    by_cases hsame : id = userId
    · subst hsame
      refine ⟨change user, ?_, haccepts user huser, fun hheld => hstatus hheld user⟩
      rw [Db.updateUser_user hid, if_pos rfl, huser, Option.map_some]
    · refine ⟨user, ?_, fun _ hp => Or.inl hp, fun _ => rfl⟩
      rw [Db.updateUser_user hid, if_neg hsame]
      exact huser
  grants := fun _ _ _ => rfl
  sessions := fun _ _ session hsession hid hnone => ⟨session, hsession, rfl, hid, hnone⟩
  unused := by
    rintro id - ⟨huser, hgrants, hsessions⟩
    refine ⟨?_, hgrants, hsessions⟩
    rw [Db.updateUser_user hid, huser]
    split <;> rfl

theorem rely_revokeSessions (ids : List UUID) :
    Rely passwords held s (s.revokeSessions ids now) where
  clock := Int.le_refl _
  history := fun _ hc => hc
  users := fun _ user huser => ⟨user, huser, fun _ hp => Or.inl hp, fun _ => rfl⟩
  grants := fun _ _ _ => rfl
  sessions := by
    intro id _ session hsession hid hnone
    exact ⟨session, (Db.mem_revokeSessions hsession hnone).1, rfl, hid, hnone⟩
  unused := by
    rintro id - ⟨huser, hgrants, hsessions⟩
    refine ⟨huser, hgrants, ?_⟩
    intro session hsession
    obtain ⟨old, hold, rfl⟩ := List.mem_map.mp hsession
    have hsame : (if old.id ∈ ids then old.revoke now else old).id = old.id := by
      split
      · exact AuthSession.revoke_id old
      · rfl
    rw [hsame]
    exact hsessions old hold

theorem rely_createSession (session : AuthSession) (password : String)
    (huser : .user session.userId ∉ held) (hdrawn : .drawn session.id ∉ held) :
    Rely passwords held s (s.createSession session password) where
  clock := Int.le_refl _
  history := fun _ hc => List.mem_append_left _ hc
  users := fun _ user huser => ⟨user, huser, fun _ hp => Or.inl hp, fun _ => rfl⟩
  grants := fun _ _ _ => rfl
  sessions := by
    intro id hheld other hother hid hnone
    rcases List.mem_append.mp hother with hold | hnew
    · exact ⟨other, hold, rfl, hid, hnone⟩
    · rw [List.mem_singleton.mp hnew] at hid
      rw [← hid] at hheld
      exact absurd hheld huser
  unused := by
    rintro id hheld ⟨hunused, hgrants, hsessions⟩
    refine ⟨hunused, hgrants, ?_⟩
    intro other hother
    rcases List.mem_append.mp hother with hold | hnew
    · exact hsessions other hold
    · rw [List.mem_singleton.mp hnew]
      intro hid
      rw [hid] at hdrawn
      exact hdrawn hheld

theorem rely_addUser {user : User} (hdrawn : .drawn user.id ∉ held) :
    Rely passwords held s (s.addUser user) where
  clock := Int.le_refl _
  history := fun _ hc => hc
  users := by
    intro id old hold
    refine ⟨old, ?_, fun _ hp => Or.inl hp, fun _ => rfl⟩
    rw [Db.addUser_user, hold, Option.some_or]
  grants := fun _ _ _ => rfl
  sessions := fun _ _ session hsession hid hnone => ⟨session, hsession, rfl, hid, hnone⟩
  unused := by
    rintro id hheld ⟨hunused, hgrants, hsessions⟩
    refine ⟨?_, hgrants, hsessions⟩
    have hne : user.id ≠ id := by
      rintro rfl
      exact hdrawn hheld
    rw [Db.addUser_user, hunused, if_neg hne, Option.none_or]

theorem rely_addGrants {grants : List UserRole}
    (hmembership : .membership ∈ held → ∀ grant ∈ grants, s.user grant.userId = none)
    (hdrawn : ∀ grant ∈ grants, .drawn grant.id.1 ∉ held) :
    Rely passwords held s (s.addGrants grants) where
  clock := Int.le_refl _
  history := fun _ hc => hc
  users := fun _ user huser => ⟨user, huser, fun _ hp => Or.inl hp, fun _ => rfl⟩
  grants := by
    intro hheld id hid
    have hnone : grants.filter (·.userId = id) = [] := by
      refine List.filter_eq_nil_iff.mpr fun grant hgrant hsame => ?_
      have huser := hmembership hheld grant hgrant
      rw [of_decide_eq_true hsame] at huser
      rw [huser] at hid
      cases hid
    rw [Db.grantsOf, Db.addGrants, List.filter_append, hnone, List.append_nil]
    rfl
  sessions := fun _ _ session hsession hid hnone => ⟨session, hsession, rfl, hid, hnone⟩
  unused := by
    rintro id hheld ⟨hunused, hgrants, hsessions⟩
    refine ⟨hunused, ?_, hsessions⟩
    intro grant hgrant
    rcases List.mem_append.mp hgrant with hold | hnew
    · exact hgrants grant hold
    · intro hid
      refine hdrawn grant hnew ?_
      rw [hid]
      exact hheld

theorem rely_revokeGrants {ids : List (UUID × Role)} (hmembership : .membership ∉ held) :
    Rely passwords held s (s.revokeGrants ids now) where
  clock := Int.le_refl _
  history := fun _ hc => hc
  users := fun _ user huser => ⟨user, huser, fun _ hp => Or.inl hp, fun _ => rfl⟩
  grants := fun hheld => absurd hheld hmembership
  sessions := fun _ _ session hsession hid hnone => ⟨session, hsession, rfl, hid, hnone⟩
  unused := by
    rintro id - ⟨huser, hgrants, hsessions⟩
    refine ⟨huser, ?_, hsessions⟩
    intro grant hgrant
    obtain ⟨old, hold, rfl⟩ := List.mem_map.mp hgrant
    have hsame : (if old.id ∈ ids then old.revoke now else old).id = old.id := by
      split
      · exact UserRole.revoke_id old
      · rfl
    rw [hsame]
    exact hgrants old hold

end Rely

/-! ## Commits -/

/-- The password that a login was given. -/
def Request.attempt : Request → Option String
  | .login _ password .. => some password
  | _ => none

/-- Roles that may be granted: the grant of an editor, and no other, has an expiry, in the future. -/
structure Granting (s : Db) (roles : List Role) (actor : Option UUID) (now : Time)
    (expiry : Option Time) : Prop where
  editor : Role.editor ∈ roles ↔ expiry.isSome
  expires : ∀ t ∈ expiry, now < t
  actor : ∀ a ∈ actor, (s.user a).isSome
  now : now ≤ s.clock

/-- **What the commit of a request does**, with the locks it holds. -/
inductive Commits (env : Env) : Request → List Key → Db → Db → Prop where
  | loggedIn {name password : String} {remember : Bool} {sessionId userId : UUID}
      {tokenHash salt : String} {held : List Key} {s : Db} {user : User} {now : Time}
      {replacement : Option String} :
      .user userId ∈ held → (∀ id, .user id ∈ held → id = userId) →
      .drawn sessionId ∈ held → s.unused sessionId → s.user userId = some user →
      (env.passwords.accepts user.passwordHash password ∨ ∃ q, .reset userId q ∈ s.history) →
      (∀ hash ∈ replacement, hash = env.passwords.hash salt password) →
      Commits env (.login name password remember sessionId tokenHash salt) held s
        ((s.createSession (newSession env sessionId userId tokenHash now remember)
          password).updateUser userId (User.markLogin now replacement))
  | created {request : Request} {held : List Key} {s : Db} {userId grantId : UUID}
      {name displayName salt password : String} {roles : List Role} {actor : Option UUID}
      {now : Time} {expiry : Option Time} :
      request.attempt = none → .drawn userId ∈ held → .drawn grantId ∈ held →
      s.unused userId → s.unused grantId → Granting s roles actor now expiry →
      (∃ role ∈ roles, role ≠ .editor) →
      Commits env request held s
        ((s.addUser (newUser userId name displayName (env.passwords.hash salt password)
          now)).addGrants (newGrants grantId userId roles actor now expiry))
  | registered {request : Request} {held : List Key} {s : Db}
      {userId grantId sessionId : UUID} {name displayName salt password tokenHash : String}
      {now : Time} :
      request.attempt = none → .drawn userId ∈ held → .drawn grantId ∈ held →
      .drawn sessionId ∈ held → .user userId ∈ held → s.unused userId → s.unused grantId →
      s.unused sessionId → now ≤ s.clock →
      Commits env request held s
        ((((s.addUser (newUser userId name displayName (env.passwords.hash salt password)
          now)).addGrants (newGrants grantId userId [.student] none now none)).createSession
          (newSession env sessionId userId tokenHash now false) password).updateUser userId
          (User.markLogin now none))
  | regranted {request : Request} {held : List Key} {s : Db} {userId grantId : UUID}
      {which : Role → Bool} {roles : List Role} {actor : Option UUID} {now : Time}
      {expiry : Option Time} {ids : List (UUID × Role)} {sessionIds : List UUID} :
      request.attempt = none → .membership ∈ held → (s.user userId).isSome → now ≤ s.clock →
      (∀ grant ∈ s.grants, grant.id ∈ ids ↔
        grant.userId = userId ∧ which grant.role ∧ grant.current) →
      (∀ grant ∈ s.grantsOf userId, grant.grantedAt ≤ now) →
      (∀ role ∈ roles, which role) →
      (roles ≠ [] → .drawn grantId ∈ held ∧ s.unused grantId ∧ Granting s roles actor now expiry) →
      ((∃ role, role ≠ .editor ∧ which role) → ∃ role ∈ roles, role ≠ .editor) →
      (which .administrator → .administrator ∈ roles ∨ s.isAdministrator userId = false ∨
        ∃ other, other ≠ userId ∧ s.isAdministrator other) →
      Commits env request held s
        (((s.revokeGrants ids now).addGrants
          (newGrants grantId userId roles actor now expiry)).revokeSessions sessionIds now)
  | disabled {request : Request} {held : List Key} {s : Db} {userId : UUID} {now : Time}
      {sessionIds : List UUID} :
      request.attempt = none → .membership ∈ held →
      (s.isAdministrator userId = false ∨ ∃ other, other ≠ userId ∧ s.isAdministrator other) →
      Commits env request held s
        ((s.updateUser userId (User.disable now)).revokeSessions sessionIds now)
  | reset {userId : UUID} {password salt : String} {held : List Key} {s : Db} {now : Time}
      {sessionIds : List UUID} :
      .user userId ∈ held → (s.user userId).isSome →
      (∀ session ∈ s.sessions, session.userId = userId → session.revokedAt = none →
        session.id ∈ sessionIds) →
      Commits env (.resetPassword userId password salt) held s
        ((s.resetPassword userId (env.passwords.hash salt password) password now).revokeSessions
          sessionIds now)
  | loggedOut {request : Request} {held : List Key} {s : Db} {now : Time}
      {sessionIds : List UUID} : request.attempt = none →
      Commits env request held s (s.revokeSessions sessionIds now)

section Commits

variable {env : Env} {request : Request} {held held' : List Key} {s s' : Db}
  {grantId userId : UUID} {roles : List Role} {actor : Option UUID} {now : Time}
  {expiry : Option Time} {ids : List (UUID × Role)}

theorem mem_newGrants {grant : UserRole}
    (h : grant ∈ newGrants grantId userId roles actor now expiry) :
    ∃ role ∈ roles, grant =
      { id := (grantId, role)
        userId := userId
        role := role
        grantedBy := actor
        grantedAt := now
        expiresAt := if role = .editor then expiry else none
        revokedAt := none } := by
  obtain ⟨role, hrole, rfl⟩ := List.mem_map.mp h
  have hmem : role ∈ roles := of_decide_eq_true (List.mem_filter.mp hrole).2
  exact ⟨role, hmem, rfl⟩

theorem newGrants_mem (grantId userId : UUID) (actor : Option UUID) (now : Time)
    (expiry : Option Time) {role : Role} (h : role ∈ roles) :
    ∃ grant ∈ newGrants grantId userId roles actor now expiry,
      grant.userId = userId ∧ grant.role = role ∧ grant.current := by
  have hrole : role ∈ Role.all.filter (· ∈ roles) :=
    List.mem_filter.mpr ⟨Role.mem_all role, decide_eq_true h⟩
  exact ⟨_, List.mem_map.mpr ⟨role, hrole, rfl⟩, rfl, rfl, rfl⟩

theorem Granting.checked (h : Granting s roles actor now expiry) {grant : UserRole}
    (hgrant : grant ∈ newGrants grantId userId roles actor now expiry) : grant.Checked := by
  obtain ⟨role, hrole, rfl⟩ := mem_newGrants hgrant
  by_cases heditor : role = .editor
  · subst heditor
    refine ⟨?_, ?_, fun t ht => by cases ht⟩
    · simpa using h.editor.mp hrole
    · intro t ht
      exact h.expires t (by simpa using ht)
  · refine ⟨?_, ?_, fun t ht => by cases ht⟩
    · simp [heditor]
    · intro t ht
      simp [heditor] at ht

/-- The new grants of a user are for different roles. -/
theorem newGrants_single :
    (newGrants grantId userId roles actor now expiry).Pairwise fun a b => ¬ a.clashes b := by
  have hroles : (Role.all.filter (· ∈ roles)).Nodup := List.Nodup.filter _ (by decide)
  refine List.pairwise_map.mpr (hroles.imp ?_)
  intro a b hne hclash
  exact hne hclash.2.1

theorem newGrants_ids :
    ((newGrants grantId userId roles actor now expiry).map UserRole.id).Nodup := by
  have hroles : (Role.all.filter (· ∈ roles)).Nodup := List.Nodup.filter _ (by decide)
  rw [newGrants, List.map_map]
  refine hroles.map fun a b hab => ?_
  exact congrArg Prod.snd hab

/-- Grants with an id that was new. -/
theorem ids_append {grants : List UserRole} (h : (grants.map UserRole.id).Nodup)
    (hunused : roles ≠ [] → ∀ grant ∈ grants, grant.id.1 ≠ grantId) :
    ((grants ++ newGrants grantId userId roles actor now expiry).map UserRole.id).Nodup := by
  rw [List.map_append]
  refine h.append newGrants_ids ?_
  intro id hold hnew
  obtain ⟨old, hmem, rfl⟩ := List.mem_map.mp hold
  obtain ⟨new, hmem', hid⟩ := List.mem_map.mp hnew
  obtain ⟨role, hrole, rfl⟩ := mem_newGrants hmem'
  have hroles : roles ≠ [] := List.ne_nil_of_mem hrole
  exact hunused hroles old hmem (congrArg Prod.fst hid).symm

/-- Only the memberships and the existence of users matter. -/
theorem WellFormed.of_same (h : WellFormed s) (hgrants : s'.grants = s.grants)
    (hclock : s'.clock = s.clock) (hids : s'.users.map User.id = s.users.map User.id) :
    WellFormed s' := by
  have husers : ∀ id, (s'.user id).isSome = (s.user id).isSome := by
    intro id
    have hmem : ∀ db : Db, (db.user id).isSome = true ↔ id ∈ db.users.map User.id := by
      intro db
      rw [Db.user, lookup_isSome, List.mem_map]
    rw [Bool.eq_iff_iff, hmem, hmem, hids]
  refine ⟨⟨?_, ?_, ?_, ?_⟩, ?_, ?_, ?_⟩
  · rw [hgrants]
    exact h.ids
  · intro grant hgrant
    rw [hgrants] at hgrant
    obtain ⟨huser, hactor⟩ := h.owned grant hgrant
    refine ⟨(husers _).trans huser, fun actor hmem => (husers _).trans (hactor actor hmem)⟩
  · intro grant hgrant
    rw [hgrants] at hgrant
    exact h.checked grant hgrant
  · rw [hgrants]
    exact h.single
  · rw [hids]
    exact h.userIds
  · intro grant hgrant
    rw [hgrants] at hgrant
    rw [hclock]
    exact h.granted grant hgrant
  · intro id hid
    rw [husers] at hid
    unfold Db.based
    rw [hgrants]
    exact h.based id hid

theorem WellFormed.tick (h : WellFormed s) (htick : tick s now = some s') : WellFormed s' := by
  obtain ⟨hle, rfl⟩ := tick_eq_some.mp htick
  exact { h with granted := fun grant hgrant => Int.le_trans (h.granted grant hgrant) hle }

theorem updateUser_ids {change : User → User} (hid : ∀ user, (change user).id = user.id) :
    (s.updateUser userId change).users.map User.id = s.users.map User.id := by
  rw [Db.updateUser, List.map_map]
  refine List.map_congr_left fun user _ => ?_
  rw [Function.comp_apply]
  split
  · exact hid user
  · rfl

/-- A new user with its roles. -/
theorem WellFormed.created {user : User} (h : WellFormed s) (hid : user.id = userId)
    (huser : s.unused userId) (hgrant : s.unused grantId)
    (hgranting : Granting s roles actor now expiry) (hbase : ∃ role ∈ roles, role ≠ .editor) :
    WellFormed ((s.addUser user).addGrants (newGrants grantId userId roles actor now expiry)) := by
  have hold : ∀ id, (s.user id).isSome → ((s.addUser user).user id).isSome := by
    intro id hsome
    obtain ⟨old, hfound⟩ := Option.isSome_iff_exists.mp hsome
    rw [Db.addUser_user, hfound]
    rfl
  have hnew : ((s.addUser user).user userId).isSome := by
    rw [Db.addUser_user, huser.1, Option.none_or, if_pos hid]
    rfl
  refine ⟨⟨?_, ?_, ?_, ?_⟩, ?_, ?_, ?_⟩
  · exact ids_append h.ids fun _ => hgrant.2.1
  · intro grant hmem
    rcases List.mem_append.mp hmem with hmem | hmem
    · obtain ⟨howner, hactor⟩ := h.owned grant hmem
      exact ⟨hold _ howner, fun a ha => hold a (hactor a ha)⟩
    · obtain ⟨role, -, rfl⟩ := mem_newGrants hmem
      exact ⟨hnew, fun a ha => hold a (hgranting.actor a ha)⟩
  · intro grant hmem
    rcases List.mem_append.mp hmem with hmem | hmem
    · exact h.checked grant hmem
    · exact hgranting.checked hmem
  · refine List.pairwise_append.mpr ⟨h.single, newGrants_single, ?_⟩
    intro old hmem new hmem' hclash
    obtain ⟨role, -, rfl⟩ := mem_newGrants hmem'
    have howner := (h.owned old hmem).1
    have hsame : old.userId = userId := hclash.1
    rw [hsame, huser.1] at howner
    cases howner
  · change ((s.users ++ [user]).map User.id).Nodup
    rw [List.map_append]
    refine h.userIds.append (List.nodup_singleton _) ?_
    intro id hmem hnewid
    obtain ⟨found, hfound, rfl⟩ := List.mem_map.mp hmem
    refine lookup_eq_none.mp huser.1 found hfound ?_
    rw [← hid]
    exact List.mem_singleton.mp hnewid
  · intro grant hmem
    rcases List.mem_append.mp hmem with hmem | hmem
    · exact h.granted grant hmem
    · obtain ⟨role, -, rfl⟩ := mem_newGrants hmem
      exact hgranting.now
  · intro id hsome
    by_cases hsame : id = userId
    · obtain ⟨role, hrole, hne⟩ := hbase
      obtain ⟨grant, hmem, howner, hfor, hcurrent⟩ :=
        newGrants_mem grantId userId actor now expiry hrole
      refine ⟨grant, List.mem_append_right _ hmem, howner.trans hsame.symm, ?_, hcurrent⟩
      rw [hfor]
      exact hne
    · have hsome' : (s.user id).isSome := by
        rw [Db.addGrants_user, Db.addUser_user, hid, if_neg fun hno => hsame hno.symm,
          Option.or_none] at hsome
        exact hsome
      obtain ⟨grant, hmem, hrest⟩ := h.based id hsome'
      exact ⟨grant, List.mem_append_left _ hmem, hrest⟩

/-- A row of the table after an update that revokes grants. -/
theorem mem_revokeGrants {grant : UserRole} (h : grant ∈ (s.revokeGrants ids now).grants) :
    ∃ old ∈ s.grants, grant.id = old.id ∧ grant.userId = old.userId ∧ grant.role = old.role ∧
      grant.grantedBy = old.grantedBy ∧ grant.grantedAt = old.grantedAt ∧
        grant.expiresAt = old.expiresAt ∧
        (grant = old ∨ old.id ∈ ids ∧ old.revokedAt = none ∧ grant.revokedAt = some now) ∧
        (grant.current → old.id ∉ ids ∧ old.current) := by
  obtain ⟨old, hold, rfl⟩ := List.mem_map.mp h
  refine ⟨old, hold, ?_⟩
  split
  · rename_i hmem
    have hcurrent : (old.revoke now).current = false := UserRole.revoke_current old
    refine ⟨UserRole.revoke_id old, ?_, ?_, ?_, ?_, ?_, ?_, ?_⟩
    iterate 5
      · unfold UserRole.revoke
        split <;> rfl
    · unfold UserRole.revoke
      split
      · rename_i hnone
        exact Or.inr ⟨hmem, hnone, rfl⟩
      · exact Or.inl rfl
    · intro hno
      rw [hcurrent] at hno
      cases hno
  · rename_i hmem
    exact ⟨rfl, rfl, rfl, rfl, rfl, rfl, Or.inl rfl, fun hcurrent => ⟨hmem, hcurrent⟩⟩

/-- A grant that an update does not find stays. -/
theorem revokeGrants_mem {grant : UserRole} (h : grant ∈ s.grants) (hmem : grant.id ∉ ids) :
    grant ∈ (s.revokeGrants ids now).grants :=
  List.mem_map.mpr ⟨grant, h, if_neg hmem⟩

theorem revokeGrants_single (h : s.grants.Pairwise fun a b => ¬ a.clashes b) :
    (s.revokeGrants ids now).grants.Pairwise fun a b => ¬ a.clashes b := by
  have hback : ∀ grant : UserRole, grant.userId =
      (if grant.id ∈ ids then grant.revoke now else grant).userId ∧
      grant.role = (if grant.id ∈ ids then grant.revoke now else grant).role ∧
      ((if grant.id ∈ ids then grant.revoke now else grant).current → grant.current) := by
    intro grant
    split
    · refine ⟨?_, ?_, fun hno => ?_⟩
      · unfold UserRole.revoke
        split <;> rfl
      · unfold UserRole.revoke
        split <;> rfl
      · rw [UserRole.revoke_current] at hno
        cases hno
    · exact ⟨rfl, rfl, id⟩
  refine List.pairwise_map.mpr (h.imp ?_)
  rintro a b hno ⟨huser, hrole, ha, hb⟩
  obtain ⟨hua, hra, hca⟩ := hback a
  obtain ⟨hub, hrb, hcb⟩ := hback b
  exact hno ⟨hua.trans (huser.trans hub.symm), hra.trans (hrole.trans hrb.symm), hca ha, hcb hb⟩

/-- The current grants of a user in some roles are replaced. -/
theorem WellFormed.regranted {which : Role → Bool} (h : WellFormed s)
    (huser : (s.user userId).isSome) (hnow : now ≤ s.clock)
    (hids : ∀ grant ∈ s.grants, grant.id ∈ ids ↔
      grant.userId = userId ∧ which grant.role ∧ grant.current)
    (hgranted : ∀ grant ∈ s.grantsOf userId, grant.grantedAt ≤ now)
    (hroles : ∀ role ∈ roles, which role)
    (hnew : roles ≠ [] → s.unused grantId ∧ Granting s roles actor now expiry)
    (hbase : (∃ role, role ≠ .editor ∧ which role) → ∃ role ∈ roles, role ≠ .editor) :
    WellFormed ((s.revokeGrants ids now).addGrants
      (newGrants grantId userId roles actor now expiry)) := by
  have hgranting : ∀ grant ∈ newGrants grantId userId roles actor now expiry,
      ∃ role ∈ roles, grant.role = role ∧ grant.userId = userId ∧ grant.grantedAt = now ∧
        grant.grantedBy = actor ∧ Granting s roles actor now expiry := by
    intro grant hmem
    obtain ⟨role, hrole, rfl⟩ := mem_newGrants hmem
    exact ⟨role, hrole, rfl, rfl, rfl, rfl, (hnew (List.ne_nil_of_mem hrole)).2⟩
  refine ⟨⟨?_, ?_, ?_, ?_⟩, h.userIds, ?_, ?_⟩
  · refine ids_append ?_ ?_
    · have hsame : (s.revokeGrants ids now).grants.map UserRole.id = s.grants.map UserRole.id := by
        rw [Db.revokeGrants, List.map_map]
        refine List.map_congr_left fun grant _ => ?_
        rw [Function.comp_apply]
        split
        · exact UserRole.revoke_id grant
        · rfl
      rw [hsame]
      exact h.ids
    · intro hne grant hmem
      obtain ⟨old, hold, hid, -⟩ := mem_revokeGrants hmem
      rw [hid]
      exact (hnew hne).1.2.1 old hold
  · intro grant hmem
    rcases List.mem_append.mp hmem with hmem | hmem
    · obtain ⟨old, hold, -, howner, -, hby, -⟩ := mem_revokeGrants hmem
      rw [howner, hby]
      exact h.owned old hold
    · obtain ⟨role, hrole, -, howner, -, hby, hgr⟩ := hgranting grant hmem
      rw [howner, hby]
      exact ⟨huser, hgr.actor⟩
  · intro grant hmem
    rcases List.mem_append.mp hmem with hmem | hmem
    · obtain ⟨old, hold, -, -, hrole, -, hat, hexpires, hsame, -⟩ := mem_revokeGrants hmem
      have hchecked := h.checked old hold
      rcases hsame with rfl | ⟨hfound, hnone, hrevoked⟩
      · exact hchecked
      · have hown : old ∈ s.grantsOf userId :=
          List.mem_filter.mpr ⟨hold, decide_eq_true ((hids old hold).mp hfound).1⟩
        refine ⟨?_, ?_, ?_⟩
        · rw [hrole, hexpires]
          exact hchecked.editor
        · rw [hexpires, hat]
          exact hchecked.expires
        · intro t ht
          rw [hrevoked] at ht
          rw [hat, ← Option.some.inj ht]
          exact hgranted old hown
    · obtain ⟨-, -, -, -, -, -, hgr⟩ := hgranting grant hmem
      exact hgr.checked hmem
  · refine List.pairwise_append.mpr ⟨revokeGrants_single h.single, newGrants_single, ?_⟩
    rintro old hmem new hmem' ⟨hsame, hrole, hcurrent, -⟩
    obtain ⟨before, hbefore, -, howner, hfor, -, -, -, -, hback⟩ := mem_revokeGrants hmem
    obtain ⟨role, hmemrole, hnewrole, hnewuser, -⟩ := hgranting new hmem'
    obtain ⟨hfree, hcurrent'⟩ := hback hcurrent
    refine hfree ((hids before hbefore).mpr ⟨?_, ?_, hcurrent'⟩)
    · exact howner.symm.trans (hsame.trans hnewuser)
    · rw [← hfor, hrole, hnewrole]
      exact hroles role hmemrole
  · intro grant hmem
    rcases List.mem_append.mp hmem with hmem | hmem
    · obtain ⟨old, hold, -, -, -, -, hat, -⟩ := mem_revokeGrants hmem
      rw [hat]
      exact h.granted old hold
    · obtain ⟨-, -, -, -, hat, -⟩ := hgranting grant hmem
      rw [hat]
      exact hnow
  · intro id hsome
    obtain ⟨grant, hmem, howner, hne, hcurrent⟩ := h.based id hsome
    by_cases hfound : grant.id ∈ ids
    · obtain ⟨hsame, hwhich, -⟩ := (hids grant hmem).mp hfound
      obtain ⟨role, hrole, hne'⟩ := hbase ⟨grant.role, hne, hwhich⟩
      obtain ⟨new, hnewmem, hnewuser, hnewrole, hnewcurrent⟩ :=
        newGrants_mem grantId userId actor now expiry hrole
      refine ⟨new, List.mem_append_right _ hnewmem, ?_, ?_, hnewcurrent⟩
      · rw [hnewuser, ← hsame, howner]
      · rw [hnewrole]
        exact hne'
    · exact ⟨grant, List.mem_append_left _ (revokeGrants_mem hmem hfound), howner, hne, hcurrent⟩

/-- **Every commit keeps the tables well formed.** -/
theorem Commits.wellFormed (h : Commits env request held s s') (hi : WellFormed s) :
    WellFormed s' := by
  cases h with
  | loggedIn _ _ _ _ _ _ _ => exact hi.of_same rfl rfl (updateUser_ids fun _ => rfl)
  | created _ _ _ huser hgrant hgranting hbase => exact hi.created rfl huser hgrant hgranting hbase
  | registered _ _ _ _ _ huser hgrant _ hnow =>
    refine WellFormed.of_same (hi.created rfl huser hgrant ?_ ⟨.student, by simp, by simp⟩) rfl rfl
      (updateUser_ids fun _ => rfl)
    exact ⟨by simp, by simp, by simp, hnow⟩
  | regranted _ _ huser hnow hids hgranted hroles hnew hbase _ =>
    refine (hi.regranted huser hnow hids hgranted hroles (fun hne => (hnew hne).2) hbase).of_same
      rfl rfl rfl
  | disabled _ _ _ => exact hi.of_same rfl rfl (updateUser_ids fun _ => rfl)
  | reset _ _ _ => exact hi.of_same rfl rfl (updateUser_ids fun _ => rfl)
  | loggedOut _ => exact hi.of_same rfl rfl rfl

/-- Every stored hash was made by the hasher. -/
def Hashed (passwords : PasswordHasher) (s : Db) : Prop :=
  ∀ id user, s.user id = some user → ∃ salt password, user.passwordHash = passwords.hash salt password

theorem Hashed.updateUser {passwords : PasswordHasher} {change : User → User}
    (h : Hashed passwords s) (hid : ∀ user, (change user).id = user.id)
    (hhash : ∀ user, s.user userId = some user →
      ∃ salt password, (change user).passwordHash = passwords.hash salt password) :
    Hashed passwords (s.updateUser userId change) := by
  intro id user huser
  rw [Db.updateUser_user hid] at huser
  split at huser
  · rename_i hsame
    subst hsame
    obtain ⟨old, hold, rfl⟩ := Option.map_eq_some_iff.mp huser
    exact hhash old hold
  · exact h id user huser

theorem Hashed.addUser {passwords : PasswordHasher} {user : User} (h : Hashed passwords s)
    (hhash : ∃ salt password, user.passwordHash = passwords.hash salt password) :
    Hashed passwords (s.addUser user) := by
  intro id found hfound
  rw [Db.addUser_user] at hfound
  rcases Option.or_eq_some_iff.mp hfound with hold | ⟨-, hnew⟩
  · exact h id found hold
  · split at hnew
    · obtain rfl := Option.some.inj hnew
      exact hhash
    · cases hnew

theorem Commits.hashed (h : Commits env request held s s') (hi : Hashed env.passwords s) :
    Hashed env.passwords s' := by
  have hkept : ∀ userId user, s.user userId = some user →
      ∃ salt password, user.passwordHash = env.passwords.hash salt password := hi
  cases h with
  | @loggedIn _ password _ _ _ _ salt _ _ user now replacement _ _ _ _ _ _ hreplacement =>
    refine Hashed.updateUser (s := s.createSession _ password) hi (fun _ => rfl) fun found hfound => ?_
    cases replacement with
    | none => exact hkept _ found hfound
    | some hash => exact ⟨salt, password, hreplacement hash rfl⟩
  | created _ _ _ _ _ _ _ => exact Hashed.addUser (s := s) hi ⟨_, _, rfl⟩
  | @registered _ _ _ userId _ _ name displayName salt password _ now _ _ _ _ _ _ _ _ _ =>
    have hadded : Hashed env.passwords
        (s.addUser (newUser userId name displayName (env.passwords.hash salt password) now)) :=
      hi.addUser ⟨salt, password, rfl⟩
    exact Hashed.updateUser (s := (Db.addGrants _ _).createSession _ _) hadded (fun _ => rfl)
      fun found hfound => hadded _ found hfound
  | regranted _ _ _ _ _ _ _ _ _ _ => exact hi
  | disabled _ _ _ => exact Hashed.updateUser (s := s) hi (fun _ => rfl) fun found hfound => hi _ found hfound
  | reset _ _ _ => exact Hashed.updateUser (s := s) hi (fun _ => rfl) fun _ _ => ⟨_, _, rfl⟩
  | loggedOut _ => exact hi

/-- **Locks protect what is relied on.** Transactions that hold other locks may rely on what they
rely on across every commit. -/
theorem Commits.rely (h : Commits env request held s s') (hi : Hashed env.passwords s)
    (hapart : ∀ key ∈ held', key ∉ held) : Rely env.passwords held' s s' := by
  have hother : ∀ key ∈ held, key ∉ held' := fun key hkey hkey' => hapart key hkey' hkey
  -- a new user is added after its grants, so that nobody's grants change
  have hcreated : ∀ (user : User) (grantId : UUID) (roles : List Role) (actor : Option UUID)
      (now : Time) (expiry : Option Time), .drawn user.id ∈ held → .drawn grantId ∈ held →
      s.unused user.id → Rely env.passwords held' s
        ((s.addUser user).addGrants (newGrants grantId user.id roles actor now expiry)) := by
    intro user grantId roles actor now expiry huser hgrant hunused
    have hgrants : Rely env.passwords held' s
        (s.addGrants (newGrants grantId user.id roles actor now expiry)) := by
      refine rely_addGrants (fun _ grant hmem => ?_) fun grant hmem => ?_
      · obtain ⟨role, -, rfl⟩ := mem_newGrants hmem
        exact hunused.1
      · obtain ⟨role, -, rfl⟩ := mem_newGrants hmem
        exact hother _ hgrant
    exact hgrants.trans (rely_addUser (hother _ huser))
  cases h with
  | @loggedIn _ password _ _ userId _ salt _ _ user _ replacement huser _ hdrawn _ hfound haccepts
      hreplacement =>
    refine (rely_createSession _ _ (hother _ huser) (hother _ hdrawn)).trans
      (rely_updateUser (fun _ => rfl) ?_ fun _ _ => rfl)
    intro found hfound' p hp
    obtain rfl : user = found := Option.some.inj (hfound.symm.trans hfound')
    cases replacement with
    | none => exact Or.inl hp
    | some hash =>
      rcases haccepts with haccepts | ⟨q, hq⟩
      · refine Or.inl ?_
        obtain ⟨salt', made, hmade⟩ := hi userId user hfound
        rw [hmade] at hp haccepts
        have hp' := (env.passwords.accepts_hash _ _ _).mp hp
        have hpassword := (env.passwords.accepts_hash _ _ _).mp haccepts
        change env.passwords.accepts hash p
        rw [hreplacement hash rfl, hp', ← hpassword]
        exact (env.passwords.accepts_hash _ _ _).mpr rfl
      · exact Or.inr ⟨q, List.mem_append_left _ hq⟩
  | created _ huser hgrant hunused _ _ _ => exact hcreated _ _ _ _ _ _ huser hgrant hunused
  | @registered _ _ _ userId grantId sessionId name displayName salt password tokenHash now _
      huser hgrant hsession hrow hunused _ _ _ =>
    have hadded := hcreated
      (newUser userId name displayName (env.passwords.hash salt password) now) grantId [.student]
      none now none huser hgrant hunused
    have hstarted := hadded.trans (rely_createSession
      (newSession env sessionId userId tokenHash now false) password (hother _ hrow)
      (hother _ hsession))
    exact hstarted.trans
      (rely_updateUser (fun _ => rfl) (fun _ _ _ hp => Or.inl hp) fun _ _ => rfl)
  | regranted _ hmembership huser _ _ _ _ hnew _ _ =>
    have hfree := hother _ hmembership
    refine ((rely_revokeGrants hfree).trans (rely_addGrants ?_ ?_)).trans (rely_revokeSessions _)
    · exact fun hheld => absurd hheld hfree
    · intro grant hmem
      obtain ⟨role, hrole, rfl⟩ := mem_newGrants hmem
      exact hother _ (hnew (List.ne_nil_of_mem hrole)).1
  | @disabled _ _ _ userId now _ _ hmembership _ =>
    have hupdated : Rely env.passwords held' s (s.updateUser userId (User.disable now)) :=
      rely_updateUser (fun _ => rfl) (fun _ _ _ hp => Or.inl hp)
        fun hheld => absurd hheld (hother _ hmembership)
    exact hupdated.trans (rely_revokeSessions _)
  | @reset userId password salt _ _ now _ hrow _ _ =>
    have hreset : Rely env.passwords held'
        { s with history := s.history ++ [.reset userId password] }
        (s.resetPassword userId (env.passwords.hash salt password) password now) := by
      refine rely_updateUser (fun _ => rfl) (fun user _ p _ => ?_) fun _ _ => rfl
      exact Or.inr ⟨password, List.mem_append_right _ (List.mem_singleton_self _)⟩
    exact ((rely_record _).trans hreset).trans (rely_revokeSessions _)
  | loggedOut _ => exact rely_revokeSessions _

end Commits

end ComponentKb.Auth
