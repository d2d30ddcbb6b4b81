import ComponentKb.Basic
import ComponentKb.Catalog.Text
import ComponentKb.Lib.Table

/-!
# Accounts

The rows of `auth/models.py` that users, their roles and their sessions are stored in, and what
`AuthRepository` reads from them and writes to them. The throttle of the login is in
`Auth/Throttle.lean`.

The hashes of passwords are Argon2id, of which only what `PasswordManager` relies on is known
(`PasswordHasher`).
-/

namespace ComponentKb.Auth

open ComponentKb.Lib
open ComponentKb.Catalog (Unicode strip)

/-! ## Domain -/

inductive Role where
  | student | teacher | editor | administrator
  deriving DecidableEq, Repr

/-- The roles in the order in which a set of them is gone through. -/
def Role.all : List Role := [.student, .teacher, .editor, .administrator]

theorem Role.mem_all (role : Role) : role ∈ Role.all := by cases role <;> decide

inductive UserStatus where
  | active | disabled
  deriving DecidableEq, Repr

/-- The exceptions of `auth/domain.py`, and the two that `bootstrap` raises. -/
inductive AuthError where
  | invalidCredentials
  | authenticationRequired
  | passwordPolicy
  | userAlreadyExists
  | lastAdministrator
  | roleGrantPolicy
  | valueError
  | runtimeError
  deriving DecidableEq, Repr

/-- `[\w.@+-]` of one character. -/
def isLoginChar (u : Unicode) (c : Char) : Bool :=
  u.isAlnum c || c ∈ ['_', '.', '@', '+', '-']

/-- `normalize_login`. -/
def normalizeLogin (u : Unicode) (value : String) : Except AuthError String :=
  let normalized := u.casefold (strip (u.nfkc value))
  if 3 ≤ normalized.length ∧ normalized.length ≤ 100 ∧ normalized.toList.all (isLoginChar u) then
    .ok normalized
  else .error .invalidCredentials

/-! ## Passwords -/

/-- Argon2id, with a salt for each hash: a hash verifies the password that it was made from and no
other. -/
structure PasswordHasher where
  hash : (salt password : String) → String
  verify : (encoded password : String) → Bool
  checkNeedsRehash : String → Bool
  verify_hash : ∀ salt password other, verify (hash salt password) other ↔ other = password
  hash_ne : ∀ salt password, hash salt password ≠ ""

/-- `PasswordManager.hash`. -/
def PasswordHasher.encode (h : PasswordHasher) (salt password : String) : Except AuthError String :=
  if 12 ≤ password.length ∧ password.length ≤ 128 then .ok (h.hash salt password)
  else .error .passwordPolicy

/-- `PasswordManager.verify`: an empty hash is replaced by that of a placeholder. -/
def PasswordHasher.accepts (h : PasswordHasher) (encoded password : String) : Bool :=
  h.verify (if encoded = "" then h.hash "timing" "timing-only-placeholder-value" else encoded)
    password

theorem PasswordHasher.accepts_hash (h : PasswordHasher) (salt password other : String) :
    h.accepts (h.hash salt password) other ↔ other = password := by
  rw [accepts, if_neg (h.hash_ne salt password)]
  exact h.verify_hash salt password other

/-! ## Tables -/

structure User where
  id : UUID
  login : String
  displayName : String
  passwordHash : String
  status : UserStatus
  createdAt : Time
  updatedAt : Time
  lastLoginAt : Option Time
  deriving DecidableEq, Repr

/-- A grant of a role. The ids of the grants that one transaction makes are drawn together, one for
each role. -/
structure UserRole where
  id : UUID × Role
  userId : UUID
  role : Role
  grantedBy : Option UUID
  grantedAt : Time
  expiresAt : Option Time
  revokedAt : Option Time
  deriving DecidableEq, Repr

structure AuthSession where
  id : UUID
  userId : UUID
  tokenHash : String
  createdAt : Time
  expiresAt : Time
  lastSeenAt : Time
  revokedAt : Option Time
  deriving DecidableEq, Repr

/-- What the audit of a login and of a password reset leaves out: the password. -/
inductive Credential where
  | obtained (sessionId userId : UUID) (password : String)
  | reset (userId : UUID) (password : String)
  deriving DecidableEq, Repr

/-- The tables, the clock of the application, and the passwords that logins and resets were given,
which are stored nowhere. -/
structure Db where
  clock : Time
  users : List User
  grants : List UserRole
  sessions : List AuthSession
  history : List Credential

def Db.user (db : Db) (id : UUID) : Option User := lookup User.id db.users id

/-- The grants of one user. -/
def Db.grantsOf (db : Db) (userId : UUID) : List UserRole := db.grants.filter (·.userId = userId)

/-- A grant that is not revoked occupies the only place that its user has for its role. -/
def UserRole.current (grant : UserRole) : Bool := grant.revokedAt = none

/-! ## Queries -/

/-- The rows of `_roles`. -/
def UserRole.effective (grant : UserRole) (now : Time) : Bool :=
  grant.current && grant.expiresAt.all (now < ·)

/-- `_roles`. -/
def roles (db : Db) (userId : UUID) (now : Time) : List Role :=
  Role.all.filter fun role => (db.grantsOf userId).any fun grant =>
    grant.role = role && grant.effective now

/-- `select(User).where(User.login == login)`. -/
def findUserByLogin (db : Db) (login : String) : Option User := lookup User.login db.users login

/-- The user is active and holds the role of an administrator. -/
def Db.isAdministrator (db : Db) (userId : UUID) : Bool :=
  ((db.user userId).any fun user => user.status = .active) &&
    (db.grantsOf userId).any fun grant => grant.role = .administrator && grant.current

/-- The rows of `count_active_administrators`, one for each grant. -/
def activeAdministrators (db : Db) : List UUID :=
  (db.grants.filter fun grant => grant.role = .administrator && grant.current &&
    (db.user grant.userId).any fun user => user.status = .active).map UserRole.userId

/-- What a session is resolved to. -/
structure Principal where
  userId : UUID
  login : String
  displayName : String
  roles : List Role
  sessionId : UUID
  expiresAt : Time
  deriving DecidableEq, Repr

/-- A session that `resolve_session` finds, user and roles apart. -/
def AuthSession.valid (session : AuthSession) (now : Time) : Bool :=
  session.revokedAt = none && now < session.expiresAt

/-- `resolve_session`. -/
def resolveSession (db : Db) (tokenHash : String) (now : Time) : Option Principal :=
  (db.sessions.find? fun session =>
      session.tokenHash = tokenHash && session.valid now).bind fun session =>
    ((db.user session.userId).filter fun user => user.status = .active).bind fun user =>
      if (roles db user.id now).isEmpty then none
      else some
        { userId := user.id
          login := user.login
          displayName := user.displayName
          roles := roles db user.id now
          sessionId := session.id
          expiresAt := session.expiresAt }

/-! ## Updates -/

/-- `update(User).where(User.id == user_id)`. -/
def Db.updateUser (db : Db) (userId : UUID) (change : User → User) : Db :=
  { db with users := db.users.map fun user => if user.id = userId then change user else user }

/-- `mark_login`. -/
def User.markLogin (now : Time) (passwordHash : Option String) (user : User) : User :=
  { user with
    lastLoginAt := some now
    updatedAt := now
    passwordHash := passwordHash.getD user.passwordHash }

/-- `set_password`. -/
def User.setPassword (passwordHash : String) (now : Time) (user : User) : User :=
  { user with passwordHash := passwordHash, updatedAt := now }

/-- The update of `disable_user`. -/
def User.disable (now : Time) (user : User) : User :=
  { user with status := .disabled, updatedAt := now }

/-- `values(revoked_at=now)`, of a grant that is not revoked yet. -/
def UserRole.revoke (now : Time) (grant : UserRole) : UserRole :=
  if grant.revokedAt = none then { grant with revokedAt := some now } else grant

def AuthSession.revoke (now : Time) (session : AuthSession) : AuthSession :=
  if session.revokedAt = none then { session with revokedAt := some now } else session

/-- Revokes the grants that the update found. -/
def Db.revokeGrants (db : Db) (ids : List (UUID × Role)) (now : Time) : Db :=
  { db with grants := db.grants.map fun grant =>
    if grant.id ∈ ids then grant.revoke now else grant }

/-- Revokes the sessions that the update found. -/
def Db.revokeSessions (db : Db) (ids : List UUID) (now : Time) : Db :=
  { db with sessions := db.sessions.map fun session =>
    if session.id ∈ ids then session.revoke now else session }

/-- The rows that a set of roles is stored in. -/
def newGrants (grantId userId : UUID) (roles : List Role) (actor : Option UUID) (now : Time)
    (editorExpiresAt : Option Time) : List UserRole :=
  (Role.all.filter (· ∈ roles)).map fun role =>
    { id := (grantId, role)
      userId := userId
      role := role
      grantedBy := actor
      grantedAt := now
      expiresAt := if role = .editor then editorExpiresAt else none
      revokedAt := none }

def Db.addGrants (db : Db) (grants : List UserRole) : Db :=
  { db with grants := db.grants ++ grants }

/-- The user row of `create_user`. -/
def newUser (id : UUID) (login displayName passwordHash : String) (now : Time) : User :=
  { id := id
    login := login
    displayName := displayName
    passwordHash := passwordHash
    status := .active
    createdAt := now
    updatedAt := now
    lastLoginAt := none }

def Db.addUser (db : Db) (user : User) : Db := { db with users := db.users ++ [user] }

/-- `create_session`. -/
def Db.createSession (db : Db) (session : AuthSession) (password : String) : Db :=
  { db with
    sessions := db.sessions ++ [session]
    history := db.history ++ [.obtained session.id session.userId password] }

/-! ## What the updates leave alone -/

section Updates

variable {db : Db} {id userId : UUID} {change : User → User} {ids : List (UUID × Role)}
  {sessionIds : List UUID} {now : Time} {grants : List UserRole} {user : User}
  {session : AuthSession} {password : String}

theorem Db.updateUser_user (hid : ∀ user, (change user).id = user.id) :
    (db.updateUser userId change).user id =
      if id = userId then (db.user id).map change else db.user id := by
  have hmap : (db.updateUser userId change).user id = (db.user id).map fun user =>
      if user.id = userId then change user else user := by
    refine lookup_map fun user => ?_
    split
    · exact hid user
    · rfl
  rw [hmap]
  cases huser : db.user id with
  | none => simp
  | some user =>
    have hfound : user.id = id := key_of_lookup huser
    rw [Option.map_some, Option.map_some, hfound]
    split <;> rfl

@[simp] theorem Db.updateUser_grants : (db.updateUser userId change).grants = db.grants := rfl

@[simp] theorem Db.updateUser_sessions : (db.updateUser userId change).sessions = db.sessions := rfl

@[simp] theorem Db.updateUser_history : (db.updateUser userId change).history = db.history := rfl

@[simp] theorem Db.updateUser_clock : (db.updateUser userId change).clock = db.clock := rfl

@[simp] theorem Db.revokeGrants_user : (db.revokeGrants ids now).user id = db.user id := rfl

@[simp] theorem Db.revokeSessions_user : (db.revokeSessions sessionIds now).user id = db.user id :=
  rfl

@[simp] theorem Db.addGrants_user : (db.addGrants grants).user id = db.user id := rfl

@[simp] theorem Db.createSession_user : (db.createSession session password).user id = db.user id :=
  rfl

theorem Db.addUser_user : (db.addUser user).user id =
    (db.user id).or (if user.id = id then some user else none) := lookup_append user

theorem UserRole.revoke_id (grant : UserRole) : (grant.revoke now).id = grant.id := by
  unfold UserRole.revoke
  split <;> rfl

/-- A grant that is revoked is not current. -/
theorem UserRole.revoke_current (grant : UserRole) : (grant.revoke now).current = false := by
  unfold UserRole.revoke UserRole.current
  split
  · rfl
  · rename_i hrevoked
    exact decide_eq_false hrevoked

theorem AuthSession.revoke_id (session : AuthSession) : (session.revoke now).id = session.id := by
  unfold AuthSession.revoke
  split <;> rfl

theorem AuthSession.revoke_revokedAt (session : AuthSession) :
    (session.revoke now).revokedAt ≠ none := by
  unfold AuthSession.revoke
  split
  · simp
  · assumption

/-- A session that is not revoked after an update was not revoked before it, nor found by it. -/
theorem Db.mem_revokeSessions (h : session ∈ (db.revokeSessions sessionIds now).sessions)
    (hnone : session.revokedAt = none) : session ∈ db.sessions ∧ session.id ∉ sessionIds := by
  obtain ⟨old, hold, rfl⟩ := List.mem_map.mp h
  split at hnone
  · exact absurd hnone (AuthSession.revoke_revokedAt old)
  · rename_i hmem
    rw [if_neg hmem]
    exact ⟨hold, hmem⟩

end Updates

end ComponentKb.Auth
