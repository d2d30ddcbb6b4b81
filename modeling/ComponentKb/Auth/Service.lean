import ComponentKb.Auth.Accounts
import ComponentKb.Lib.Checked
import ComponentKb.Lib.Transactions

/-!
# The authentication service

The methods of `AuthService` (`auth/service.py`) and the command that creates the first
administrator (`bootstrap.py`) as programs of statements over the tables: each request is one transaction in PostgreSQL's default isolation, `READ COMMITTED`. An `UPDATE` first
finds its rows and checks again those that it had to wait for; rows that are only added to the
session are written at the commit. A method that raises leaves nothing behind in these tables.

The locks are the two advisory locks that the service takes and the locks of the rows of `users`.
A transaction that checks a password does so in the statement that reads the hash.
-/

namespace ComponentKb.Auth

open ComponentKb.Lib
open ComponentKb.Catalog (Unicode strip)

/-! ## Settings -/

/-- The lifetimes of sessions, which the configuration keeps positive. -/
structure Settings where
  sessionTtlMinutes : Nat
  rememberedSessionTtlDays : Nat
  minutes_pos : 0 < sessionTtlMinutes
  days_pos : 0 < rememberedSessionTtlDays

structure Env where
  unicode : Unicode
  passwords : PasswordHasher
  settings : Settings

/-- The lifetime that `_start_session` gives to a session. -/
def Settings.lifetime (settings : Settings) (remember : Bool) : Time :=
  if remember then seconds (settings.rememberedSessionTtlDays * 86400)
  else seconds (settings.sessionTtlMinutes * 60)

/-- A `datetime` of a request; `zoned` says that it has a time zone. -/
structure Datetime where
  time : Time
  zoned : Bool
  deriving DecidableEq, Repr

/-! ## Locks -/

/-- The advisory locks, the rows of `users`, and what a transaction draws at random. -/
inductive Key where
  | membership
  | login (name : String)
  | user (id : UUID)
  | drawn (id : UUID)
  | token (hash : String)
  deriving DecidableEq, Repr

abbrev Transaction := Program Db Key AuthError

/-! ## Policies -/

/-- `_validate_role_lifetime`. -/
def validateRoleLifetime (roles : List Role) (editorExpiresAt : Option Datetime) (now : Time) :
    Except AuthError Unit := do
  require ((Role.editor ∈ roles) ↔ editorExpiresAt.isSome) .roleGrantPolicy
  require (Role.editor ∈ roles → ∃ role ∈ roles, role ≠ .editor) .roleGrantPolicy
  require (∀ expiry ∈ editorExpiresAt, expiry.zoned ∧ now < expiry.time) .roleGrantPolicy

/-- The user whose password a login was given. -/
def credentials (env : Env) (db : Db) (login password : String) : Except AuthError User :=
  let normalized := (normalizeLogin env.unicode login).toOption.getD "\x00invalid-login"
  match findUserByLogin db normalized with
  | none => .error .invalidCredentials
  | some user =>
    if env.passwords.accepts user.passwordHash password ∧ user.status = .active then .ok user
    else .error .invalidCredentials

/-- The hash that replaces one with old parameters. -/
def replacementHash (env : Env) (user : User) (salt password : String) :
    Except AuthError (Option String) :=
  if env.passwords.checkNeedsRehash user.passwordHash then
    (env.passwords.encode salt password).map some
  else .ok none

/-! ## Statements -/

/-- `datetime.now(UTC)`. -/
def readClock (next : Time → Transaction) : Transaction := .query fun db => next db.clock

/-- `_existing_user`: the user and its roles, in two queries. -/
def existingUser (userId : UUID) (next : User → List Role → Transaction) : Transaction :=
  .query fun db =>
    match db.user userId with
    | none => .abort .authenticationRequired
    | some user => readClock fun now => .query fun db => next user (roles db userId now)

/-- `lock_login` and the check that follows it. -/
def requireFreeLogin (login : String) (next : Transaction) : Transaction :=
  .lock (.login login) <| .query fun db =>
    if (findUserByLogin db login).isSome then .abort .userAlreadyExists else next

/-- The update of `user_roles` that revokes the grants of a user in some roles. -/
def revokeRoles (userId : UUID) (which : Role → Bool) (now : Time) (next : Transaction) :
    Transaction :=
  .query fun db =>
    let found := db.grants.filter fun grant =>
      grant.userId = userId && which grant.role && grant.current
    .write (·.revokeGrants (found.map UserRole.id) now) next

/-- `revoke_user_sessions`. -/
def revokeUserSessions (userId : UUID) (now : Time) (next : Transaction) : Transaction :=
  .query fun db =>
    let found := db.sessions.filter fun session =>
      session.userId = userId && session.revokedAt = none
    .write (·.revokeSessions (found.map AuthSession.id) now) next

/-- `count_active_administrators`: the rows of `users` are locked, and their status is read again
when they are. -/
def countActiveAdministrators (next : Nat → Transaction) : Transaction :=
  .query fun db =>
    let found := activeAdministrators db
    Program.locks (found.map Key.user) <| .query fun db =>
      next (found.filter fun id => (db.user id).any fun user => user.status = .active).length

/-- Goes on if an administrator remains: `removes` says that the request removes one. -/
def keepAdministrator (removes : Bool) (next : Transaction) : Transaction :=
  if removes then
    countActiveAdministrators fun count =>
      if count ≤ 1 then .abort .lastAdministrator else next
  else next

/-! ## The service -/

def newSession (env : Env) (sessionId userId : UUID) (tokenHash : String) (now : Time)
    (remember : Bool) : AuthSession :=
  { id := sessionId
    userId := userId
    tokenHash := tokenHash
    createdAt := now
    expiresAt := now + env.settings.lifetime remember
    lastSeenAt := now
    revokedAt := none }

/-- `login`; an attempt that is throttled or fails writes nothing here. -/
def login (env : Env) (login password : String) (remember : Bool) (sessionId : UUID)
    (tokenHash salt : String) : Transaction :=
  readClock fun now =>
  .query fun db =>
  Program.attempt (credentials env db login password) fun user =>
  .write (·.createSession (newSession env sessionId user.id tokenHash now remember) password) <|
  Program.attempt (replacementHash env user salt password) fun replacement =>
  .lock (.user user.id) <|
  .write (·.updateUser user.id (User.markLogin now replacement)) .commit

/-- `register`, once its throttle has let it pass. -/
def register (env : Env) (login password : String) (userId grantId sessionId : UUID)
    (tokenHash salt : String) : Transaction :=
  Program.attempt (normalizeLogin env.unicode login) fun normalized =>
  readClock fun now =>
  requireFreeLogin normalized <|
  Program.attempt (env.passwords.encode salt password) fun passwordHash =>
  .write (·.addUser (newUser userId normalized normalized passwordHash now)) <|
  .write (·.addGrants (newGrants grantId userId [.student] none now none)) <|
  .write (·.createSession (newSession env sessionId userId tokenHash now false) password) <|
  .lock (.user userId) <|
  .write (·.updateUser userId (User.markLogin now none)) .commit

/-- `logout`. -/
def logout (sessionId : UUID) : Transaction :=
  readClock fun now => .write (·.revokeSessions [sessionId] now) .commit

/-- `create_user`. -/
def createUser (env : Env) (actor : UUID) (login displayName password : String)
    (roles : List Role) (editorExpiresAt : Option Datetime) (userId grantId : UUID)
    (salt : String) : Transaction :=
  Program.attempt (normalizeLogin env.unicode login) fun normalized =>
  requireFreeLogin normalized <|
  let roles := if roles = [] then [.student] else roles
  readClock fun now =>
  Program.attempt (validateRoleLifetime roles editorExpiresAt now) fun _ =>
  Program.attempt (env.passwords.encode salt password) fun passwordHash =>
  .write (·.addUser (newUser userId normalized (strip displayName) passwordHash now)) <|
  .write (·.addGrants (newGrants grantId userId roles (some actor) now
    (editorExpiresAt.map Datetime.time))) .commit

/-- `create_administrator`. -/
def createAdministrator (env : Env) (actor : UUID) (login password : String)
    (userId grantId : UUID) (salt : String) : Transaction :=
  Program.attempt (normalizeLogin env.unicode login) fun normalized =>
  .lock .membership <|
  requireFreeLogin normalized <|
  readClock fun now =>
  Program.attempt (env.passwords.encode salt password) fun passwordHash =>
  .write (·.addUser (newUser userId normalized normalized passwordHash now)) <|
  .write (·.addGrants (newGrants grantId userId [.administrator] (some actor) now none)) .commit

/-- `bootstrap`: the first administrator. -/
def bootstrap (env : Env) (login displayName password : String) (userId grantId : UUID)
    (salt : String) : Transaction :=
  if strip displayName = "" then .abort .valueError
  else
  .lock (.login "__initial_administrator_bootstrap__") <|
  countActiveAdministrators fun count =>
  if count ≠ 0 then .abort .runtimeError
  else
  Program.attempt (normalizeLogin env.unicode login) fun normalized =>
  .lock (.login normalized) <| .query fun db =>
  if (findUserByLogin db normalized).isSome then .abort .runtimeError
  else
  readClock fun now =>
  Program.attempt (env.passwords.encode salt password) fun passwordHash =>
  .write (·.addUser (newUser userId normalized (strip displayName) passwordHash now)) <|
  .write (·.addGrants (newGrants grantId userId [.administrator] none now none)) .commit

/-- The update of `set_password`, with the password that the hash is made from. -/
def Db.resetPassword (db : Db) (userId : UUID) (passwordHash password : String) (now : Time) : Db :=
  { db.updateUser userId (User.setPassword passwordHash now) with
    history := db.history ++ [.reset userId password] }

/-- `reset_password`. -/
def resetPassword (env : Env) (userId : UUID) (password salt : String) : Transaction :=
  existingUser userId fun user _ =>
  readClock fun now =>
  Program.attempt (env.passwords.encode salt password) fun passwordHash =>
  .lock (.user user.id) <|
  .write (·.resetPassword user.id passwordHash password now) <|
  revokeUserSessions user.id now .commit

/-- `grant_editor`. -/
def grantEditor (actor userId : UUID) (expiresAt : Datetime) (grantId : UUID) : Transaction :=
  .lock .membership <|
  existingUser userId fun user held =>
  readClock fun now =>
  if user.status ≠ .active ∨ Role.administrator ∈ held then .abort .roleGrantPolicy
  else
  Program.attempt (validateRoleLifetime (.editor :: held) (some expiresAt) now) fun _ =>
  revokeRoles userId (· = .editor) now <|
  .write (·.addGrants (newGrants grantId userId [.editor] (some actor) now (some expiresAt.time))) <|
  revokeUserSessions userId now .commit

/-- `revoke_editor`. -/
def revokeEditor (userId : UUID) : Transaction :=
  .lock .membership <|
  existingUser userId fun _ held =>
  if Role.editor ∉ held then .abort .roleGrantPolicy
  else
  readClock fun now =>
  revokeRoles userId (· = .editor) now <|
  revokeUserSessions userId now .commit

/-- `set_roles`. -/
def setRoles (actor userId : UUID) (roles : List Role) (editorExpiresAt : Option Datetime)
    (grantId : UUID) : Transaction :=
  .lock .membership <|
  existingUser userId fun _ held =>
  keepAdministrator (Role.administrator ∈ held ∧ Role.administrator ∉ roles) <|
  readClock fun now =>
  let effective := if roles = [] then [.student] else roles
  Program.attempt (validateRoleLifetime effective editorExpiresAt now) fun _ =>
  revokeRoles userId (fun _ => true) now <|
  .write (·.addGrants (newGrants grantId userId effective (some actor) now
    (editorExpiresAt.map Datetime.time))) <|
  revokeUserSessions userId now .commit

/-- `disable_user`. -/
def disableUser (userId : UUID) : Transaction :=
  .lock .membership <|
  existingUser userId fun _ held =>
  keepAdministrator (Role.administrator ∈ held) <|
  readClock fun now =>
  .lock (.user userId) <|
  .write (·.updateUser userId (User.disable now)) <|
  revokeUserSessions userId now .commit

/-! ## Requests -/

/-- A request, with the ids, the token and the salt that it draws. -/
inductive Request where
  | login (login password : String) (remember : Bool) (sessionId : UUID) (tokenHash salt : String)
  | register (login password : String) (userId grantId sessionId : UUID) (tokenHash salt : String)
  | logout (sessionId : UUID)
  | createUser (actor : UUID) (login displayName password : String) (roles : List Role)
      (editorExpiresAt : Option Datetime) (userId grantId : UUID) (salt : String)
  | createAdministrator (actor : UUID) (login password : String) (userId grantId : UUID)
      (salt : String)
  | bootstrap (login displayName password : String) (userId grantId : UUID) (salt : String)
  | resetPassword (userId : UUID) (password salt : String)
  | grantEditor (actor userId : UUID) (expiresAt : Datetime) (grantId : UUID)
  | revokeEditor (userId : UUID)
  | setRoles (actor userId : UUID) (roles : List Role) (editorExpiresAt : Option Datetime)
      (grantId : UUID)
  | disableUser (userId : UUID)
  deriving DecidableEq, Repr

/-- The user whom a request makes the granter of roles. -/
def Request.actor : Request → Option UUID
  | .createUser actor .. => some actor
  | .createAdministrator actor .. => some actor
  | .grantEditor actor .. => some actor
  | .setRoles actor .. => some actor
  | _ => none

/-- The ids that a request draws. -/
def Request.ids : Request → List UUID
  | .login _ _ _ sessionId .. => [sessionId]
  | .register _ _ userId grantId sessionId .. => [userId, grantId, sessionId]
  | .createUser _ _ _ _ _ _ userId grantId _ => [userId, grantId]
  | .createAdministrator _ _ _ userId grantId _ => [userId, grantId]
  | .bootstrap _ _ _ userId grantId _ => [userId, grantId]
  | .grantEditor _ _ _ grantId => [grantId]
  | .setRoles _ _ _ _ grantId => [grantId]
  | _ => []

/-- The token of the session that a request starts. -/
def Request.tokens : Request → List String
  | .login _ _ _ _ tokenHash _ => [tokenHash]
  | .register _ _ _ _ _ tokenHash _ => [tokenHash]
  | _ => []

def Request.draws (request : Request) : List Key :=
  request.ids.map Key.drawn ++ request.tokens.map Key.token

/-- No row has the id. -/
def Db.unused (db : Db) (id : UUID) : Prop :=
  db.user id = none ∧ (∀ grant ∈ db.grants, grant.id.1 ≠ id) ∧
    ∀ session ∈ db.sessions, session.id ≠ id

instance (db : Db) (id : UUID) : Decidable (db.unused id) :=
  inferInstanceAs (Decidable (_ ∧ _ ∧ _))

/-- The request comes from a user that is there, and what it draws is new. -/
def Request.ready (db : Db) (request : Request) : Bool :=
  (∀ actor ∈ request.actor, (db.user actor).isSome) ∧ (∀ id ∈ request.ids, db.unused id) ∧
    ∀ token ∈ request.tokens, ∀ session ∈ db.sessions, session.tokenHash ≠ token

def Request.program (env : Env) : Request → Transaction
  | .login name password remember sessionId tokenHash salt =>
    Auth.login env name password remember sessionId tokenHash salt
  | .register name password userId grantId sessionId tokenHash salt =>
    Auth.register env name password userId grantId sessionId tokenHash salt
  | .logout sessionId => Auth.logout sessionId
  | .createUser actor name displayName password roles editorExpiresAt userId grantId salt =>
    Auth.createUser env actor name displayName password roles editorExpiresAt userId grantId salt
  | .createAdministrator actor name password userId grantId salt =>
    Auth.createAdministrator env actor name password userId grantId salt
  | .bootstrap name displayName password userId grantId salt =>
    Auth.bootstrap env name displayName password userId grantId salt
  | .resetPassword userId password salt => Auth.resetPassword env userId password salt
  | .grantEditor actor userId expiresAt grantId => Auth.grantEditor actor userId expiresAt grantId
  | .revokeEditor userId => Auth.revokeEditor userId
  | .setRoles actor userId roles editorExpiresAt grantId =>
    Auth.setRoles actor userId roles editorExpiresAt grantId
  | .disableUser userId => Auth.disableUser userId

/-- The clock does not go back. -/
def tick (db : Db) (now : Time) : Option Db :=
  if db.clock ≤ now then some { db with clock := now } else none

theorem tick_eq_some {db db' : Db} {now : Time} :
    tick db now = some db' ↔ db.clock ≤ now ∧ { db with clock := now } = db' := by
  unfold tick
  split
  · rename_i hle
    rw [Option.some.injEq]
    exact ⟨fun h => ⟨hle, h⟩, And.right⟩
  · rename_i hlt
    exact ⟨fun h => absurd h (by simp), fun h => absurd h.1 hlt⟩

/-- The service as a system of interleaved transactions. -/
def system (env : Env) : System Db Key AuthError Request Time where
  program := Request.program env
  draws := Request.draws
  ready := Request.ready
  outside := tick

/-! ## A plain installation -/

/-- A hash that shows the password. -/
def plainHasher : PasswordHasher where
  hash := fun _ password => "$argon2id$" ++ password
  verify := fun encoded password => encoded = "$argon2id$" ++ password
  checkNeedsRehash := fun _ => false
  verify_hash := by
    intro salt password other
    rw [decide_eq_true_iff, String.append_right_inj]
    exact eq_comm
  hash_ne := by
    intro salt password hempty
    have hlength := congrArg String.length hempty
    rw [String.length_append] at hlength
    have hpositive : 0 < "$argon2id$".length := by decide
    rw [String.length_empty] at hlength
    omega

/-- Plain text, and the lifetimes of the configuration. -/
def plain : Env where
  unicode :=
    { nfkc := fun value => value
      casefold := fun value => value
      isAlnum := Char.isAlphanum
      digit := fun _ => none
      le := fun a b => a ≤ b }
  passwords := plainHasher
  settings :=
    { sessionTtlMinutes := 480
      rememberedSessionTtlDays := 30
      minutes_pos := by decide
      days_pos := by decide }

end ComponentKb.Auth
