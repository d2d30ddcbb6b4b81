import ComponentKb.Auth.Service
import Mathlib.Logic.Function.Basic

/-!
# The throttle of the login

A login asks whether its account or its client is blocked, verifies the password, and records the
failure or clears what was recorded. Only the recording locks the rows of `auth_throttles`, so other
attempts may come between any two of the steps.

What the throttle is for is stated over a ledger: for each account and each client, the failures of
the current window. With as many of them as the limit, an attempt is admitted when the block that
the last one has started is over. A login that succeeds clears its account.

* `throttled_iff`: the throttle holds along a run exactly when no attempt goes on past a block that
  was set after its check, and no login succeeds from a client that has failed.
* `parallel_attempts`: attempts that are checked together go on past the block.
-/

namespace ComponentKb.Auth

open ComponentKb.Lib

/-! ## Rows -/

/-- A row of `auth_throttles`. -/
structure AuthThrottle where
  keyHash : String
  failureCount : Nat
  windowStartedAt : Time
  blockedUntil : Option Time
  updatedAt : Time
  deriving DecidableEq, Repr

structure ThrottleSettings where
  failureLimit : Nat
  failureWindowSeconds : Nat
  blockSeconds : Nat

/-- The service with its throttle; `pseudonym` is the HMAC of a text. -/
structure ThrottleEnv extends Env where
  throttle : ThrottleSettings
  pseudonym : String → String

/-- `_throttle_key`. -/
def throttleKey (env : ThrottleEnv) (kind value : String) : String :=
  env.pseudonym (kind ++ ":" ++ value)

/-- The row blocks an attempt that was made at `now`. -/
def AuthThrottle.blocks (row : AuthThrottle) (now : Time) : Bool := row.blockedUntil.any (now < ·)

/-- `is_blocked`. -/
def isBlocked (table : List AuthThrottle) (keys : List String) (now : Time) : Bool :=
  table.any fun row => row.keyHash ∈ keys && row.blocks now

/-- A row that a failure inserts. -/
def freshThrottle (key : String) (now : Time) : AuthThrottle :=
  { keyHash := key
    failureCount := 0
    windowStartedAt := now
    blockedUntil := none
    updatedAt := now }

/-- The window of a row, begun again if it is over. -/
def AuthThrottle.restart (settings : ThrottleSettings) (now : Time) (row : AuthThrottle) :
    AuthThrottle :=
  if row.windowStartedAt + seconds settings.failureWindowSeconds ≤ now then
    { row with failureCount := 0, windowStartedAt := now, blockedUntil := none }
  else row

/-- A failure in a row. -/
def AuthThrottle.fail (settings : ThrottleSettings) (now : Time) (row : AuthThrottle) :
    AuthThrottle :=
  let row := row.restart settings now
  { row with
    failureCount := row.failureCount + 1
    updatedAt := now
    blockedUntil :=
      if settings.failureLimit ≤ row.failureCount + 1 then
        some (now + seconds settings.blockSeconds)
      else row.blockedUntil }

/-- One key of `register_failure`. -/
def registerKey (settings : ThrottleSettings) (now : Time) (table : List AuthThrottle)
    (key : String) : List AuthThrottle :=
  let table := if (lookup AuthThrottle.keyHash table key).isSome then table
    else table ++ [freshThrottle key now]
  match lookup AuthThrottle.keyHash table key with
  | none => table
  | some row => replace AuthThrottle.keyHash table (row.fail settings now)

/-- `register_failure`. -/
def registerFailure (settings : ThrottleSettings) (table : List AuthThrottle) (keys : List String)
    (now : Time) : List AuthThrottle :=
  keys.foldl (registerKey settings now) table

/-- `clear_failures`. -/
def clearFailures (table : List AuthThrottle) (keys : List String) : List AuthThrottle :=
  table.filter (·.keyHash ∉ keys)

/-! ## Attempts -/

inductive Phase where
  | begun
  | checked
  | verified (result : Except AuthError User)

/-- A login in progress. `since` are the keys for which others have recorded a failure since its
check. -/
structure Attempt where
  id : Nat
  login : String
  password : String
  client : String
  salt : String
  now : Time
  phase : Phase
  since : List String

def Attempt.accountKey (env : ThrottleEnv) (a : Attempt) : String :=
  throttleKey env "account" ((normalizeLogin env.unicode a.login).toOption.getD "\x00invalid-login")

def Attempt.clientKey (env : ThrottleEnv) (a : Attempt) : String :=
  throttleKey env "client" a.client

/-- `_throttle_keys`. -/
def Attempt.keys (env : ThrottleEnv) (a : Attempt) : List String :=
  [a.accountKey env, a.clientKey env]

/-- The attempt is past its check. -/
def Attempt.admitted (a : Attempt) : Bool :=
  match a.phase with
  | .begun => false
  | _ => true

/-- The attempt ends in failure. -/
def Attempt.fails (a : Attempt) : Bool :=
  match a.phase with
  | .verified (.error _) => true
  | _ => false

/-- The attempt ends in success; one whose new hash is refused ends in neither. -/
def Attempt.succeeds (env : ThrottleEnv) (a : Attempt) : Bool :=
  match a.phase with
  | .verified (.ok user) => (replacementHash env.toEnv user a.salt a.password).toOption.isSome
  | _ => false

/-! ## The ledger -/

/-- The failures of one window, the last one first, with one more. -/
def ThrottleSettings.push (settings : ThrottleSettings) (failures : List Time) (now : Time) :
    List Time :=
  if ∃ start ∈ failures.getLast?, start + seconds settings.failureWindowSeconds ≤ now then [now]
  else now :: failures

/-- An attempt may be verified, and may fail. -/
def ThrottleSettings.Admits (settings : ThrottleSettings) (failures : List Time) (now : Time) :
    Prop :=
  settings.failureLimit ≤ failures.length →
    ∀ last ∈ failures.head?, last + seconds settings.blockSeconds ≤ now

instance (settings : ThrottleSettings) (failures : List Time) (now : Time) :
    Decidable (settings.Admits failures now) := inferInstanceAs (Decidable (_ → _))

/-- The accounts, the throttle, the logins in progress, and the ledger. -/
structure Logins where
  db : Db
  throttles : List AuthThrottle
  attempts : List Attempt
  ledger : String → List Time

/-- A failure of the keys. -/
def failLedger (settings : ThrottleSettings) (ledger : String → List Time) (keys : List String)
    (now : Time) : String → List Time :=
  keys.foldl (fun ledger key => Function.update ledger key (settings.push (ledger key) now)) ledger

/-! ## Steps -/

/-- The steps of logins; `other` is what the rest of the service does to the accounts and the clock
does by itself. -/
inductive LoginEvent where
  | other (db : Db)
  | begin (id : Nat) (login password client salt : String)
  | check (id : Nat)
  | verify (id : Nat)
  | record (id : Nat)
  | abandon (id : Nat)

def Logins.put (w : Logins) (a : Attempt) : Logins :=
  { w with attempts := replace Attempt.id w.attempts a }

def Logins.close (w : Logins) (id : Nat) : Logins :=
  { w with attempts := remove Attempt.id w.attempts id }

/-- The failure of an attempt. -/
def Logins.fail (env : ThrottleEnv) (w : Logins) (a : Attempt) : Logins :=
  { db := w.db
    throttles := registerFailure env.throttle w.throttles (a.keys env) a.now
    attempts := (remove Attempt.id w.attempts a.id).map fun other =>
      { other with since := a.keys env ++ other.since }
    ledger := failLedger env.throttle w.ledger (a.keys env) a.now }

/-- The success of an attempt. -/
def Logins.succeed (env : ThrottleEnv) (w : Logins) (a : Attempt) : Logins :=
  { w.close a.id with
    throttles := clearFailures w.throttles (a.keys env)
    ledger := Function.update w.ledger (a.accountKey env) [] }

/-- One step of a login. -/
def loginStep (env : ThrottleEnv) (w : Logins) : LoginEvent → Option Logins
  | .other db => if w.db.clock ≤ db.clock then some { w with db := db } else none
  | .begin id login password client salt =>
    if (lookup Attempt.id w.attempts id).isSome then none
    else some { w with attempts :=
      ⟨id, login, password, client, salt, w.db.clock, .begun, []⟩ :: w.attempts }
  | .check id => (lookup Attempt.id w.attempts id).bind fun a =>
    match a.phase with
    | .begun =>
      if isBlocked w.throttles (a.keys env) a.now then some (w.close id)
      else some (w.put { a with phase := .checked, since := [] })
    | _ => none
  | .verify id => (lookup Attempt.id w.attempts id).bind fun a =>
    match a.phase with
    | .checked =>
      some (w.put { a with phase := .verified (credentials env.toEnv w.db a.login a.password) })
    | _ => none
  | .record id => (lookup Attempt.id w.attempts id).bind fun a =>
    match a.phase with
    | .verified (.error _) => some (w.fail env a)
    | .verified (.ok _) => some (if a.succeeds env then w.succeed env a else w.close id)
    | _ => none
  | .abandon id => some (w.close id)

/-- No attempt is made and none has failed. -/
def Logins.start (db : Db) : Logins :=
  { db := db, throttles := [], attempts := [], ledger := fun _ => [] }

/-! ## The property -/

/-- **The throttle holds** in a step: the ledger admits each attempt that is verified and each that
fails, and a success leaves the row of its client alone. -/
def Throttled (env : ThrottleEnv) (w : Logins) (e : LoginEvent) (w' : Logins) : Prop :=
  match e with
  | .verify id => ∀ a ∈ lookup Attempt.id w.attempts id, ∀ key ∈ a.keys env,
      env.throttle.Admits (w.ledger key) a.now
  | .record id => ∀ a ∈ lookup Attempt.id w.attempts id,
      (a.fails → ∀ key ∈ a.keys env, env.throttle.Admits (w.ledger key) a.now) ∧
        (a.succeeds env → lookup AuthThrottle.keyHash w'.throttles (a.clientKey env) =
          lookup AuthThrottle.keyHash w.throttles (a.clientKey env))
  | _ => True

instance (env : ThrottleEnv) (w : Logins) (e : LoginEvent) (w' : Logins) :
    Decidable (Throttled env w e w') :=
  match e with
  | .verify _ => inferInstanceAs (Decidable (∀ a ∈ lookup Attempt.id w.attempts _, _))
  | .record _ => inferInstanceAs (Decidable (∀ a ∈ lookup Attempt.id w.attempts _, _ ∧ _))
  | .other _ => isTrue trivial
  | .begin .. => isTrue trivial
  | .check _ => isTrue trivial
  | .abandon _ => isTrue trivial

/-- A failure that another attempt has recorded since the check blocks the attempt. -/
def Attempt.Overtaken (env : ThrottleEnv) (w : Logins) (a : Attempt) : Prop :=
  ∃ key ∈ a.keys env, key ∈ a.since ∧
    ∃ row ∈ lookup AuthThrottle.keyHash w.throttles key, row.blocks a.now

/-- An attempt goes on although it is overtaken, or it succeeds from a client that has failed. -/
def Escapes (env : ThrottleEnv) (w : Logins) (e : LoginEvent) : Prop :=
  match e with
  | .verify id => ∃ a ∈ lookup Attempt.id w.attempts id, a.Overtaken env w
  | .record id => ∃ a ∈ lookup Attempt.id w.attempts id, (a.fails ∧ a.Overtaken env w) ∨
      (a.succeeds env ∧ (lookup AuthThrottle.keyHash w.throttles (a.clientKey env)).isSome)
  | _ => False

/-! ## Rows and the ledger -/

/-- The row of a key holds the failures of its window. -/
def Represents (settings : ThrottleSettings) : Option AuthThrottle → List Time → Prop
  | none, failures => failures = []
  | some row, failures => row.failureCount = failures.length ∧
      failures.getLast? = some row.windowStartedAt ∧
      row.blockedUntil = if settings.failureLimit ≤ failures.length then
        failures.head?.map (· + seconds settings.blockSeconds) else none

section Rows

variable {settings : ThrottleSettings} {table : List AuthThrottle} {keys : List String}
  {key : String} {now : Time} {failures : List Time} {row : AuthThrottle}

/-- A row blocks the attempts that the ledger turns away. -/
theorem blocks_iff (h : Represents settings (some row) failures) :
    row.blocks now = false ↔ settings.Admits failures now := by
  obtain ⟨-, hstart, hblocked⟩ := h
  unfold AuthThrottle.blocks ThrottleSettings.Admits
  rw [hblocked]
  by_cases hlimit : settings.failureLimit ≤ failures.length
  · rw [if_pos hlimit]
    cases failures with
    | nil => cases hstart
    | cons last earlier =>
      constructor
      · intro hfree _ t ht
        obtain rfl := Option.some.inj ht
        exact Int.not_lt.mp (of_decide_eq_false hfree)
      · intro hadmits
        exact decide_eq_false (Int.not_lt.mpr (hadmits hlimit last rfl))
  · rw [if_neg hlimit]
    exact ⟨fun _ hreached => absurd hreached hlimit, fun _ => rfl⟩

theorem push_of_expired {start : Time} (hstart : failures.getLast? = some start)
    (h : start + seconds settings.failureWindowSeconds ≤ now) :
    settings.push failures now = [now] := by
  rw [ThrottleSettings.push, if_pos ⟨start, hstart, h⟩]

theorem push_of_open {start : Time} (hstart : failures.getLast? = some start)
    (h : ¬ start + seconds settings.failureWindowSeconds ≤ now) :
    settings.push failures now = now :: failures := by
  rw [ThrottleSettings.push, if_neg]
  rintro ⟨other, hother, hle⟩
  obtain rfl := Option.some.inj (hstart.symm.trans hother)
  exact h hle

/-- A failure in a row is one more in the ledger. -/
theorem represents_fail (h : Represents settings (some row) failures) :
    Represents settings (some (row.fail settings now)) (settings.push failures now) := by
  obtain ⟨hcount, hstart, hblocked⟩ := h
  by_cases hexpired : row.windowStartedAt + seconds settings.failureWindowSeconds ≤ now
  · have hrestart : row.restart settings now =
        { row with failureCount := 0, windowStartedAt := now, blockedUntil := none } := if_pos hexpired
    rw [push_of_expired hstart hexpired, AuthThrottle.fail, hrestart]
    exact ⟨rfl, rfl, rfl⟩
  · have hrestart : row.restart settings now = row := if_neg hexpired
    rw [push_of_open hstart hexpired, AuthThrottle.fail, hrestart]
    refine ⟨congrArg (· + 1) hcount, ?_, ?_⟩
    · cases failures with
      | nil => cases hstart
      | cons last earlier => exact hstart
    · dsimp only
      rw [hcount, List.length_cons]
      split
      · rfl
      · rename_i hbelow
        have hbelow' : ¬ settings.failureLimit ≤ failures.length := by omega
        rw [hblocked, if_neg hbelow']

/-- The first failure of a key. -/
theorem represents_first :
    Represents settings (some ((freshThrottle key now).fail settings now))
      (settings.push [] now) := by
  have hpush : settings.push [] now = [now] := by simp [ThrottleSettings.push]
  have hrestart : (freshThrottle key now).restart settings now = freshThrottle key now := by
    unfold AuthThrottle.restart
    split <;> rfl
  rw [hpush, AuthThrottle.fail, hrestart]
  exact ⟨rfl, rfl, rfl⟩

theorem fail_keyHash (row : AuthThrottle) : (row.fail settings now).keyHash = row.keyHash := by
  unfold AuthThrottle.fail AuthThrottle.restart
  dsimp only
  split <;> rfl

theorem registerKey_of_some (h : lookup AuthThrottle.keyHash table key = some row) :
    registerKey settings now table key =
      replace AuthThrottle.keyHash table (row.fail settings now) := by
  have hsome : (lookup AuthThrottle.keyHash table key).isSome := Option.isSome_of_eq_some h
  unfold registerKey
  dsimp only
  rw [if_pos hsome, h]

theorem registerKey_of_none (h : lookup AuthThrottle.keyHash table key = none) :
    registerKey settings now table key =
      replace AuthThrottle.keyHash (table ++ [freshThrottle key now])
        ((freshThrottle key now).fail settings now) := by
  have hnone : ¬ (lookup AuthThrottle.keyHash table key).isSome := by simp [h]
  have hfresh : lookup AuthThrottle.keyHash (table ++ [freshThrottle key now]) key =
      some (freshThrottle key now) := by
    rw [lookup_append, h, Option.none_or]
    exact if_pos rfl
  unfold registerKey
  dsimp only
  rw [if_neg hnone, hfresh]

/-- What `register_failure` leaves for a key. -/
theorem lookup_registerKey (other : String) :
    lookup AuthThrottle.keyHash (registerKey settings now table key) other =
      if key = other then
        some (((lookup AuthThrottle.keyHash table key).getD (freshThrottle key now)).fail settings now)
      else lookup AuthThrottle.keyHash table other := by
  cases hrow : lookup AuthThrottle.keyHash table key with
  | some row =>
    have hfail : (row.fail settings now).keyHash = key :=
      (fail_keyHash row).trans (key_of_lookup hrow)
    rw [registerKey_of_some hrow, lookup_replace, hfail]
    by_cases hsame : key = other
    · rw [if_pos hsame, if_pos hsame, ← hsame, hrow]
      rfl
    · rw [if_neg hsame, if_neg hsame]
  | none =>
    have hfail : ((freshThrottle key now).fail settings now).keyHash = key := fail_keyHash _
    rw [registerKey_of_none hrow, lookup_replace, hfail, lookup_append]
    by_cases hsame : key = other
    · rw [if_pos hsame, if_pos hsame, ← hsame, hrow, Option.none_or]
      have hfound : (freshThrottle key now).keyHash = key := rfl
      rw [if_pos hfound]
      rfl
    · have hno : (freshThrottle key now).keyHash ≠ other := hsame
      rw [if_neg hsame, if_neg hsame, if_neg hno, Option.or_none]

theorem lookup_clearFailures (other : String) :
    lookup AuthThrottle.keyHash (clearFailures table keys) other =
      if other ∈ keys then none else lookup AuthThrottle.keyHash table other := by
  unfold clearFailures
  induction table with
  | nil => simp [lookup]
  | cons row table ih =>
    by_cases hkeys : row.keyHash ∈ keys
    · rw [List.filter_cons_of_neg (by simpa using hkeys), ih, lookup_cons]
      by_cases hrow : row.keyHash = other
      · rw [hrow] at hkeys
        rw [if_pos hkeys, if_pos hkeys]
      · rw [if_neg hrow]
    · rw [List.filter_cons_of_pos (by simpa using hkeys), lookup_cons, ih, lookup_cons]
      by_cases hrow : row.keyHash = other
      · rw [if_pos hrow, if_pos hrow, if_neg (hrow ▸ hkeys)]
      · rw [if_neg hrow, if_neg hrow]

theorem registerKey_hashes (h : (table.map AuthThrottle.keyHash).Nodup) :
    ((registerKey settings now table key).map AuthThrottle.keyHash).Nodup := by
  cases hrow : lookup AuthThrottle.keyHash table key with
  | some row =>
    rw [registerKey_of_some hrow, map_key_replace]
    exact h
  | none =>
    rw [registerKey_of_none hrow, map_key_replace, List.map_append]
    refine h.append (List.nodup_singleton _) ?_
    intro hash hold hnew
    obtain ⟨row, hmem, rfl⟩ := List.mem_map.mp hold
    exact lookup_eq_none.mp hrow row hmem (List.mem_singleton.mp hnew)

/-- `is_blocked` asks each key. -/
theorem isBlocked_eq_false (h : (table.map AuthThrottle.keyHash).Nodup) :
    isBlocked table keys now = false ↔ ∀ key ∈ keys,
      ∀ row ∈ lookup AuthThrottle.keyHash table key, row.blocks now = false := by
  unfold isBlocked
  rw [List.any_eq_false]
  constructor
  · intro hnone key hkey row hrow
    have hfound := key_of_lookup hrow
    have hno := hnone row (mem_of_lookup hrow)
    rw [hfound, decide_eq_true hkey, Bool.true_and] at hno
    exact Bool.eq_false_iff.mpr hno
  · intro hnone row hrow hblocked
    obtain ⟨hkey, hblocks⟩ := Bool.and_eq_true_iff.mp hblocked
    have hfree := hnone row.keyHash (of_decide_eq_true hkey) row (lookup_of_mem h hrow)
    rw [hfree] at hblocks
    cases hblocks

theorem admits_nil : settings.Admits [] now := by
  rintro - last ⟨⟩

end Rows

/-- The table holds the ledger. -/
structure Matches (settings : ThrottleSettings) (table : List AuthThrottle)
    (ledger : String → List Time) : Prop where
  hashes : (table.map AuthThrottle.keyHash).Nodup
  rows : ∀ key, Represents settings (lookup AuthThrottle.keyHash table key) (ledger key)

section Tables

variable {settings : ThrottleSettings} {table : List AuthThrottle}
  {ledger : String → List Time} {keys : List String} {key : String} {now : Time}

/-- The rows of a key block nothing exactly when the ledger admits. -/
theorem Matches.admits_iff (h : Matches settings table ledger) :
    (∀ row ∈ lookup AuthThrottle.keyHash table key, row.blocks now = false) ↔
      settings.Admits (ledger key) now := by
  have hrow := h.rows key
  cases hfound : lookup AuthThrottle.keyHash table key with
  | none =>
    rw [hfound] at hrow
    have hempty : ledger key = [] := hrow
    rw [hempty]
    exact ⟨fun _ => admits_nil, by rintro - row ⟨⟩⟩
  | some row =>
    rw [hfound] at hrow
    rw [← blocks_iff hrow]
    constructor
    · exact fun hfree => hfree row rfl
    · intro hfree other hother
      rw [← Option.some.inj hother]
      exact hfree

theorem Matches.isBlocked (h : Matches settings table ledger) :
    isBlocked table keys now = false ↔ ∀ key ∈ keys, settings.Admits (ledger key) now := by
  rw [isBlocked_eq_false h.hashes]
  exact forall₂_congr fun _ _ => h.admits_iff

theorem failLedger_of_notMem (h : key ∉ keys) :
    failLedger settings ledger keys now key = ledger key := by
  unfold failLedger
  induction keys generalizing ledger with
  | nil => rfl
  | cons first rest ih =>
    have hne : key ≠ first := List.ne_of_not_mem_cons h
    rw [List.foldl_cons, ih (List.not_mem_of_not_mem_cons h), Function.update_of_ne hne]

/-- **`register_failure` records a failure** of each of its keys. -/
theorem Matches.fail (h : Matches settings table ledger) :
    Matches settings (registerFailure settings table keys now)
      (failLedger settings ledger keys now) := by
  unfold registerFailure failLedger
  induction keys generalizing table ledger with
  | nil => exact h
  | cons first rest ih =>
    refine ih ⟨registerKey_hashes h.hashes, fun key => ?_⟩
    have hrow := h.rows first
    rw [lookup_registerKey]
    dsimp only
    by_cases hsame : first = key
    · rw [if_pos hsame, ← hsame, Function.update_self]
      cases hfound : lookup AuthThrottle.keyHash table first with
      | none =>
        rw [hfound] at hrow
        have hempty : ledger first = [] := hrow
        rw [hempty]
        exact represents_first
      | some row =>
        rw [hfound] at hrow
        exact represents_fail hrow
    · rw [if_neg hsame, Function.update_of_ne (Ne.symm hsame)]
      exact h.rows key

/-- `clear_failures` clears an account, if nothing is recorded for the client. -/
theorem Matches.clear {account client : String} (h : Matches settings table ledger)
    (hclient : lookup AuthThrottle.keyHash table client = none) :
    Matches settings (clearFailures table [account, client])
      (Function.update ledger account []) := by
  refine ⟨?_, fun key => ?_⟩
  · exact List.Nodup.sublist (List.filter_sublist.map _) h.hashes
  · rw [lookup_clearFailures]
    by_cases haccount : key = account
    · rw [haccount, Function.update_self, if_pos (by simp)]
      exact rfl
    · rw [Function.update_of_ne haccount]
      by_cases hsame : key = client
      · rw [if_pos (by simp [hsame]), hsame]
        have hrow := h.rows client
        rw [hclient] at hrow
        exact hrow
      · rw [if_neg (by simp [haccount, hsame])]
        exact h.rows key

end Tables

/-! ## Runs -/

/-- **The invariant**: the table holds the ledger, and a key that was admitted at the check is
admitted until another attempt fails. -/
structure Guarded (env : ThrottleEnv) (w : Logins) : Prop where
  table : Matches env.throttle w.throttles w.ledger
  admitted : ∀ a ∈ w.attempts, a.admitted → ∀ key ∈ a.keys env, key ∉ a.since →
    env.throttle.Admits (w.ledger key) a.now

section Runs

variable {env : ThrottleEnv} {w w' : Logins} {e : LoginEvent} {a : Attempt} {id : Nat}

theorem Guarded.start (env : ThrottleEnv) (db : Db) : Guarded env (.start db) := by
  refine ⟨⟨List.nodup_nil, fun _ => rfl⟩, ?_⟩
  rintro a ⟨⟩

/-- An attempt past its check is overtaken exactly when the ledger no longer lets it through. -/
theorem Guarded.overtaken_iff (h : Guarded env w) (ha : a ∈ w.attempts) (hadmitted : a.admitted) :
    ¬ a.Overtaken env w ↔ ∀ key ∈ a.keys env, env.throttle.Admits (w.ledger key) a.now := by
  constructor
  · intro hno key hkey
    by_cases hsince : key ∈ a.since
    · refine h.table.admits_iff.mp fun row hrow => ?_
      by_contra hblocks
      rw [Bool.not_eq_false] at hblocks
      exact hno ⟨key, hkey, hsince, row, hrow, hblocks⟩
    · exact h.admitted a ha hadmitted key hkey hsince
  · rintro hall ⟨key, hkey, -, row, hrow, hblocks⟩
    have hfree := h.table.admits_iff.mpr (hall key hkey) row hrow
    rw [hfree] at hblocks
    cases hblocks

/-- What an attempt that takes its next step was admitted for. -/
theorem Guarded.put (h : Guarded env w) {a' : Attempt}
    (ha' : a'.admitted → ∀ key ∈ a'.keys env, key ∉ a'.since →
      env.throttle.Admits (w.ledger key) a'.now) : Guarded env (w.put a') := by
  refine ⟨h.table, fun other hother => ?_⟩
  rcases mem_replace hother with rfl | hold
  · exact ha'
  · exact h.admitted other hold

theorem Guarded.close (h : Guarded env w) : Guarded env (w.close id) :=
  ⟨h.table, fun other hother => h.admitted other (List.mem_filter.mp hother).1⟩

theorem Guarded.fail (h : Guarded env w) : Guarded env (w.fail env a) := by
  refine ⟨h.table.fail, fun other hother hadmitted key hkey hsince => ?_⟩
  obtain ⟨old, hold, rfl⟩ := List.mem_map.mp hother
  have hkeys : key ∉ a.keys env := fun hmem => hsince (List.mem_append_left _ hmem)
  have hledger : (w.fail env a).ledger key = w.ledger key := failLedger_of_notMem hkeys
  rw [hledger]
  exact h.admitted old (List.mem_filter.mp hold).1 hadmitted key hkey
    fun hmem => hsince (List.mem_append_right _ hmem)

theorem Guarded.succeed (h : Guarded env w)
    (hclient : lookup AuthThrottle.keyHash w.throttles (a.clientKey env) = none) :
    Guarded env (w.succeed env a) := by
  refine ⟨h.table.clear hclient, fun other hother hadmitted key hkey hsince => ?_⟩
  have hold := h.admitted other (List.mem_filter.mp hother).1 hadmitted key hkey hsince
  change env.throttle.Admits (Function.update w.ledger (a.accountKey env) [] key) other.now
  by_cases haccount : key = a.accountKey env
  · rw [haccount, Function.update_self]
    exact admits_nil
  · rw [Function.update_of_ne haccount]
    exact hold

/-- A success clears the row of its client. -/
theorem succeed_client : lookup AuthThrottle.keyHash (w.succeed env a).throttles (a.clientKey env) =
    none := by
  have hcleared : lookup AuthThrottle.keyHash (clearFailures w.throttles (a.keys env))
      (a.clientKey env) = none := by
    rw [lookup_clearFailures, if_pos (by simp [Attempt.keys])]
  exact hcleared

/-- The verification of an attempt. -/
theorem verify_cases (hstep : loginStep env w (.verify id) = some w') :
    ∃ a, lookup Attempt.id w.attempts id = some a ∧ a.admitted ∧
      w' = w.put { a with phase := .verified (credentials env.toEnv w.db a.login a.password) } := by
  obtain ⟨a, ha, hnext⟩ := Option.bind_eq_some_iff.mp hstep
  split at hnext
  · rename_i hphase
    exact ⟨a, ha, by rw [Attempt.admitted, hphase], (Option.some.inj hnext).symm⟩
  · cases hnext

/-- The end of an attempt. -/
theorem record_cases (hstep : loginStep env w (.record id) = some w') :
    ∃ a, lookup Attempt.id w.attempts id = some a ∧ a.admitted ∧
      ((a.succeeds env = false ∧ w' = w.fail env a) ∨
        (a.succeeds env = true ∧ w' = w.succeed env a) ∨
          (a.succeeds env = false ∧ w' = w.close id)) := by
  obtain ⟨a, ha, hnext⟩ := Option.bind_eq_some_iff.mp hstep
  split at hnext
  · rename_i hphase
    refine ⟨a, ha, by rw [Attempt.admitted, hphase], Or.inl ⟨?_, (Option.some.inj hnext).symm⟩⟩
    rw [Attempt.succeeds, hphase]
  · rename_i hphase
    obtain rfl := Option.some.inj hnext
    refine ⟨a, ha, by rw [Attempt.admitted, hphase], Or.inr ?_⟩
    cases hsucceeds : a.succeeds env with
    | true => exact Or.inl ⟨rfl, rfl⟩
    | false => exact Or.inr ⟨rfl, rfl⟩
  · cases hnext

/-- **One step**: the throttle holds in it exactly when nothing escapes. -/
theorem Guarded.throttled_step (h : Guarded env w) (hstep : loginStep env w e = some w') :
    Throttled env w e w' ↔ ¬ Escapes env w e := by
  cases e with
  | other db => exact ⟨fun _ hno => hno, fun _ => trivial⟩
  | begin id login password client salt => exact ⟨fun _ hno => hno, fun _ => trivial⟩
  | check id => exact ⟨fun _ hno => hno, fun _ => trivial⟩
  | abandon id => exact ⟨fun _ hno => hno, fun _ => trivial⟩
  | verify id =>
    obtain ⟨a, ha, hadmitted, -⟩ := verify_cases hstep
    have hiff := h.overtaken_iff (mem_of_lookup ha) hadmitted
    constructor
    · rintro hthrottled ⟨other, hother, hovertaken⟩
      obtain rfl := Option.some.inj (ha.symm.trans hother)
      exact hiff.mpr (hthrottled a ha) hovertaken
    · intro hno other hother
      obtain rfl := Option.some.inj (ha.symm.trans hother)
      exact hiff.mp fun hovertaken => hno ⟨a, ha, hovertaken⟩
  | record id =>
    obtain ⟨a, ha, hadmitted, hends⟩ := record_cases hstep
    have hiff := h.overtaken_iff (mem_of_lookup ha) hadmitted
    have hcleared : a.succeeds env →
        lookup AuthThrottle.keyHash w'.throttles (a.clientKey env) = none := by
      intro hsucceeds
      rcases hends with ⟨hno, -⟩ | ⟨-, rfl⟩ | ⟨hno, -⟩
      · exact absurd hsucceeds (by simp [hno])
      · exact succeed_client
      · exact absurd hsucceeds (by simp [hno])
    constructor
    · rintro hthrottled ⟨other, hother, hescapes⟩
      obtain rfl := Option.some.inj (ha.symm.trans hother)
      obtain ⟨hfailing, hkept⟩ := hthrottled a ha
      rcases hescapes with ⟨hfails, hovertaken⟩ | ⟨hsucceeds, hrow⟩
      · exact hiff.mpr (hfailing hfails) hovertaken
      · rw [← hkept hsucceeds, hcleared hsucceeds] at hrow
        cases hrow
    · intro hno other hother
      obtain rfl := Option.some.inj (ha.symm.trans hother)
      constructor
      · exact fun hfails => hiff.mp fun hovertaken => hno ⟨a, ha, Or.inl ⟨hfails, hovertaken⟩⟩
      · intro hsucceeds
        rw [hcleared hsucceeds]
        by_contra hrow
        refine hno ⟨a, ha, Or.inr ⟨hsucceeds, ?_⟩⟩
        exact Option.ne_none_iff_isSome.mp (Ne.symm hrow)

theorem Guarded.step (h : Guarded env w) (hthrottled : Throttled env w e w')
    (hstep : loginStep env w e = some w') : Guarded env w' := by
  cases e with
  | other db =>
    change (if _ then _ else _) = _ at hstep
    split at hstep
    · cases hstep
      exact ⟨h.table, h.admitted⟩
    · cases hstep
  | begin id login password client salt =>
    change (if _ then _ else _) = _ at hstep
    split at hstep
    · cases hstep
    · cases hstep
      refine ⟨h.table, fun other hother hadmitted => ?_⟩
      rcases List.mem_cons.mp hother with rfl | hold
      · cases hadmitted
      · exact h.admitted other hold hadmitted
  | check id =>
    obtain ⟨a, ha, hnext⟩ := Option.bind_eq_some_iff.mp hstep
    split at hnext
    · split at hnext
      · cases hnext
        exact h.close
      · rename_i hfree
        cases hnext
        refine h.put fun _ key hkey _ => ?_
        exact h.table.isBlocked.mp (Bool.not_eq_true _ ▸ hfree) key hkey
    · cases hnext
  | verify id =>
    obtain ⟨a, ha, hadmitted, rfl⟩ := verify_cases hstep
    exact h.put fun _ => h.admitted a (mem_of_lookup ha) hadmitted
  | record id =>
    obtain ⟨a, ha, -, hends⟩ := record_cases hstep
    rcases hends with ⟨-, rfl⟩ | ⟨hsucceeds, rfl⟩ | ⟨-, rfl⟩
    · exact h.fail
    · have hkept := (hthrottled a ha).2 hsucceeds
      rw [succeed_client] at hkept
      exact h.succeed hkept.symm
    · exact h.close
  | abandon id =>
    cases hstep
    exact h.close

end Runs

/-- **The throttle holds exactly when nothing escapes it.** -/
theorem throttled_iff (env : ThrottleEnv) (db : Db) (events : List LoginEvent) :
    Along (loginStep env) (Throttled env) (.start db) events ↔
      Along (loginStep env) (fun w e _ => ¬ Escapes env w e) (.start db) events := by
  have hstart := Guarded.start env db
  constructor
  · exact along_of_inv (fun _ _ _ h hthrottled hstep => h.step hthrottled hstep)
      (fun _ _ _ h hthrottled hstep => (h.throttled_step hstep).mp hthrottled) hstart
  · exact along_of_inv (fun _ _ _ h hno hstep => h.step ((h.throttled_step hstep).mpr hno) hstep)
      (fun _ _ _ h hno hstep => (h.throttled_step hstep).mpr hno) hstart

/-! ## Two ways past the throttle -/

def plainThrottle : ThrottleEnv :=
  { plain with
    throttle := { failureLimit := 3, failureWindowSeconds := 60, blockSeconds := 60 }
    pseudonym := fun value => value }

/-- One user. -/
def oneUser : Db where
  clock := 0
  users := [newUser 1 "alice" "alice" (plainHasher.hash "salt" "alice's password") 0]
  grants := []
  sessions := []
  history := []

/-- The steps of an attempt. -/
def attempted (id : Nat) (login password : String) : List LoginEvent :=
  [.begin id login password "10.0.0.1" "salt", .check id, .verify id, .record id]

/-- More attempts are checked together than may fail. -/
def parallelRun : List LoginEvent :=
  [.begin 1 "bob" "guess 1" "10.0.0.1" "salt", .check 1] ++ attempted 2 "bob" "guess 2" ++
    attempted 3 "bob" "guess 3" ++ attempted 4 "bob" "guess 4" ++ [.verify 1, .record 1]

/-- A guess, and a login of the one who guesses. -/
def erasingRun : List LoginEvent :=
  attempted 1 "bob" "guess" ++ attempted 2 "alice" "alice's password"

/-- An attempt that was checked before the block is verified under it, and a login erases what its
client has failed. -/
theorem parallel_attempts :
    ¬ Along (loginStep plainThrottle) (Throttled plainThrottle) (.start oneUser) parallelRun ∧
      ¬ Along (loginStep plainThrottle) (Throttled plainThrottle) (.start oneUser) erasingRun := by
  constructor <;> decide +kernel

end ComponentKb.Auth
