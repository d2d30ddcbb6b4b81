import ComponentKb.Auth.Commits

/-!
# The programs of the service are checked

Each program of `Auth/Service.lean` is followed from the database it begins on to the one it commits
to; between its statements the others do what its locks allow (`Rely`). What it has found in one
statement still holds at the commit for one of three reasons: it holds the lock, the fact is about
an id that it has drawn, or nobody undoes it.

* `system_meets`: every request commits what `Commits` says.
* `discipline`: the discipline of the service.
-/

namespace ComponentKb.Auth

open ComponentKb.Lib

/-! ## What stays under the lock of the memberships -/

/-- The invariant of the tables. -/
structure Invariant (env : Env) (s : Db) : Prop extends WellFormed s where
  hashed : Hashed env.passwords s

/-- A program that is checked for a request. -/
abbrev Meets (env : Env) (request : Request) (p : Transaction) (change : Db → Db)
    (held : List Key) (s : Db) : Prop :=
  p.Meets (Invariant env) (Rely env.passwords) (Commits env request) change held s

section Memberships

variable {passwords : PasswordHasher} {held : List Key} {s s' : Db} {id userId : UUID}
  {now : Time}

theorem Rely.isAdministrator (h : Rely passwords held s s') (hheld : .membership ∈ held)
    (hid : (s.user id).isSome) : s'.isAdministrator id = s.isAdministrator id := by
  obtain ⟨user, huser⟩ := Option.isSome_iff_exists.mp hid
  obtain ⟨user', huser', -, hstatus⟩ := h.users id user huser
  unfold Db.isAdministrator
  rw [h.grants hheld id hid, huser, huser', Option.any_some, Option.any_some, hstatus hheld]

theorem isAdministrator_user (h : s.isAdministrator id) : (s.user id).isSome := by
  unfold Db.isAdministrator at h
  cases huser : s.user id with
  | none =>
    rw [huser] at h
    cases h
  | some user => rfl

/-- Another administrator stays one. -/
theorem Rely.otherAdministrator (h : Rely passwords held s s') (hheld : .membership ∈ held)
    (hother : ∃ other, other ≠ userId ∧ s.isAdministrator other) :
    ∃ other, other ≠ userId ∧ s'.isAdministrator other := by
  obtain ⟨other, hne, hadmin⟩ := hother
  refine ⟨other, hne, ?_⟩
  rw [h.isAdministrator hheld (isAdministrator_user hadmin)]
  exact hadmin

/-- `_roles` finds every role but that of an expired editor. -/
theorem mem_roles (h : Constraints s) {role : Role} (hne : role ≠ .editor) :
    role ∈ roles s userId now ↔ ∃ grant ∈ s.grantsOf userId, grant.role = role ∧ grant.current := by
  unfold roles
  rw [List.mem_filter]
  constructor
  · rintro ⟨-, hany⟩
    obtain ⟨grant, hgrant, hfound⟩ := List.any_eq_true.mp hany
    obtain ⟨hrole, heffective⟩ := Bool.and_eq_true_iff.mp hfound
    exact ⟨grant, hgrant, of_decide_eq_true hrole, (Bool.and_eq_true_iff.mp heffective).1⟩
  · rintro ⟨grant, hgrant, hrole, hcurrent⟩
    refine ⟨Role.mem_all role, List.any_eq_true.mpr ⟨grant, hgrant, ?_⟩⟩
    have hchecked := h.checked grant (List.mem_filter.mp hgrant).1
    have hnone : grant.expiresAt = none := by
      cases hexpires : grant.expiresAt with
      | none => rfl
      | some t =>
        have heditor := hchecked.editor.mpr (by rw [hexpires]; rfl)
        exact absurd (hrole.symm.trans heditor) hne
    unfold UserRole.effective
    rw [hnone, hcurrent]
    simp [hrole]

/-- A user without the role of an administrator is none. -/
theorem not_isAdministrator (h : Constraints s) (hno : .administrator ∉ roles s userId now) :
    s.isAdministrator userId = false := by
  by_contra hadmin
  rw [Bool.not_eq_false] at hadmin
  obtain ⟨grant, hgrant, hfound⟩ := List.any_eq_true.mp (Bool.and_eq_true_iff.mp hadmin).2
  obtain ⟨hrole, hcurrent⟩ := Bool.and_eq_true_iff.mp hfound
  exact hno ((mem_roles h (by decide)).mpr ⟨grant, hgrant, of_decide_eq_true hrole, hcurrent⟩)

theorem mem_activeAdministrators :
    id ∈ activeAdministrators s ↔ s.isAdministrator id := by
  unfold activeAdministrators Db.isAdministrator Db.grantsOf
  constructor
  · intro h
    obtain ⟨grant, hgrant, rfl⟩ := List.mem_map.mp h
    obtain ⟨hmem, hfound⟩ := List.mem_filter.mp hgrant
    obtain ⟨hgranted, hactive⟩ := Bool.and_eq_true_iff.mp hfound
    refine Bool.and_eq_true_iff.mpr ⟨hactive, List.any_eq_true.mpr ⟨grant, ?_, hgranted⟩⟩
    exact List.mem_filter.mpr ⟨hmem, decide_eq_true rfl⟩
  · intro h
    obtain ⟨hactive, hany⟩ := Bool.and_eq_true_iff.mp h
    obtain ⟨grant, hgrant, hgranted⟩ := List.any_eq_true.mp hany
    obtain ⟨hmem, howner⟩ := List.mem_filter.mp hgrant
    have howner : grant.userId = id := of_decide_eq_true howner
    refine List.mem_map.mpr ⟨grant, List.mem_filter.mpr ⟨hmem, ?_⟩, howner⟩
    rw [howner]
    exact Bool.and_eq_true_iff.mpr ⟨hgranted, hactive⟩

/-- `count_active_administrators` counts nobody twice: the current grants of a role are of
different users. -/
theorem activeAdministrators_nodup (h : Constraints s) : (activeAdministrators s).Nodup := by
  have hsingle := h.single.filter fun grant => grant.role = .administrator && grant.current &&
    (s.user grant.userId).any fun user => user.status = .active
  refine List.pairwise_map.mpr (hsingle.imp_of_mem ?_)
  intro a b ha hb hclash hsame
  obtain ⟨hra, hca⟩ := Bool.and_eq_true_iff.mp
    (Bool.and_eq_true_iff.mp (List.mem_filter.mp ha).2).1
  obtain ⟨hrb, hcb⟩ := Bool.and_eq_true_iff.mp
    (Bool.and_eq_true_iff.mp (List.mem_filter.mp hb).2).1
  have hrole : a.role = b.role := (of_decide_eq_true hra).trans (of_decide_eq_true hrb).symm
  exact hclash ⟨hsame, hrole, hca, hcb⟩

/-- One of two different ids is another one. -/
theorem exists_other {ids : List UUID} (hnodup : ids.Nodup) (hlength : 1 < ids.length)
    (userId : UUID) : ∃ other ∈ ids, other ≠ userId := by
  match ids with
  | first :: second :: rest =>
    by_cases hfirst : first = userId
    · refine ⟨second, by simp, fun hsecond => ?_⟩
      have hne : first ≠ second := fun hsame => by simp [hsame] at hnodup
      exact hne (hfirst.trans hsecond.symm)
    · exact ⟨first, by simp, hfirst⟩

end Memberships

/-! ## Policies -/

section Policies

variable {env : Env} {s : Db} {user : User} {roles : List Role} {now : Time}

theorem encode_eq_ok {passwords : PasswordHasher} {salt password hash : String}
    (h : passwords.encode salt password = .ok hash) : hash = passwords.hash salt password := by
  unfold PasswordHasher.encode at h
  split at h
  · exact (Except.ok.inj h).symm
  · cases h

theorem replacementHash_eq_ok {salt password : String} {replacement : Option String}
    (h : replacementHash env user salt password = .ok replacement) :
    ∀ hash ∈ replacement, hash = env.passwords.hash salt password := by
  intro hash hmem
  unfold replacementHash at h
  split at h
  · cases hencoded : env.passwords.encode salt password with
    | error error =>
      rw [hencoded] at h
      cases h
    | ok encoded =>
      rw [hencoded] at h
      obtain rfl := Except.ok.inj h
      obtain rfl := Option.some.inj hmem
      exact encode_eq_ok hencoded
  · obtain rfl := Except.ok.inj h
    cases hmem

/-- The user whose credentials a login gave. -/
theorem credentials_eq_ok {name password : String} (hids : (s.users.map User.id).Nodup)
    (h : credentials env s name password = .ok user) :
    s.user user.id = some user ∧ env.passwords.accepts user.passwordHash password := by
  unfold credentials at h
  dsimp only at h
  split at h
  · cases h
  · rename_i found hfound
    split at h
    · rename_i haccepted
      obtain rfl := Except.ok.inj h
      exact ⟨lookup_of_mem hids (mem_of_lookup hfound), haccepted.1⟩
    · cases h

theorem validateRoleLifetime_eq_ok {expiry : Option Datetime} {r : Unit}
    (h : validateRoleLifetime roles expiry now = .ok r) :
    (Role.editor ∈ roles ↔ expiry.isSome) ∧
      (Role.editor ∈ roles → ∃ role ∈ roles, role ≠ .editor) ∧
      ∀ t ∈ expiry.map Datetime.time, now < t := by
  obtain ⟨hexpiry, h⟩ := seq_eq_ok.mp h
  obtain ⟨hbase, h⟩ := seq_eq_ok.mp h
  refine ⟨require_eq_ok.mp hexpiry, require_eq_ok.mp hbase, ?_⟩
  intro t ht
  obtain ⟨expires, hexpires, rfl⟩ := Option.map_eq_some_iff.mp ht
  exact (require_eq_ok.mp h expires hexpires).2

/-- Roles that pass `_validate_role_lifetime` may be granted. -/
theorem granting_of_validated {expiry : Option Datetime} {r : Unit} {actor : UUID}
    (h : validateRoleLifetime roles expiry now = .ok r) (hactor : (s.user actor).isSome)
    (hnow : now ≤ s.clock) :
    Granting s roles (some actor) now (expiry.map Datetime.time) := by
  obtain ⟨hexpiry, -, htime⟩ := validateRoleLifetime_eq_ok h
  refine ⟨?_, htime, ?_, hnow⟩
  · rw [Option.isSome_map]
    exact hexpiry
  · intro a ha
    rw [← Option.some.inj ha]
    exact hactor

/-- Roles that pass `_validate_role_lifetime` have a role that does not expire, if they are any. -/
theorem base_of_validated {expiry : Option Datetime} {r : Unit}
    (h : validateRoleLifetime roles expiry now = .ok r) (hne : roles ≠ []) :
    ∃ role ∈ roles, role ≠ .editor := by
  by_cases heditor : Role.editor ∈ roles
  · exact (validateRoleLifetime_eq_ok h).2.1 heditor
  · obtain ⟨role, hrole⟩ := List.exists_mem_of_ne_nil roles hne
    refine ⟨role, hrole, ?_⟩
    rintro rfl
    exact heditor hrole

end Policies

/-! ## Statements -/

section Statements

variable {env : Env} {request : Request} {held : List Key} {s : Db} {userId : UUID} {now : Time}
  {change : Db → Db}

/-- What a transaction relies on with more locks, it relied on before. -/
theorem Rely.locked {passwords : PasswordHasher} {key : Key} {s₁ s₂ s₃ : Db}
    (h₁ : Rely passwords held s₁ s₂) (h₂ : Rely passwords (key :: held) s₂ s₃) :
    Rely passwords held s₁ s₃ :=
  h₁.trans (h₂.mono fun _ hkey => List.mem_cons_of_mem key hkey)

theorem meets_existingUser {next : User → List Role → Transaction}
    (h : ∀ user now s', Invariant env s' → Rely env.passwords held s s' → user.id = userId →
      (s'.user userId).isSome → now ≤ s'.clock →
        Meets env request (next user (roles s' userId now)) (fun db => db) held s') :
    Meets env request (existingUser userId next) (fun db => db) held s := by
  intro s₁ hi₁ hs₁
  dsimp only
  split
  · trivial
  · rename_i user huser
    intro s₂ hi₂ hs₂ s₃ hi₃ hs₃
    have huser₃ : (s₃.user userId).isSome :=
      (hs₂.trans hs₃).user (Option.isSome_of_eq_some huser)
    exact h user s₂.clock s₃ hi₃ ((hs₁.trans hs₂).trans hs₃) (key_of_lookup huser) huser₃ hs₃.clock

theorem meets_requireFreeLogin {name : String} {next : Transaction}
    (h : ∀ s', Invariant env s' → Rely env.passwords held s s' →
      Meets env request next change (.login name :: held) s') :
    Meets env request (requireFreeLogin name next) change held s := by
  intro s₁ hi₁ hs₁ s₂ hi₂ hs₂
  dsimp only
  split
  · trivial
  · exact h s₂ hi₂ (hs₁.locked hs₂)

/-- The update of `user_roles` finds the current grants of the user in the roles. -/
theorem meets_revokeRoles {which : Role → Bool} {next : Transaction}
    (h : ∀ ids s', Invariant env s' → Rely env.passwords held s s' →
      (∀ id ∈ ids, ∃ grant ∈ s'.grantsOf userId, grant.id = id) →
      (∀ grant ∈ s'.grants, grant.id ∈ ids ↔
        grant.userId = userId ∧ which grant.role ∧ grant.current) →
      Meets env request next (fun db => db.revokeGrants ids now) held s') :
    Meets env request (revokeRoles userId which now next) (fun db => db) held s := by
  intro s₁ hi₁ hs₁
  refine h _ s₁ hi₁ hs₁ (fun id hid => ?_) fun grant hgrant => ?_
  · obtain ⟨found, hfound, rfl⟩ := List.mem_map.mp hid
    obtain ⟨hmem, hmatches⟩ := List.mem_filter.mp hfound
    have howner := (Bool.and_eq_true_iff.mp (Bool.and_eq_true_iff.mp hmatches).1).1
    exact ⟨found, List.mem_filter.mpr ⟨hmem, howner⟩, rfl⟩
  constructor
  · intro hid
    obtain ⟨found, hfound, hsame⟩ := List.mem_map.mp hid
    obtain ⟨hmem, hmatches⟩ := List.mem_filter.mp hfound
    obtain rfl := List.inj_on_of_nodup_map hi₁.ids hmem hgrant hsame
    obtain ⟨hboth, hcurrent⟩ := Bool.and_eq_true_iff.mp hmatches
    obtain ⟨howner, hwhich⟩ := Bool.and_eq_true_iff.mp hboth
    exact ⟨of_decide_eq_true howner, hwhich, hcurrent⟩
  · rintro ⟨howner, hwhich, hcurrent⟩
    refine List.mem_map.mpr ⟨grant, List.mem_filter.mpr ⟨hgrant, ?_⟩, rfl⟩
    rw [hwhich, hcurrent]
    simpa using howner

/-- `revoke_user_sessions` at the end of a transaction finds every session of the user that is not
revoked. -/
theorem meets_revokeUserSessions (hsessions : ∀ db, (change db).sessions = db.sessions)
    (h : ∀ ids s₁ s₂, Invariant env s₂ → Rely env.passwords held s s₁ →
      Rely env.passwords held s₁ s₂ →
      (∀ session ∈ s₁.sessions, session.userId = userId → session.revokedAt = none →
        session.id ∈ ids) →
      Commits env request held s₂ ((change s₂).revokeSessions ids now)) :
    Meets env request (revokeUserSessions userId now .commit) change held s := by
  intro s₁ _ hs₁ s₂ hi₂ hs₂
  refine h _ s₁ s₂ hi₂ hs₁ hs₂ fun session hsession howner hnone => ?_
  refine List.mem_map.mpr ⟨session, List.mem_filter.mpr ⟨?_, ?_⟩, rfl⟩
  · rw [hsessions]
    exact hsession
  · simp [howner, hnone]

/-- `count_active_administrators` counts those of the rows found whose user is still active when all
of them are locked. -/
theorem meets_countActiveAdministrators {next : Nat → Transaction}
    (h : ∀ held' s₁ s₂, (∀ key ∈ held, key ∈ held') → Invariant env s₁ → Invariant env s₂ →
      Rely env.passwords held s s₁ → Rely env.passwords held s₁ s₂ →
      Meets env request (next ((activeAdministrators s₁).filter fun id =>
        (s₂.user id).any fun user => user.status = .active).length) (fun db => db) held' s₂) :
    Meets env request (countActiveAdministrators next) (fun db => db) held s := by
  intro s₁ hi₁ hs₁
  refine Program.meets_locks (Rely.refl env.passwords) (fun H a b c => Rely.trans)
    (fun H key a b h => h.mono fun _ hkey => List.mem_cons_of_mem key hkey) hi₁ ?_
  intro held' s₂ hi₂ hs₂ hheld'
  have hsub : ∀ key ∈ held, key ∈ held' := fun key hkey => (hheld' key).mpr (Or.inr hkey)
  intro s₃ hi₃ hs₃
  exact h held' s₁ s₃ hsub hi₁ hi₃ hs₁ (hs₂.trans (hs₃.mono hsub))

/-- Where the request removes an administrator, another one is counted. -/
theorem meets_keepAdministrator (userId : UUID) {removes : Bool} {next : Transaction}
    (hmembership : .membership ∈ held) (hinv : Invariant env s)
    (h : ∀ held' s', (∀ key ∈ held, key ∈ held') → Invariant env s' →
      Rely env.passwords held s s' →
      (removes → ∃ other, other ≠ userId ∧ s'.isAdministrator other) →
      Meets env request next (fun db => db) held' s') :
    Meets env request (keepAdministrator removes next) (fun db => db) held s := by
  unfold keepAdministrator
  split
  · refine meets_countActiveAdministrators fun held' s₁ s₂ hsub hi₁ hi₂ hs₁ hs₂ => ?_
    split
    · trivial
    · rename_i hcount
      refine h held' s₂ hsub hi₂ (hs₁.trans hs₂) fun _ => ?_
      have hnodup := (activeAdministrators_nodup hi₁.toConstraints).filter fun id =>
        (s₂.user id).any fun user => user.status = .active
      obtain ⟨other, hother, hne⟩ := exists_other hnodup (Nat.lt_of_not_le hcount) userId
      have hadmin : s₁.isAdministrator other :=
        mem_activeAdministrators.mp (List.mem_filter.mp hother).1
      refine ⟨other, hne, ?_⟩
      rw [hs₂.isAdministrator hmembership (isAdministrator_user hadmin)]
      exact hadmin
  · rename_i hno
    exact h held s (fun _ hkey => hkey) hinv (Rely.refl _ _ _) fun hyes => absurd hyes hno

end Statements

/-! ## Requests -/

section Requests

variable {env : Env} {request : Request} {held : List Key} {s : Db}

theorem login_meets {name password : String} {remember : Bool} {sessionId : UUID}
    {tokenHash salt : String} (hfree : ∀ id, .user id ∉ held) (hdrawn : .drawn sessionId ∈ held)
    (hunused : s.unused sessionId) :
    Meets env (.login name password remember sessionId tokenHash salt)
      (login env name password remember sessionId tokenHash salt) (fun db => db) held s := by
  intro s₁ _ hs₁ s₂ hi₂ hs₂
  refine Program.meets_attempt fun user hcredentials => ?_
  obtain ⟨huser, haccepts⟩ := credentials_eq_ok hi₂.userIds hcredentials
  refine Program.meets_attempt fun replacement hreplacement => ?_
  intro s₃ _ hs₃ s₄ _ hs₄
  obtain ⟨user', huser', haccepts', -⟩ := (hs₃.locked hs₄).users user.id user huser
  have hs : Rely env.passwords held s s₄ := (hs₁.trans hs₂).trans (hs₃.locked hs₄)
  refine .loggedIn (List.mem_cons_self ..) ?_ (List.mem_cons_of_mem _ hdrawn)
    (hs.unused sessionId hdrawn hunused) huser' (haccepts' password haccepts)
    (replacementHash_eq_ok hreplacement)
  intro id hid
  rcases List.mem_cons.mp hid with hsame | hheld
  · exact Key.user.inj hsame
  · exact absurd hheld (hfree id)

theorem register_meets {name password : String} {userId grantId sessionId : UUID}
    {tokenHash salt : String} (hno : request.attempt = none) (huser : .drawn userId ∈ held)
    (hgrant : .drawn grantId ∈ held) (hsession : .drawn sessionId ∈ held)
    (hunused : s.unused userId) (hunused' : s.unused grantId) (hnew : s.unused sessionId) :
    Meets env request (register env name password userId grantId sessionId tokenHash salt)
      (fun db => db) held s := by
  refine Program.meets_attempt fun normalized _ => ?_
  intro s₁ _ hs₁
  refine meets_requireFreeLogin fun s₂ _ hs₂ => ?_
  refine Program.meets_attempt fun hash hhash => ?_
  obtain rfl := encode_eq_ok hhash
  intro s₃ _ hs₃ s₄ _ hs₄
  have hlate : Rely env.passwords held s₁ s₄ := hs₂.trans ((hs₃.locked hs₄).mono
    fun _ hkey => List.mem_cons_of_mem _ hkey)
  have hs : Rely env.passwords held s s₄ := hs₁.trans hlate
  have hmem : ∀ key ∈ held, key ∈ Key.user userId :: Key.login normalized :: held :=
    fun key hkey => List.mem_cons_of_mem _ (List.mem_cons_of_mem _ hkey)
  exact .registered hno (hmem _ huser) (hmem _ hgrant) (hmem _ hsession) (List.mem_cons_self ..)
    (hs.unused userId huser hunused) (hs.unused grantId hgrant hunused')
    (hs.unused sessionId hsession hnew) hlate.clock

/-- The end of `create_user`, `create_administrator` and `bootstrap`. -/
theorem createUser_ends {passwordHash salt password name displayName : String}
    {userId grantId : UUID} {roles : List Role} {actor : Option UUID} {now : Time}
    {expiry : Option Time} (hno : request.attempt = none) (huser : .drawn userId ∈ held)
    (hgrant : .drawn grantId ∈ held) (hunused : s.unused userId) (hunused' : s.unused grantId)
    (hhash : env.passwords.encode salt password = .ok passwordHash)
    (hgranting : ∀ s', Rely env.passwords held s s' → Granting s' roles actor now expiry)
    (hbase : ∃ role ∈ roles, role ≠ .editor) :
    Meets env request
      (.write (·.addUser (newUser userId name displayName passwordHash now)) <|
        .write (·.addGrants (newGrants grantId userId roles actor now expiry)) .commit)
      (fun db => db) held s := by
  obtain rfl := encode_eq_ok hhash
  intro s₁ _ hs₁
  exact .created hno huser hgrant (hs₁.unused userId huser hunused)
    (hs₁.unused grantId hgrant hunused') (hgranting s₁ hs₁) hbase

theorem createUser_meets {actor userId grantId : UUID} {name displayName password salt : String}
    {roles : List Role} {expiry : Option Datetime} (hno : request.attempt = none)
    (huser : .drawn userId ∈ held) (hgrant : .drawn grantId ∈ held) (hunused : s.unused userId)
    (hunused' : s.unused grantId) (hactor : (s.user actor).isSome) :
    Meets env request
      (createUser env actor name displayName password roles expiry userId grantId salt)
      (fun db => db) held s := by
  refine Program.meets_attempt fun normalized _ => ?_
  refine meets_requireFreeLogin fun s₁ _ hs₁ => ?_
  intro s₂ _ hs₂
  refine Program.meets_attempt fun _ hvalid => ?_
  refine Program.meets_attempt fun hash hhash => ?_
  have hmem : ∀ key ∈ held, key ∈ Key.login normalized :: held :=
    fun key hkey => List.mem_cons_of_mem _ hkey
  have hs : Rely env.passwords held s s₂ := hs₁.locked hs₂
  refine createUser_ends hno (hmem _ huser) (hmem _ hgrant) (hs.unused userId huser hunused)
    (hs.unused grantId hgrant hunused') hhash ?_ ?_
  · intro s' hs'
    exact granting_of_validated hvalid (hs'.user (hs.user hactor)) hs'.clock
  · refine base_of_validated hvalid ?_
    split
    · simp
    · assumption

theorem createAdministrator_meets {actor userId grantId : UUID} {name password salt : String}
    (hno : request.attempt = none) (huser : .drawn userId ∈ held) (hgrant : .drawn grantId ∈ held)
    (hunused : s.unused userId) (hunused' : s.unused grantId) (hactor : (s.user actor).isSome) :
    Meets env request (createAdministrator env actor name password userId grantId salt)
      (fun db => db) held s := by
  refine Program.meets_attempt fun normalized _ => ?_
  intro s₁ _ hs₁
  refine meets_requireFreeLogin fun s₂ _ hs₂ => ?_
  intro s₃ _ hs₃
  refine Program.meets_attempt fun hash hhash => ?_
  have hmem : ∀ key ∈ held, key ∈ Key.login normalized :: Key.membership :: held :=
    fun key hkey => List.mem_cons_of_mem _ (List.mem_cons_of_mem _ hkey)
  have hs : Rely env.passwords held s s₃ := hs₁.locked (hs₂.locked hs₃)
  refine createUser_ends hno (hmem _ huser) (hmem _ hgrant) (hs.unused userId huser hunused)
    (hs.unused grantId hgrant hunused') hhash ?_ ⟨.administrator, by simp⟩
  intro s' hs'
  refine ⟨by simp, by simp, fun a ha => ?_, hs'.clock⟩
  rw [← Option.some.inj ha]
  exact hs'.user (hs.user hactor)

theorem bootstrap_meets {name displayName password salt : String} {userId grantId : UUID}
    (hno : request.attempt = none) (huser : .drawn userId ∈ held) (hgrant : .drawn grantId ∈ held)
    (hunused : s.unused userId) (hunused' : s.unused grantId) :
    Meets env request (bootstrap env name displayName password userId grantId salt)
      (fun db => db) held s := by
  unfold bootstrap
  split
  · trivial
  intro s₁ _ hs₁
  refine meets_countActiveAdministrators fun held' s₂ s₃ hsub _ _ hs₂ hs₃ => ?_
  split
  · trivial
  refine Program.meets_attempt fun normalized _ => ?_
  intro s₄ _ hs₄ s₅ _ hs₅
  dsimp only
  split
  · trivial
  intro s₆ _ hs₆
  refine Program.meets_attempt fun hash hhash => ?_
  have hmem : ∀ key ∈ held, key ∈ Key.login normalized :: held' :=
    fun key hkey => List.mem_cons_of_mem _ (hsub key (List.mem_cons_of_mem _ hkey))
  have hearly : Rely env.passwords held s s₂ := hs₁.locked hs₂
  have hmiddle : Rely env.passwords held s₂ s₄ := (hs₃.mono fun key hkey =>
    List.mem_cons_of_mem _ hkey).trans (hs₄.mono fun key hkey => hsub key
      (List.mem_cons_of_mem _ hkey))
  have hlate : Rely env.passwords held s₄ s₆ := (hs₅.trans hs₆).mono hmem
  have hs : Rely env.passwords held s s₆ := (hearly.trans hmiddle).trans hlate
  refine createUser_ends hno (hmem _ huser) (hmem _ hgrant) (hs.unused userId huser hunused)
    (hs.unused grantId hgrant hunused') hhash ?_ ⟨.administrator, by simp⟩
  intro s' hs'
  exact ⟨by simp, by simp, by simp, hs'.clock⟩

theorem logout_meets {sessionId : UUID} (hno : request.attempt = none) :
    Meets env request (logout sessionId) (fun db => db) held s := by
  intro s₁ _ _ s₂ _ _
  exact .loggedOut hno

theorem resetPassword_meets {userId : UUID} {password salt : String} :
    Meets env (.resetPassword userId password salt) (resetPassword env userId password salt)
      (fun db => db) held s := by
  refine meets_existingUser fun user _ s₁ _ _ hid hsome _ => ?_
  subst hid
  intro s₂ _ hs₂
  refine Program.meets_attempt fun hash hhash => ?_
  obtain rfl := encode_eq_ok hhash
  intro s₃ _ hs₃
  refine meets_revokeUserSessions (fun _ => rfl) fun ids s₄ s₅ _ hs₄ hs₅ hids => ?_
  have hrow : Key.user user.id ∈ Key.user user.id :: held := List.mem_cons_self ..
  refine .reset hrow ((hs₂.trans (hs₃.locked (hs₄.trans hs₅))).user hsome) ?_
  intro session hsession howner hnone
  -- the row of the user is locked, so no session is added to those that the update finds
  obtain ⟨old, hold, hsame, howner', hnone'⟩ :=
    hs₅.sessions user.id hrow session hsession howner hnone
  rw [← hsame]
  exact hids old hold howner' hnone'

/-- The end of the three requests that replace grants: what the update found under the lock of the
memberships is what is there at the commit. -/
theorem regrant_commits {userId grantId : UUID} (which : Role → Bool) {roles : List Role}
    {actor : Option UUID} {now : Time} {expiry : Option Time} {ids : List (UUID × Role)}
    {sessionIds : List UUID} {s' : Db} (hno : request.attempt = none)
    (hmembership : .membership ∈ held) (hs : Rely env.passwords held s s')
    (hinv : Constraints s') (hsome : (s.user userId).isSome) (hnow : now ≤ s.clock)
    (hfound : ∀ id ∈ ids, ∃ grant ∈ s.grantsOf userId, grant.id = id)
    (hids : ∀ grant ∈ s.grants, grant.id ∈ ids ↔
      grant.userId = userId ∧ which grant.role ∧ grant.current)
    (hgranted : ∀ grant ∈ s.grantsOf userId, grant.grantedAt ≤ now)
    (hroles : ∀ role ∈ roles, which role)
    (hnew : roles ≠ [] → .drawn grantId ∈ held ∧ s.unused grantId ∧
      Granting s roles actor now expiry)
    (hbase : (∃ role, role ≠ .editor ∧ which role) → ∃ role ∈ roles, role ≠ .editor)
    (hadmin : which .administrator → .administrator ∈ roles ∨ s.isAdministrator userId = false ∨
      ∃ other, other ≠ userId ∧ s.isAdministrator other) :
    Commits env request held s'
      (((s'.revokeGrants ids now).addGrants
        (newGrants grantId userId roles actor now expiry)).revokeSessions sessionIds now) := by
  have hsame : s'.grantsOf userId = s.grantsOf userId := hs.grants hmembership userId hsome
  have hback : ∀ grant ∈ s'.grants, grant.userId = userId → grant ∈ s.grants := by
    intro grant hgrant howner
    have hmem : grant ∈ s'.grantsOf userId :=
      List.mem_filter.mpr ⟨hgrant, decide_eq_true howner⟩
    rw [hsame] at hmem
    exact (List.mem_filter.mp hmem).1
  refine .regranted hno hmembership (hs.user hsome) (Int.le_trans hnow hs.clock) ?_ ?_ hroles ?_
    hbase ?_
  · intro grant hgrant
    constructor
    · intro hid
      obtain ⟨found, hmem, hfoundid⟩ := hfound grant.id hid
      rw [← hsame] at hmem
      obtain ⟨hmem, howner⟩ := List.mem_filter.mp hmem
      obtain rfl := List.inj_on_of_nodup_map hinv.ids hmem hgrant hfoundid
      exact (hids found (hback found hgrant (of_decide_eq_true howner))).mp hid
    · rintro ⟨howner, hrest⟩
      exact (hids grant (hback grant hgrant howner)).mpr ⟨howner, hrest⟩
  · rw [hsame]
    exact hgranted
  · intro hne
    obtain ⟨hdrawn, hunused, hgranting⟩ := hnew hne
    refine ⟨hdrawn, hs.unused grantId hdrawn hunused, ?_⟩
    exact ⟨hgranting.editor, hgranting.expires, fun a ha => hs.user (hgranting.actor a ha),
      Int.le_trans hgranting.now hs.clock⟩
  · intro hwhich
    rcases hadmin hwhich with hkept | hnone | hother
    · exact Or.inl hkept
    · refine Or.inr (Or.inl ?_)
      rw [hs.isAdministrator hmembership hsome]
      exact hnone
    · exact Or.inr (Or.inr (hs.otherAdministrator hmembership hother))

/-- What was granted before the clock was read was granted before the time that it gave. -/
theorem granted_before {s₁ s₂ : Db} {userId : UUID} (hinv : WellFormed s₁)
    (hs : Rely env.passwords held s₁ s₂) (hmembership : .membership ∈ held)
    (hsome : (s₁.user userId).isSome) : ∀ grant ∈ s₂.grantsOf userId, grant.grantedAt ≤ s₁.clock := by
  intro grant hgrant
  rw [hs.grants hmembership userId hsome] at hgrant
  exact hinv.granted grant (List.mem_filter.mp hgrant).1

theorem grantEditor_meets {actor userId grantId : UUID} {expiresAt : Datetime}
    (hno : request.attempt = none) (hdrawn : .drawn grantId ∈ held) (hunused : s.unused grantId)
    (hactor : (s.user actor).isSome) :
    Meets env request (grantEditor actor userId expiresAt grantId) (fun db => db) held s := by
  intro s₁ _ hs₁
  have hmembership : Key.membership ∈ Key.membership :: held := List.mem_cons_self ..
  have hdrawn' : Key.drawn grantId ∈ Key.membership :: held := List.mem_cons_of_mem _ hdrawn
  refine meets_existingUser fun user now s₂ _ hs₂ _ hsome _ => ?_
  intro s₃ hi₃ hs₃
  dsimp only
  split
  · trivial
  refine Program.meets_attempt fun _ hvalid => ?_
  refine meets_revokeRoles fun ids s₄ hi₄ hs₄ hfound hids => ?_
  refine meets_revokeUserSessions (fun _ => rfl) fun sessionIds s₅ s₆ hi₆ hs₅ hs₆ _ => ?_
  have hs : Rely env.passwords (Key.membership :: held) s₁ s₄ := (hs₂.trans hs₃).trans hs₄
  refine regrant_commits (· = .editor) hno hmembership (hs₅.trans hs₆) hi₆.toConstraints
    ((hs₃.trans hs₄).user hsome) hs₄.clock hfound hids
    (granted_before hi₃.toWellFormed hs₄ hmembership (hs₃.user hsome)) (by simp) ?_ ?_ ?_
  · intro _
    refine ⟨hdrawn', hs.unused grantId hdrawn' (hs₁.unused grantId hdrawn hunused), ?_⟩
    obtain ⟨-, -, htime⟩ := validateRoleLifetime_eq_ok hvalid
    refine ⟨by simp, htime, fun a ha => ?_, hs₄.clock⟩
    rw [← Option.some.inj ha]
    exact hs.user (hs₁.user hactor)
  · rintro ⟨role, hne, hwhich⟩
    exact absurd (of_decide_eq_true hwhich) hne
  · intro hwhich
    cases hwhich

theorem revokeEditor_meets {userId : UUID} (hno : request.attempt = none) :
    Meets env request (revokeEditor userId) (fun db => db) held s := by
  intro s₁ _ _
  have hmembership : Key.membership ∈ Key.membership :: held := List.mem_cons_self ..
  refine meets_existingUser fun user now s₂ _ hs₂ _ hsome _ => ?_
  split
  · trivial
  intro s₃ hi₃ hs₃
  refine meets_revokeRoles fun ids s₄ hi₄ hs₄ hfound hids => ?_
  refine meets_revokeUserSessions (fun _ => rfl) fun sessionIds s₅ s₆ hi₆ hs₅ hs₆ _ => ?_
  have hnone : ∀ db : Db, db.addGrants (newGrants 0 userId [] none s₃.clock none) = db := by
    intro db
    rw [Db.addGrants]
    simp [newGrants]
  have hcommits : Commits env request (.membership :: held) s₆
      (((s₆.revokeGrants ids s₃.clock).addGrants
        (newGrants 0 userId [] none s₃.clock none)).revokeSessions sessionIds s₃.clock) := by
    refine regrant_commits (· = .editor) hno hmembership (hs₅.trans hs₆) hi₆.toConstraints
      ((hs₃.trans hs₄).user hsome) hs₄.clock hfound hids
      (granted_before hi₃.toWellFormed hs₄ hmembership (hs₃.user hsome)) (by simp)
      (fun hne => absurd rfl hne) ?_ ?_
    · rintro ⟨role, hne, hwhich⟩
      exact absurd (of_decide_eq_true hwhich) hne
    · intro hwhich
      cases hwhich
  rw [hnone] at hcommits
  exact hcommits

theorem setRoles_meets {actor userId grantId : UUID} {roles : List Role}
    {expiry : Option Datetime} (hno : request.attempt = none) (hdrawn : .drawn grantId ∈ held)
    (hunused : s.unused grantId) (hactor : (s.user actor).isSome) :
    Meets env request (setRoles actor userId roles expiry grantId) (fun db => db) held s := by
  intro s₁ _ hs₁
  have hmembership : Key.membership ∈ Key.membership :: held := List.mem_cons_self ..
  refine meets_existingUser fun user now s₂ hi₂ hs₂ _ hsome _ => ?_
  refine meets_keepAdministrator userId hmembership hi₂ fun held' s₃ hsub hi₃ hs₃ hother => ?_
  have hmembership' : Key.membership ∈ held' := hsub _ hmembership
  have hdrawn' : Key.drawn grantId ∈ Key.membership :: held := List.mem_cons_of_mem _ hdrawn
  intro s₄ hi₄ hs₄
  refine Program.meets_attempt fun _ hvalid => ?_
  refine meets_revokeRoles fun ids s₅ hi₅ hs₅ hfound hids => ?_
  refine meets_revokeUserSessions (fun _ => rfl) fun sessionIds s₆ s₇ hi₇ hs₆ hs₇ _ => ?_
  have hs₃₅ : Rely env.passwords held' s₃ s₅ := hs₄.trans hs₅
  have hs₂₅ : Rely env.passwords (Key.membership :: held) s₂ s₅ := hs₃.trans (hs₃₅.mono hsub)
  have hs₁₅ : Rely env.passwords (Key.membership :: held) s₁ s₅ := hs₂.trans hs₂₅
  refine regrant_commits (fun _ => true) hno hmembership' (hs₆.trans hs₇) hi₇.toConstraints (hs₂₅.user hsome)
    hs₅.clock hfound hids ?_ (fun _ _ => rfl) ?_ ?_ ?_
  · exact granted_before hi₄.toWellFormed hs₅ hmembership' ((hs₃.trans (hs₄.mono hsub)).user hsome)
  · intro _
    refine ⟨hsub _ hdrawn', hs₁₅.unused grantId hdrawn' (hs₁.unused grantId hdrawn hunused), ?_⟩
    exact granting_of_validated hvalid (hs₁₅.user (hs₁.user hactor)) hs₅.clock
  · intro _
    refine base_of_validated hvalid ?_
    split
    · simp
    · assumption
  · intro _
    by_cases hkeeps : Role.administrator ∈ roles
    · refine Or.inl ?_
      rw [if_neg (List.ne_nil_of_mem hkeeps)]
      exact hkeeps
    · refine Or.inr ?_
      by_cases hheld : Role.administrator ∈ Auth.roles s₂ userId now
      · exact Or.inr (hs₃₅.otherAdministrator hmembership'
          (hother (decide_eq_true ⟨hheld, hkeeps⟩)))
      · refine Or.inl ?_
        rw [hs₂₅.isAdministrator hmembership hsome]
        exact not_isAdministrator hi₂.toConstraints hheld

theorem disableUser_meets {userId : UUID} (hno : request.attempt = none) :
    Meets env request (disableUser userId) (fun db => db) held s := by
  intro s₁ _ _
  have hmembership : Key.membership ∈ Key.membership :: held := List.mem_cons_self ..
  refine meets_existingUser fun user now s₂ hi₂ hs₂ _ hsome _ => ?_
  refine meets_keepAdministrator userId hmembership hi₂ fun held' s₃ hsub hi₃ hs₃ hother => ?_
  intro s₄ _ hs₄ s₅ _ hs₅
  refine meets_revokeUserSessions (fun _ => rfl) fun sessionIds s₆ s₇ _ hs₆ hs₇ _ => ?_
  have hs₃₇ : Rely env.passwords held' s₃ s₇ := (hs₄.trans hs₅).locked (hs₆.trans hs₇)
  refine .disabled hno (List.mem_cons_of_mem _ (hsub _ hmembership)) ?_
  by_cases hheld : Role.administrator ∈ Auth.roles s₂ userId now
  · exact Or.inr (hs₃₇.otherAdministrator (hsub _ hmembership) (hother (decide_eq_true hheld)))
  · refine Or.inl ?_
    rw [(hs₃.trans (hs₃₇.mono hsub)).isAdministrator hmembership hsome]
    exact not_isAdministrator hi₂.toConstraints hheld

/-- **Every request is checked.** -/
theorem system_meets {s : Db} (hready : request.ready s = true) :
    Meets env request (request.program env) (fun db => db) request.draws s := by
  have hready' : (∀ actor ∈ request.actor, (s.user actor).isSome) ∧
      (∀ id ∈ request.ids, s.unused id) ∧
      ∀ token ∈ request.tokens, ∀ session ∈ s.sessions, session.tokenHash ≠ token :=
    of_decide_eq_true hready
  obtain ⟨hactor, hunused, -⟩ := hready'
  have hdrawn : ∀ id ∈ request.ids, .drawn id ∈ request.draws :=
    fun id hid => List.mem_append_left _ (List.mem_map_of_mem hid)
  cases request with
  | login name password remember sessionId tokenHash salt =>
    exact login_meets (by simp [Request.draws]) (hdrawn _ (by simp [Request.ids]))
      (hunused _ (by simp [Request.ids]))
  | register name password userId grantId sessionId tokenHash salt =>
    exact register_meets rfl (hdrawn _ (by simp [Request.ids])) (hdrawn _ (by simp [Request.ids]))
      (hdrawn _ (by simp [Request.ids])) (hunused _ (by simp [Request.ids]))
      (hunused _ (by simp [Request.ids])) (hunused _ (by simp [Request.ids]))
  | logout sessionId => exact logout_meets rfl
  | createUser actor name displayName password roles expiry userId grantId salt =>
    exact createUser_meets rfl (hdrawn _ (by simp [Request.ids])) (hdrawn _ (by simp [Request.ids]))
      (hunused _ (by simp [Request.ids])) (hunused _ (by simp [Request.ids])) (hactor _ rfl)
  | createAdministrator actor name password userId grantId salt =>
    exact createAdministrator_meets rfl (hdrawn _ (by simp [Request.ids]))
      (hdrawn _ (by simp [Request.ids])) (hunused _ (by simp [Request.ids]))
      (hunused _ (by simp [Request.ids])) (hactor _ rfl)
  | bootstrap name displayName password userId grantId salt =>
    exact bootstrap_meets rfl (hdrawn _ (by simp [Request.ids])) (hdrawn _ (by simp [Request.ids]))
      (hunused _ (by simp [Request.ids])) (hunused _ (by simp [Request.ids]))
  | resetPassword userId password salt => exact resetPassword_meets
  | grantEditor actor userId expiresAt grantId =>
    exact grantEditor_meets rfl (hdrawn _ (by simp [Request.ids])) (hunused _ (by simp [Request.ids]))
      (hactor _ rfl)
  | revokeEditor userId => exact revokeEditor_meets rfl
  | setRoles actor userId roles expiry grantId =>
    exact setRoles_meets rfl (hdrawn _ (by simp [Request.ids])) (hunused _ (by simp [Request.ids]))
      (hactor _ rfl)
  | disableUser userId => exact disableUser_meets rfl

end Requests

/-- Nothing is stored yet. -/
def installation (now : Time) : Server Db Key AuthError Request where
  committed := { clock := now, users := [], grants := [], sessions := [], history := [] }
  opened := []

/-- **The discipline of the service.** -/
def discipline (env : Env) : Discipline (system env) where
  inv := Invariant env
  rely := Rely env.passwords
  guarantee := Commits env
  refl := Rely.refl env.passwords
  trans := fun _ _ _ _ => Rely.trans
  outside := by
    intro s now s' hi h
    have hrely : ∀ held, Rely env.passwords held s s' := fun _ => rely_tick h
    obtain ⟨-, rfl⟩ := tick_eq_some.mp h
    exact ⟨⟨hi.toWellFormed.tick h, hi.hashed⟩, hrely⟩
  keeps := fun _ _ _ _ hi h => ⟨h.wellFormed hi.toWellFormed, h.hashed hi.hashed⟩
  others := fun _ _ _ _ hi h _ hapart => h.rely hi.hashed hapart
  meets := fun _ _ _ hready => system_meets hready

theorem installation_good (env : Env) (now : Time) : (discipline env).Good (installation now) := by
  refine .of_none_open ⟨⟨⟨?_, ?_, ?_, ?_⟩, ?_, ?_, ?_⟩, ?_⟩ rfl
  · exact List.nodup_nil
  · intro grant hgrant
    cases hgrant
  · intro grant hgrant
    cases hgrant
  · exact List.Pairwise.nil
  · exact List.nodup_nil
  · intro grant hgrant
    cases hgrant
  · intro id hid
    cases hid
  · intro id user huser
    cases huser

end ComponentKb.Auth
