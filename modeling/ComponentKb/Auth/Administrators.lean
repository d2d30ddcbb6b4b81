import ComponentKb.Auth.Programs

/-!
# There is always an administrator

Two requests take an administrator away: `set_roles` revokes the grant, `disable_user` changes the
status of the user. Both count the administrators over the two tables, under the lock of the
memberships, and hold the lock until they have committed.

* `Commits.administrator`: no commit takes the last administrator away.
* `administrator_remains`: once there is an administrator, there is one in every later state, in
  every interleaving of the requests.
-/

namespace ComponentKb.Auth

open ComponentKb.Lib

/-- An active user holds the role of an administrator. -/
def HasAdministrator (db : Db) : Prop :=
  ∃ user ∈ db.users, user.status = .active ∧
    ∃ grant ∈ db.grants, grant.userId = user.id ∧ grant.role = .administrator ∧
      grant.revokedAt = none

instance (db : Db) : Decidable (HasAdministrator db) :=
  inferInstanceAs (Decidable (∃ user ∈ db.users, _ ∧ ∃ grant ∈ db.grants, _))

section Administrators

variable {env : Env} {request : Request} {held : List Key} {s s' : Db} {id : UUID}

theorem isAdministrator_iff : s.isAdministrator id ↔
    (∃ user, s.user id = some user ∧ user.status = .active) ∧
      ∃ grant ∈ s.grants, grant.userId = id ∧ grant.role = .administrator ∧ grant.current := by
  unfold Db.isAdministrator Db.grantsOf
  rw [Bool.and_eq_true_iff, Option.any_eq_true, List.any_eq_true]
  constructor
  · rintro ⟨⟨user, huser, hactive⟩, grant, hgrant, hfound⟩
    obtain ⟨hmem, howner⟩ := List.mem_filter.mp hgrant
    obtain ⟨hrole, hcurrent⟩ := Bool.and_eq_true_iff.mp hfound
    exact ⟨⟨user, huser, of_decide_eq_true hactive⟩, grant, hmem, of_decide_eq_true howner,
      of_decide_eq_true hrole, hcurrent⟩
  · rintro ⟨⟨user, huser, hactive⟩, grant, hmem, howner, hrole, hcurrent⟩
    refine ⟨⟨user, huser, decide_eq_true hactive⟩, grant, ?_, ?_⟩
    · exact List.mem_filter.mpr ⟨hmem, decide_eq_true howner⟩
    · exact Bool.and_eq_true_iff.mpr ⟨decide_eq_true hrole, hcurrent⟩

theorem hasAdministrator_iff (h : WellFormed s) :
    HasAdministrator s ↔ ∃ id, s.isAdministrator id := by
  constructor
  · rintro ⟨user, huser, hactive, grant, hgrant, howner, hrole, hcurrent⟩
    have hfound : s.user user.id = some user := lookup_of_mem h.userIds huser
    exact ⟨user.id, isAdministrator_iff.mpr ⟨⟨user, hfound, hactive⟩, grant, hgrant, howner, hrole,
      decide_eq_true hcurrent⟩⟩
  · rintro ⟨id, hadmin⟩
    obtain ⟨⟨user, huser, hactive⟩, grant, hgrant, howner, hrole, hcurrent⟩ :=
      isAdministrator_iff.mp hadmin
    exact ⟨user, mem_of_lookup huser, hactive, grant, hgrant,
      howner.trans (key_of_lookup huser).symm, hrole, of_decide_eq_true hcurrent⟩

/-- An administrator whose status and grants stay. -/
theorem isAdministrator_of_same (h : s.isAdministrator id)
    (huser : ∀ user, s.user id = some user →
      ∃ user', s'.user id = some user' ∧ user'.status = user.status)
    (hgrants : ∀ grant ∈ s.grants, grant.userId = id → grant.role = .administrator →
      grant.current → grant ∈ s'.grants) : s'.isAdministrator id := by
  obtain ⟨⟨user, hfound, hactive⟩, grant, hgrant, howner, hrole, hcurrent⟩ :=
    isAdministrator_iff.mp h
  obtain ⟨user', hfound', hstatus⟩ := huser user hfound
  exact isAdministrator_iff.mpr ⟨⟨user', hfound', hstatus.trans hactive⟩, grant,
    hgrants grant hgrant howner hrole hcurrent, howner, hrole, hcurrent⟩

theorem updateUser_status {user : User} (userId : UUID) (change : User → User)
    (hid : ∀ user, (change user).id = user.id)
    (hstatus : id = userId → ∀ user, (change user).status = user.status)
    (huser : s.user id = some user) :
    ∃ user', (s.updateUser userId change).user id = some user' ∧ user'.status = user.status := by
  rw [Db.updateUser_user hid]
  by_cases hsame : id = userId
  · rw [if_pos hsame, huser]
    exact ⟨change user, rfl, hstatus hsame user⟩
  · rw [if_neg hsame]
    exact ⟨user, huser, rfl⟩

theorem addUser_status {user : User} (huser : s.user id = some user) (new : User) :
    ∃ user', (s.addUser new).user id = some user' ∧ user'.status = user.status := by
  rw [Db.addUser_user, huser]
  exact ⟨user, rfl, rfl⟩

/-- A user whose current grants are replaced is still an administrator if the role is not one of
those replaced, or is granted again. -/
theorem regranted_isAdministrator {userId grantId : UUID} {which : Role → Bool}
    {roles : List Role} {actor : Option UUID} {now : Time} {expiry : Option Time}
    {ids : List (UUID × Role)} {sessionIds : List UUID} (h : s.isAdministrator id)
    (hids : ∀ grant ∈ s.grants, grant.id ∈ ids ↔
      grant.userId = userId ∧ which grant.role ∧ grant.current)
    (hkept : id = userId → which .administrator → .administrator ∈ roles) :
    (((s.revokeGrants ids now).addGrants
      (newGrants grantId userId roles actor now expiry)).revokeSessions sessionIds
        now).isAdministrator id := by
  obtain ⟨huser, grant, hgrant, howner, hrole, hcurrent⟩ := isAdministrator_iff.mp h
  by_cases hfound : grant.id ∈ ids
  · obtain ⟨hsame, hwhich, -⟩ := (hids grant hgrant).mp hfound
    rw [hrole] at hwhich
    have hid : id = userId := howner.symm.trans hsame
    obtain ⟨new, hnew, hnewuser, hnewrole, hnewcurrent⟩ :=
      newGrants_mem grantId userId actor now expiry (hkept hid hwhich)
    exact isAdministrator_iff.mpr ⟨huser, new, List.mem_append_right _ hnew,
      hnewuser.trans hid.symm, hnewrole, hnewcurrent⟩
  · exact isAdministrator_iff.mpr ⟨huser, grant,
      List.mem_append_left _ (revokeGrants_mem hgrant hfound), howner, hrole, hcurrent⟩

/-- **No commit takes the last administrator away.** -/
theorem Commits.administrator (h : Commits env request held s s')
    (hadmin : ∃ id, s.isAdministrator id) : ∃ id, s'.isAdministrator id := by
  obtain ⟨id, hid⟩ := hadmin
  cases h with
  | loggedIn _ _ _ _ _ _ _ =>
    refine ⟨id, isAdministrator_of_same hid ?_ fun _ hgrant _ _ _ => hgrant⟩
    exact fun user huser => updateUser_status (s := Db.createSession _ _ _) _ _ (fun _ => rfl)
      (fun _ _ => rfl) huser
  | created _ _ _ _ _ _ _ =>
    refine ⟨id, isAdministrator_of_same hid ?_ ?_⟩
    · exact fun user huser => addUser_status huser _
    · exact fun grant hgrant _ _ _ => List.mem_append_left _ hgrant
  | @registered _ _ _ userId _ _ name displayName salt password _ now _ _ _ _ _ _ _ _ _ =>
    refine ⟨id, isAdministrator_of_same hid ?_ ?_⟩
    · intro user huser
      have hadded := addUser_status (s := s) huser (newUser userId name displayName
        (env.passwords.hash salt password) now)
      obtain ⟨user₁, huser₁, hstatus₁⟩ := hadded
      obtain ⟨user₂, huser₂, hstatus₂⟩ := updateUser_status userId (User.markLogin now none)
        (fun _ => rfl) (fun _ _ => rfl) huser₁
      exact ⟨user₂, huser₂, hstatus₂.trans hstatus₁⟩
    · exact fun grant hgrant _ _ _ => List.mem_append_left _ hgrant
  | @regranted _ _ _ userId _ which _ _ _ _ _ _ _ _ _ _ hids _ _ _ _ hlast =>
    by_cases hkept : id = userId ∧ which .administrator
    · rcases hlast hkept.2 with hagain | hnone | ⟨other, hne, hother⟩
      · exact ⟨id, regranted_isAdministrator hid hids fun _ _ => hagain⟩
      · rw [← hkept.1, hid] at hnone
        cases hnone
      · exact ⟨other, regranted_isAdministrator hother hids fun hsame => absurd hsame hne⟩
    · exact ⟨id, regranted_isAdministrator hid hids fun hsame hwhich =>
        absurd ⟨hsame, hwhich⟩ hkept⟩
  | @disabled _ _ _ userId now _ _ _ hlast =>
    have hkept : ∀ other, other ≠ userId → s.isAdministrator other →
        (s.updateUser userId (User.disable now)).isAdministrator other := by
      intro other hne hother
      refine isAdministrator_of_same hother ?_ fun _ hgrant _ _ _ => hgrant
      exact fun user huser => updateUser_status userId (User.disable now) (fun _ => rfl)
        (fun hsame => absurd hsame hne) huser
    by_cases hsame : id = userId
    · rcases hlast with hnone | ⟨other, hne, hother⟩
      · rw [← hsame, hid] at hnone
        cases hnone
      · exact ⟨other, hkept other hne hother⟩
    · exact ⟨id, hkept id hsame hid⟩
  | reset _ _ _ =>
    refine ⟨id, isAdministrator_of_same hid ?_ fun _ hgrant _ _ _ => hgrant⟩
    exact fun user huser => updateUser_status (s := s) _ _ (fun _ => rfl) (fun _ _ => rfl) huser
  | loggedOut _ => exact ⟨id, hid⟩

/-- Every step keeps the administrators: the clock is the only thing that changes outside. -/
theorem hasAdministrator_of_does {w : Server Db Key AuthError Request} {a : Action Request Time}
    (hw : (discipline env).Good w) (hdoes : (discipline env).Does w a s')
    (hadmin : HasAdministrator w.committed) : HasAdministrator s' := by
  unfold Discipline.Does at hdoes
  split at hdoes
  · rename_i o _
    have hcommits : Commits env o.request o.held w.committed s' := hdoes
    have hbefore : WellFormed w.committed := hw.inv.toWellFormed
    rw [hasAdministrator_iff hbefore] at hadmin
    rw [hasAdministrator_iff (hcommits.wellFormed hbefore)]
    exact hcommits.administrator hadmin
  · rcases hdoes with hsame | ⟨now, htick⟩
    · rw [hsame]
      exact hadmin
    · obtain ⟨-, rfl⟩ := tick_eq_some.mp htick
      exact hadmin

end Administrators

/-- **There is always an administrator.** In every run of the service, once there is an
administrator, every later state has one. -/
theorem administrator_remains (env : Env) (now : Time) (actions : List (Action Request Time)) :
    Stays (system env).step (fun w => HasAdministrator w.committed)
      (fun _ w => HasAdministrator w.committed) (installation now) actions := by
  exact Discipline.stays (fun w a s' hw hdoes hadmin => hasAdministrator_of_does hw hdoes hadmin)
    (installation_good env now) actions

end ComponentKb.Auth
