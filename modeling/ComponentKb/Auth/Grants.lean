import ComponentKb.Auth.Programs

/-!
# Grants and access

Grants are rows of a history: a grant ends when it is revoked or when it expires, and its row stays.
An expired grant of an editor still takes the place that its user has for the role until it is
revoked. Accounts are created, and logins are made, without the lock of the memberships.

* `access_governed`: in every interleaving of the requests the constraints of `user_roles` hold,
  every user keeps a role that does not expire, and sessions give the roles that are granted at the
  time and no others.
* `Commits.revoked`: a grant that is revoked stays as it is.
-/

namespace ComponentKb.Auth

open ComponentKb.Lib

/-! ## What a session gives -/

/-- The principal is an active user, and each of its roles is granted at the time. -/
structure Entitled (db : Db) (now : Time) (principal : Principal) : Prop where
  active : ∃ user ∈ db.users, user.id = principal.userId ∧ user.status = .active
  granted : ∀ role ∈ principal.roles, ∃ grant ∈ db.grants, grant.userId = principal.userId ∧
    grant.role = role ∧ grant.revokedAt = none ∧ ∀ t ∈ grant.expiresAt, now < t

section Access

variable {env : Env} {request : Request} {held : List Key} {s s' : Db} {now : Time}

theorem granted_of_mem_roles {userId : UUID} {role : Role} (h : role ∈ roles s userId now) :
    ∃ grant ∈ s.grants, grant.userId = userId ∧ grant.role = role ∧ grant.revokedAt = none ∧
      ∀ t ∈ grant.expiresAt, now < t := by
  obtain ⟨grant, hgrant, hfound⟩ := List.any_eq_true.mp (List.mem_filter.mp h).2
  obtain ⟨hrole, heffective⟩ := Bool.and_eq_true_iff.mp hfound
  obtain ⟨hcurrent, hexpires⟩ := Bool.and_eq_true_iff.mp heffective
  obtain ⟨hmem, howner⟩ := List.mem_filter.mp hgrant
  refine ⟨grant, hmem, of_decide_eq_true howner, of_decide_eq_true hrole,
    of_decide_eq_true hcurrent, ?_⟩
  intro t ht
  exact of_decide_eq_true ((Option.all_eq_true _ _).mp hexpires t ht)

/-- **Access ends on time**, whatever is stored. -/
theorem entitled_of_resolved {tokenHash : String} {principal : Principal}
    (h : resolveSession s tokenHash now = some principal) : Entitled s now principal := by
  obtain ⟨session, -, h⟩ := Option.bind_eq_some_iff.mp h
  obtain ⟨user, huser, h⟩ := Option.bind_eq_some_iff.mp h
  obtain ⟨hfound, hactive⟩ := Option.filter_eq_some_iff.mp huser
  split at h
  · cases h
  · obtain rfl := Option.some.inj h
    refine ⟨⟨user, mem_of_lookup hfound, rfl, of_decide_eq_true hactive⟩, ?_⟩
    exact fun role hrole => granted_of_mem_roles hrole

/-! ## What stays -/

theorem UserRole.revoke_of_revoked {grant : UserRole} (h : grant.revokedAt.isSome) :
    grant.revoke now = grant := by
  unfold UserRole.revoke
  rw [if_neg]
  intro hnone
  rw [hnone] at h
  cases h

/-- **No commit touches a grant that is revoked.** -/
theorem Commits.revoked (h : Commits env request held s s') {grant : UserRole}
    (hrevoked : grant.revokedAt.isSome) (hmem : grant ∈ s.grants) : grant ∈ s'.grants := by
  cases h with
  | loggedIn _ _ _ _ _ _ _ => exact hmem
  | created _ _ _ _ _ _ _ => exact List.mem_append_left _ hmem
  | registered _ _ _ _ _ _ _ _ _ => exact List.mem_append_left _ hmem
  | regranted _ _ _ _ _ _ _ _ _ _ =>
    refine List.mem_append_left _ (List.mem_map.mpr ⟨grant, hmem, ?_⟩)
    split
    · exact UserRole.revoke_of_revoked hrevoked
    · rfl
  | disabled _ _ _ => exact hmem
  | reset _ _ _ => exact hmem
  | loggedOut _ => exact hmem

theorem revoked_of_does {w : Server Db Key AuthError Request} {a : Action Request Time}
    (hdoes : (discipline env).Does w a s') {grant : UserRole} (hrevoked : grant.revokedAt.isSome)
    (hmem : grant ∈ w.committed.grants) : grant ∈ s'.grants := by
  unfold Discipline.Does at hdoes
  split at hdoes
  · rename_i o _
    have hcommits : Commits env o.request o.held w.committed s' := hdoes
    exact hcommits.revoked hrevoked hmem
  · rcases hdoes with hsame | ⟨now, htick⟩
    · rw [hsame]
      exact hmem
    · obtain ⟨-, rfl⟩ := tick_eq_some.mp htick
      exact hmem

end Access

/-! ## The service -/

/-- The grants are well formed and access ends on time. -/
structure Governed (db : Db) : Prop extends Constraints db where
  based : ∀ user ∈ db.users, db.based user.id
  ends : ∀ tokenHash now principal, resolveSession db tokenHash now = some principal →
    Entitled db now principal

theorem WellFormed.governed {s : Db} (h : WellFormed s) : Governed s := by
  refine ⟨h.toConstraints, fun user huser => ?_, fun _ _ _ => entitled_of_resolved⟩
  have hfound : (lookup User.id s.users user.id).isSome := lookup_isSome.mpr ⟨user, huser, rfl⟩
  exact h.based user.id hfound

/-- **Role grants stay well formed and access ends on time**, in every interleaving of the
requests: no commit violates a constraint of `user_roles`, and a grant that is revoked stays. -/
theorem access_governed (env : Env) (now : Time) (actions : List (Action Request Time)) :
    Always (system env).step (fun w => Governed w.committed) (installation now) actions ∧
      ∀ grant : UserRole, grant.revokedAt.isSome →
        Stays (system env).step (fun w => grant ∈ w.committed.grants)
          (fun _ w => grant ∈ w.committed.grants) (installation now) actions := by
  have hgood := installation_good env now
  constructor
  · have hstep : ∀ w a w', (discipline env).Good w → True → (system env).step w a = some w' →
        (discipline env).Good w' := fun _ _ _ hw _ h => (Discipline.step_good hw h).1
    exact always_of_inv hstep (fun w hw => hw.inv.toWellFormed.governed) hgood (along_true _ actions)
  · intro grant hrevoked
    exact Discipline.stays (fun w a s' _ hdoes hmem => revoked_of_does hdoes hrevoked hmem) hgood
      actions

end ComponentKb.Auth
