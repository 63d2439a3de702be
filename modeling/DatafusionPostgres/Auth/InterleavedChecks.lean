import DatafusionPostgres.Auth.Monotonicity
import DatafusionPostgres.Library.WatchedSearch

/-! The permission check among administration calls. The check takes the lock of the users once and
the lock of the roles anew for every role it comes to, so calls of others go through in between. -/
namespace DatafusionPostgres.Auth
open Library Relation

namespace SharedAuthManager

def getUser (username : String) : Watching AuthManager (Option User) :=
  observe fun auth => auth.getUser username

def getRole (roleName : String) : Watching AuthManager (Option Role) :=
  observe fun auth => auth.getRole roleName

def checkRolePermission (permission : Permission) (resource : ResourceType) :
    Nat → String → Watching AuthManager Bool
  | 0, _ => failure
  | fuel + 1, roleName => do
    match ← getRole roleName with
    | some role =>
      if role.isSuperuser then pure true
      else if AuthManager.grantsMatch role permission resource then pure true
      else role.inheritedRoles.anyM (checkRolePermission permission resource fuel)
    | none => pure false

def checkPermission (fuel : Nat) (username : String) (permission : Permission)
    (resource : ResourceType) : Watching AuthManager Bool := do
  match ← getUser username with
  | some user =>
    if user.isSuperuser then pure true
    else user.roles.anyM fun roleName => do
      match ← getRole roleName with
      | some role =>
        if role.isSuperuser then pure true
        else if AuthManager.grantsMatch role permission resource then pure true
        else role.inheritedRoles.anyM (checkRolePermission permission resource fuel)
      | none => pure false
  | none => pure false

end SharedAuthManager

/-- What each lock finds when these calls go through before it. -/
def AuthManager.moments (start : AuthManager) (before : Nat → List AdminCall) : Nat → AuthManager
  | 0 => run AuthManager.step start (before 0)
  | i + 1 => run AuthManager.step (start.moments before i) (before (i + 1))

section Meanings
variable (moments : Nat → AuthManager) (locks : Nat) (username : String) (permission : Permission)
  (resource : ResourceType)

/-- The user is allowed by pieces that were there one after another: each inheritance when its role
was looked up, and the permission at the last role when it was. -/
def AllowedInPieces : Prop :=
  ∃ user, (moments 0).getUser username = some user ∧
    (user.isSuperuser = true ∨
      ∃ first ∈ user.roles, ∃ t u roleName, 0 < t ∧ u < locks ∧
        SeenPath AuthManager.Inherits moments t first u roleName ∧
        ∃ role, (moments u).getRole roleName = some role ∧ role.Permits permission resource)

/-- The user is allowed by inheritances and by a permission that stay there all the time. -/
def AllowedThroughout : Prop :=
  ∃ user, (moments 0).getUser username = some user ∧
    (user.isSuperuser = true ∨
      ∃ first ∈ user.roles, ∃ roleName,
        ReflTransGen (fun child parent => ∀ t, 0 < t → t < locks →
          (moments t).Inherits child parent) first roleName ∧
        ∀ t, 0 < t → t < locks →
          ∃ role, (moments t).getRole roleName = some role ∧ role.Permits permission resource)

end Meanings

namespace SharedAuthManager
variable {moments : Nat → AuthManager} {fuel locks : Nat} {username : String}
  {permission : Permission} {resource : ResourceType} {answer : Bool}

private theorem role_answer (superuser granted : Bool) (inherited : Watching AuthManager Bool)
    (moments : Nat → AuthManager) (i : Nat) :
    (if superuser then pure true else if granted then pure true else inherited :
      Watching AuthManager Bool) moments i =
      if superuser || granted then some (true, i) else inherited moments i := by
  cases superuser with
  | true => rfl
  | false => cases granted <;> rfl

theorem checkRolePermission_eq_watchedSearch (permission : Permission) (resource : ResourceType)
    (fuel : Nat) (roleName : String) :
    checkRolePermission permission resource fuel roleName =
      watchedSearch (fun auth => auth.decides permission resource) AuthManager.parents fuel
        roleName := by
  induction fuel generalizing roleName with
  | zero => rfl
  | succ fuel ih =>
    have hfun : checkRolePermission permission resource fuel =
        watchedSearch (fun auth => auth.decides permission resource) AuthManager.parents fuel :=
      funext ih
    funext moments i
    rw [watchedSearch_succ, AuthManager.decides, AuthManager.parents, checkRolePermission, getRole,
      observe_bind, hfun]
    cases (moments i).getRole roleName with
    | none => rfl
    | some role => exact role_answer role.isSuperuser _ _ moments (i + 1)

/-- The loop over the user's roles makes the same search at each of them. -/
theorem checkPermission_eq_watchedSearch (fuel : Nat) (username : String)
    (permission : Permission) (resource : ResourceType) (moments : Nat → AuthManager) :
    checkPermission fuel username permission resource moments 0 =
      match (moments 0).getUser username with
      | some user =>
        if user.isSuperuser then some (true, 1)
        else user.roles.anyM (watchedSearch (fun auth => auth.decides permission resource)
          AuthManager.parents (fuel + 1)) moments 1
      | none => some (false, 1) := by
  have hfun : checkRolePermission permission resource (fuel + 1) =
      watchedSearch (fun auth => auth.decides permission resource) AuthManager.parents (fuel + 1) :=
    funext (checkRolePermission_eq_watchedSearch permission resource (fuel + 1))
  rw [checkPermission, getUser, observe_bind, ← hfun]
  cases (moments 0).getUser username with
  | none => rfl
  | some user =>
    dsimp only
    cases user.isSuperuser <;> rfl

private theorem search_forward (roleName : String) (i : Nat) (b : Bool) (j : Nat)
    (h : watchedSearch (fun auth => auth.decides permission resource) AuthManager.parents fuel
      roleName moments i = some (b, j)) : i ≤ j :=
  (watchedSearch_forward h).le

theorem allowedInPieces_of_true
    (h : checkPermission fuel username permission resource moments 0 = some (true, locks)) :
    AllowedInPieces moments locks username permission resource := by
  rw [checkPermission_eq_watchedSearch] at h
  unfold AllowedInPieces
  cases huser : (moments 0).getUser username with
  | none =>
    rw [huser] at h
    cases h
  | some user =>
    rw [huser] at h
    refine ⟨user, rfl, ?_⟩
    cases hsuper : user.isSuperuser with
    | true => exact .inl rfl
    | false =>
      simp only [hsuper, Bool.false_eq_true, if_false] at h
      obtain ⟨first, hfirst, t, ht, hfound⟩ := watching_anyM_true search_forward h
      obtain ⟨u, roleName, hpath, hu, hdecides⟩ := watchedSearch_true hfound
      simp only [AuthManager.edge_parents] at hpath
      exact .inr ⟨first, hfirst, t, u, roleName, ht, hu, hpath,
        (AuthManager.decides_iff _ permission resource roleName).mp hdecides⟩

theorem not_allowedThroughout_of_false
    (h : checkPermission fuel username permission resource moments 0 = some (false, locks)) :
    ¬ AllowedThroughout moments locks username permission resource := by
  rw [checkPermission_eq_watchedSearch] at h
  rintro ⟨user, huser, hallowed⟩
  rw [huser] at h
  cases hsuper : user.isSuperuser with
  | true =>
    simp only [hsuper, if_true] at h
    cases h
  | false =>
    simp only [hsuper, Bool.false_eq_true, if_false] at h
    rcases hallowed with htrue | ⟨first, hfirst, roleName, hpath, hpermits⟩
    · exact Bool.false_ne_true (hsuper.symm.trans htrue)
    · obtain ⟨t, k, ht, hk, hmissed⟩ := (watching_anyM_false search_forward h).2 first hfirst
      have hstays : ReflTransGen (fun child parent => ∀ u, t ≤ u → u < k →
          Edge (moments u).parents child parent) first roleName := by
        refine ReflTransGen.mono (fun child parent hedge u hu hu' => ?_) _ _ hpath
        exact ((moments u).edge_parents_iff child parent).mpr (hedge u (by omega) (by omega))
      obtain ⟨u, hu, hu', hdecides⟩ := watchedSearch_false hmissed hstays
      have hpermitted := hpermits u (by omega) (by omega)
      rw [← AuthManager.decides_iff, hdecides] at hpermitted
      cases hpermitted

/-- Whatever administration goes on, a yes was there in pieces, and what was there all the time is
never a no. -/
theorem interleaved_answer (start : AuthManager) (before : Nat → List AdminCall)
    (h : checkPermission fuel username permission resource (start.moments before) 0 =
      some (answer, locks)) :
    (answer = true → AllowedInPieces (start.moments before) locks username permission resource) ∧
      (answer = false →
        ¬ AllowedThroughout (start.moments before) locks username permission resource) := by
  constructor
  · rintro rfl
    exact allowedInPieces_of_true h
  · rintro rfl
    exact not_allowedThroughout_of_false h

section Examples

/-- Between the locks of the two roles the inheritance goes and the grant comes. -/
def movedGrant : Nat → List AdminCall
  | 2 => [.removeRoleInheritance "analyst" "reader",
      .grantPermission "reader" .select (.schema "public") "postgres" false]
  | _ => []

def movedGrantMoments : Nat → AuthManager :=
  (run AuthManager.step .new AuthManager.oneInheritance).moments movedGrant

private theorem movedGrantMoments_later (t : Nat) :
    movedGrantMoments (t + 2) = movedGrantMoments 2 := by
  induction t with
  | zero => rfl
  | succ t ih => exact ih

private theorem movedGrantMoments_denied (t : Nat) :
    (movedGrantMoments t).checkPermission 1 "alice" .select (.table "public.orders") =
      some false := by
  match t with
  | 0 => decide
  | 1 => decide
  | t + 2 =>
    rw [movedGrantMoments_later]
    decide

/-- The check lets in who is allowed at no moment at all. -/
theorem interleaved_answer_movedGrant :
    AllowedInPieces movedGrantMoments 3 "alice" .select (.table "public.orders") ∧
      ∀ t, ¬ (movedGrantMoments t).Allowed "alice" .select (.table "public.orders") := by
  have hcheck : checkPermission 1 "alice" .select (.table "public.orders") movedGrantMoments 0 =
      some (true, 3) := by decide
  refine ⟨(interleaved_answer _ movedGrant hcheck).1 rfl, fun t hallowed => ?_⟩
  exact Bool.false_ne_true
    ((AuthManager.checkPermission_answer_iff (movedGrantMoments_denied t)).mpr hallowed)

end Examples

end SharedAuthManager

namespace AuthManager
variable {auth auth' auth'' : AuthManager}

theorem Extends.trans (h : Extends auth auth') (h' : Extends auth' auth'') :
    Extends auth auth'' where
  users := h'.users.trans h.users
  roles roleName role hrole := by
    obtain ⟨role', hrole', hle⟩ := h.roles roleName role hrole
    obtain ⟨role'', hrole'', hle'⟩ := h'.roles roleName role' hrole'
    exact ⟨role'', hrole'', hle'.isSuperuser ∘ hle.isSuperuser,
      List.Subset.trans hle.grants hle'.grants,
      List.Subset.trans hle.inheritedRoles hle'.inheritedRoles⟩

/-- The call adds to the store and creates nothing over. -/
def Adds (call : AdminCall) : Prop :=
  (Operation.call call).Granting ∧ (Operation.call call).created = []

theorem step_adds {call : AdminCall} (h : Adds call) : Extends auth (auth.step call) := by
  have hgranted : _ ∨ Replaces auth (auth.step call) _ := perform_granting h.1
  rcases hgranted with ⟨_, hextends⟩ | hreplaces
  · exact hextends
  · rw [h.2] at hreplaces
    exact ⟨hreplaces.users, fun roleName role hrole =>
      ⟨role, (hreplaces.roles roleName).trans hrole, .refl role⟩⟩

section Moments
variable (start : AuthManager) {before : Nat → List AdminCall}

/-- What every call keeps between the stores around it holds between any two moments. -/
theorem moments_related {r : AuthManager → AuthManager → Prop} (hrefl : ∀ s, r s s)
    (htrans : ∀ {s s' s''}, r s s' → r s' s'' → r s s'')
    (hstep : ∀ s t, ∀ call ∈ before t, r s (s.step call)) :
    (∀ t, r start (start.moments before t)) ∧
      ∀ t u, t ≤ u → r (start.moments before t) (start.moments before u) := by
  have hrun : ∀ s t, r s (run step s (before t)) := by
    intro s t
    have hkeeps : ∀ s' call, call ∈ before t → r s s' → r s (s'.step call) :=
      fun s' call hcall hs => htrans hs (hstep s' t call hcall)
    exact run_invariant_of hkeeps (StepsMeet.of_forall (fun _ => id) s) (hrefl s)
  have hfrom : ∀ t, r start (start.moments before t) := by
    intro t
    induction t with
    | zero => exact hrun start 0
    | succ t ih => exact htrans ih (hrun _ (t + 1))
  refine ⟨hfrom, fun t u htu => ?_⟩
  induction htu with
  | refl => exact hrefl _
  | step _ ih => exact htrans ih (hrun _ _)

theorem moments_restricting
    (h : ∀ t, ∀ call ∈ before t, (Operation.call call).Restricting) :
    (∀ t, Extends (start.moments before t) start) ∧
      ∀ t u, t ≤ u → Extends (start.moments before u) (start.moments before t) :=
  moments_related start (r := fun s s' => Extends s' s) extends_refl (fun hs hs' => hs'.trans hs)
    fun _ t call hcall => perform_restricting (h t call hcall)

theorem moments_adds (h : ∀ t, ∀ call ∈ before t, Adds call) :
    (∀ t, Extends start (start.moments before t)) ∧
      ∀ t u, t ≤ u → Extends (start.moments before t) (start.moments before u) :=
  moments_related start extends_refl Extends.trans fun _ t call hcall => step_adds (h t call hcall)

end Moments
end AuthManager

section Bounds
variable {moments : Nat → AuthManager} {locks : Nat} {username : String} {permission : Permission}
  {resource : ResourceType} {low high : AuthManager}

theorem AllowedInPieces.allowed
    (h : AllowedInPieces moments locks username permission resource)
    (hhigh : ∀ t, t < locks → AuthManager.Extends (moments t) high) (hlocks : 0 < locks) :
    high.Allowed username permission resource := by
  obtain ⟨user, huser, hpieces⟩ := h
  refine ⟨user, ?_, hpieces.imp_right ?_⟩
  · rw [AuthManager.getUser, (hhigh 0 hlocks).users]
    exact huser
  · rintro ⟨first, hfirst, t, u, roleName, _, hu, hpath, role, hrole, hpermits⟩
    obtain ⟨role', hrole', hle⟩ := (hhigh u hu).roles roleName role hrole
    have hpath' := hpath.path fun v hv _ _ hedge => (hhigh v (hv.trans_lt hu)).inherits hedge
    exact ⟨first, hfirst, roleName, hpath', role', hrole', hle.permits hpermits⟩

theorem AllowedThroughout.of_allowed (h : low.Allowed username permission resource)
    (hlow : ∀ t, t < locks → AuthManager.Extends low (moments t)) (hlocks : 0 < locks) :
    AllowedThroughout moments locks username permission resource := by
  obtain ⟨user, huser, hallowed⟩ := h
  refine ⟨user, ?_, hallowed.imp_right ?_⟩
  · rw [AuthManager.getUser, (hlow 0 hlocks).users]
    exact huser
  · rintro ⟨first, hfirst, roleName, hpath, role, hrole, hpermits⟩
    refine ⟨first, hfirst, roleName, ?_, fun t _ ht => ?_⟩
    · exact ReflTransGen.mono (fun _ _ hedge t _ ht => (hlow t ht).inherits hedge) _ _ hpath
    · obtain ⟨role', hrole', hle⟩ := (hlow t ht).roles roleName role hrole
      exact ⟨role', hrole', hle.permits hpermits⟩

end Bounds

namespace SharedAuthManager
variable {moments : Nat → AuthManager} {fuel locks : Nat} {username : String}
  {permission : Permission} {resource : ResourceType} {answer : Bool} {low high : AuthManager}

theorem checkPermission_locks_pos
    (h : checkPermission fuel username permission resource moments 0 = some (answer, locks)) :
    0 < locks := by
  rw [checkPermission_eq_watchedSearch] at h
  split at h
  · split at h
    · cases h
      exact Nat.one_pos
    · cases answer with
      | true =>
        obtain ⟨first, _, t, ht, hfound⟩ := watching_anyM_true search_forward h
        exact (Nat.one_pos.trans_le ht).trans (watchedSearch_forward hfound)
      | false => exact Nat.one_pos.trans_le (watching_anyM_false search_forward h).1
  · cases h
    exact Nat.one_pos

/-- Between two stores that bound what the check sees, it answers for one of them. -/
theorem bounded_answer
    (h : checkPermission fuel username permission resource moments 0 = some (answer, locks))
    (hhigh : ∀ t, t < locks → AuthManager.Extends (moments t) high)
    (hlow : ∀ t, t < locks → AuthManager.Extends low (moments t)) :
    (answer = true → high.Allowed username permission resource) ∧
      (answer = false → ¬ low.Allowed username permission resource) := by
  have hlocks := checkPermission_locks_pos h
  constructor
  · rintro rfl
    exact (allowedInPieces_of_true h).allowed hhigh hlocks
  · rintro rfl hallowed
    exact not_allowedThroughout_of_false h (.of_allowed hallowed hlow hlocks)

/-- Below an acyclic graph the check comes to an end, at whatever depth is enough. -/
theorem checkPermission_answers (hacyclic : Acyclic high.Inherits)
    (hhigh : ∀ t, AuthManager.Extends (moments t) high) (username : String)
    (permission : Permission) (resource : ResourceType) :
    ∃ fuel answer locks, ∀ deeper, fuel ≤ deeper →
      checkPermission deeper username permission resource moments 0 = some (answer, locks) := by
  have hbound : ∀ t roleName, (moments t).parents roleName ⊆ high.parents roleName := by
    intro t roleName parent hparent
    have hedge := ((moments t).edge_parents_iff roleName parent).mp hparent
    exact (high.edge_parents_iff roleName parent).mpr ((hhigh t).inherits hedge)
  have hwf := AuthManager.inherits_wellFounded hacyclic
  simp only [checkPermission_eq_watchedSearch]
  cases (moments 0).getUser username with
  | none => exact ⟨0, false, 1, fun _ _ => rfl⟩
  | some user =>
    dsimp only
    cases user.isSuperuser with
    | true => exact ⟨0, true, 1, fun _ _ => rfl⟩
    | false =>
      obtain ⟨fuel, hfuel⟩ := watchedSearch_answers_all
        (fun auth : AuthManager => auth.decides permission resource) hbound
        (fun roleName (_ : roleName ∈ user.roles) => hwf.apply roleName)
      obtain ⟨answer, locks, hanswer⟩ := watching_anyM_answers hfuel 1
      refine ⟨fuel, answer, locks, fun deeper hdeeper => ?_⟩
      exact watching_anyM_mono (fun roleName _ i r hr => watchedSearch_mono (by omega) hr) hanswer

/-- While administration only takes away, the check ends. A yes was right when it began, a no is
right when it ends. -/
theorem restricted_answer (start : AuthManager) (before : Nat → List AdminCall)
    (hacyclic : Acyclic start.Inherits)
    (hrestricting : ∀ t, ∀ call ∈ before t, (Operation.call call).Restricting)
    (username : String) (permission : Permission) (resource : ResourceType) :
    ∃ fuel answer locks,
      (∀ deeper, fuel ≤ deeper →
        checkPermission deeper username permission resource (start.moments before) 0 =
          some (answer, locks)) ∧
      (answer = true → start.Allowed username permission resource) ∧
      (answer = false →
        ¬ (start.moments before (locks - 1)).Allowed username permission resource) := by
  obtain ⟨hstart, hlater⟩ := AuthManager.moments_restricting start hrestricting
  obtain ⟨fuel, answer, locks, hanswer⟩ :=
    checkPermission_answers hacyclic hstart username permission resource
  refine ⟨fuel, answer, locks, hanswer, ?_⟩
  exact bounded_answer (hanswer fuel le_rfl) (fun t _ => hstart t)
    (fun t ht => hlater t (locks - 1) (Nat.le_sub_one_of_lt ht))

/-- The grant goes between the locks of the two roles. -/
def revokedGrant : Nat → List AdminCall
  | 2 => [.revokePermission "reader" .select (.schema "public")]
  | _ => []

theorem revokedGrant_restricting (t : Nat) :
    ∀ call ∈ revokedGrant t, (Operation.call call).Restricting := by
  intro call hcall
  by_cases ht : t = 2
  · subst ht
    rw [List.mem_singleton.mp hcall]
    trivial
  · have hnone : revokedGrant t = [] := by
      match t with
      | 0 => rfl
      | 1 => rfl
      | t + 3 => rfl
    rw [hnone] at hcall
    exact absurd hcall List.not_mem_nil

theorem restricted_answer_revokedGrant :
    ∃ fuel answer locks,
      (∀ deeper, fuel ≤ deeper →
        checkPermission deeper "alice" .select (.table "public.orders")
          (AuthManager.inheritedGrant.moments revokedGrant) 0 = some (answer, locks)) ∧
      (answer = true →
        AuthManager.inheritedGrant.Allowed "alice" .select (.table "public.orders")) ∧
      (answer = false →
        ¬ (AuthManager.inheritedGrant.moments revokedGrant (locks - 1)).Allowed "alice" .select
          (.table "public.orders")) :=
  restricted_answer AuthManager.inheritedGrant revokedGrant AuthManager.inheritedGrant_acyclic
    revokedGrant_restricting "alice" .select (.table "public.orders")

/-- While administration only adds, a yes is right when the check ends, and a no was right when it
began. -/
theorem added_answer (start : AuthManager) (before : Nat → List AdminCall)
    (hadds : ∀ t, ∀ call ∈ before t, AuthManager.Adds call)
    (h : checkPermission fuel username permission resource (start.moments before) 0 =
      some (answer, locks)) :
    (answer = true →
        (start.moments before (locks - 1)).Allowed username permission resource) ∧
      (answer = false → ¬ start.Allowed username permission resource) := by
  obtain ⟨hstart, hlater⟩ := AuthManager.moments_adds start hadds
  exact bounded_answer h (fun t ht => hlater t (locks - 1) (Nat.le_sub_one_of_lt ht))
    (fun t _ => hstart t)

/-- The grant comes between the locks of the two roles. -/
def addedGrant : Nat → List AdminCall
  | 2 => [.grantPermission "reader" .select (.schema "public") "postgres" false]
  | _ => []

theorem addedGrant_adds (t : Nat) : ∀ call ∈ addedGrant t, AuthManager.Adds call := by
  intro call hcall
  by_cases ht : t = 2
  · subst ht
    rw [List.mem_singleton.mp hcall]
    exact ⟨trivial, rfl⟩
  · have hnone : addedGrant t = [] := by
      match t with
      | 0 => rfl
      | 1 => rfl
      | t + 3 => rfl
    rw [hnone] at hcall
    exact absurd hcall List.not_mem_nil

theorem added_answer_addedGrant :
    ((run AuthManager.step .new AuthManager.oneInheritance).moments addedGrant 2).Allowed "alice"
      .select (.table "public.orders") := by
  have hcheck : checkPermission 1 "alice" .select (.table "public.orders")
      ((run AuthManager.step .new AuthManager.oneInheritance).moments addedGrant) 0 =
        some (true, 3) := by decide
  exact (added_answer _ addedGrant addedGrant_adds hcheck).1 rfl

end SharedAuthManager
end DatafusionPostgres.Auth
