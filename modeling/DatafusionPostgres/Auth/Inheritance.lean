import DatafusionPostgres.Auth.Manager
import DatafusionPostgres.Library.Search

/-! The inheritance graph of the role store: which calls change it, and why the
permission check returns while it has no cycle. -/
namespace DatafusionPostgres.Auth
open ArrowPg Library Relation
namespace AuthManager

/-- The edge that the recursive check follows. A name without entry has none. -/
def Inherits (auth : AuthManager) (child parent : String) : Prop :=
  ∃ role, auth.getRole child = some role ∧ parent ∈ role.inheritedRoles

def parents (auth : AuthManager) (roleName : String) : List String :=
  match auth.getRole roleName with
  | some role => role.inheritedRoles
  | none => []

/-- The role alone answers the request. -/
def decides (auth : AuthManager) (permission : Permission) (resource : ResourceType)
    (roleName : String) : Bool :=
  match auth.getRole roleName with
  | some role => role.isSuperuser || grantsMatch role permission resource
  | none => false

theorem edge_parents_iff (auth : AuthManager) (child parent : String) :
    Edge auth.parents child parent ↔ auth.Inherits child parent := by
  unfold Edge parents Inherits
  cases auth.getRole child <;> simp

theorem edge_parents (auth : AuthManager) : Edge auth.parents = auth.Inherits := by
  funext child parent
  exact propext (auth.edge_parents_iff child parent)

/-- The recursive helper is a depth-first search of the inheritance graph. -/
theorem checkRolePermission_eq_search (auth : AuthManager) (permission : Permission)
    (resource : ResourceType) (fuel : Nat) (roleName : String) :
    auth.checkRolePermission permission resource fuel roleName =
      search (auth.decides permission resource) auth.parents fuel roleName := by
  induction fuel generalizing roleName with
  | zero => rfl
  | succ fuel ih =>
    have hfun : auth.checkRolePermission permission resource fuel =
        search (auth.decides permission resource) auth.parents fuel := funext ih
    rw [checkRolePermission, search, decides, parents]
    cases auth.getRole roleName with
    | none => simp
    | some role =>
      simp only [hfun, Bool.or_eq_true]
      cases role.isSuperuser <;> cases grantsMatch role permission resource <;> simp

/-- The top-level loop makes the same test at each role of the user. -/
theorem checkPermission_eq_search (auth : AuthManager) (fuel : Nat) (username : String)
    (permission : Permission) (resource : ResourceType) :
    auth.checkPermission fuel username permission resource =
      match auth.getUser username with
      | some user =>
        if user.isSuperuser then some true
        else user.roles.anyM (search (auth.decides permission resource) auth.parents (fuel + 1))
      | none => some false := by
  have hfun : auth.checkRolePermission permission resource (fuel + 1) =
      search (auth.decides permission resource) auth.parents (fuel + 1) :=
    funext (auth.checkRolePermission_eq_search permission resource (fuel + 1))
  rw [checkPermission, ← hfun]
  rfl

theorem finite_inheriting (auth : AuthManager) : {a | a ∈ auth.listRoles}.Finite :=
  List.finite_toSet auth.listRoles

theorem inherits_listed {auth : AuthManager} {child parent : String}
    (h : auth.Inherits child parent) : child ∈ auth.listRoles := by
  obtain ⟨role, hr, _⟩ := h
  exact (HashMap.mem_keys_iff _ _).mpr ⟨role, hr⟩

/-- The check returns, with an answer that a deeper stack does not change. -/
def Terminates (auth : AuthManager) (username : String) (permission : Permission)
    (resource : ResourceType) : Prop :=
  ∃ fuel answer, ∀ deeper, fuel ≤ deeper →
    auth.checkPermission deeper username permission resource = some answer

theorem inherits_wellFounded {auth : AuthManager} (h : Acyclic auth.Inherits) :
    WellFounded (fun x y => Edge auth.parents y x) := by
  apply edge_wellFounded auth.finite_inheriting
  · intro a b hab
    exact inherits_listed ((auth.edge_parents_iff a b).mp hab)
  · rw [edge_parents]
    exact h

theorem terminates_of_acyclic {auth : AuthManager} (h : Acyclic auth.Inherits)
    (username : String) (permission : Permission) (resource : ResourceType) :
    auth.Terminates username permission resource := by
  have hwf := inherits_wellFounded h
  cases hu : auth.getUser username with
  | none =>
    refine ⟨0, false, fun deeper _ => ?_⟩
    rw [checkPermission_eq_search, hu]
  | some user =>
    cases hs : user.isSuperuser with
    | true =>
      refine ⟨0, true, fun deeper _ => ?_⟩
      rw [checkPermission_eq_search, hu]
      simp [hs]
    | false =>
      obtain ⟨fuel, hfuel⟩ := search_terminates_all (auth.decides permission resource)
        (fun a (_ : a ∈ user.roles) => hwf.apply a)
      obtain ⟨answer, ha⟩ := anyM_isSome hfuel
      refine ⟨fuel, answer, fun deeper hd => ?_⟩
      rw [checkPermission_eq_search, hu]
      simp only [hs, Bool.false_eq_true, if_false]
      exact anyM_mono (fun a _ c hc => search_mono (by omega) hc) ha

private theorem getRole_insert (auth : AuthManager) (name k : String) (role : Role) :
    getRole { auth with roles := auth.roles.insert name role } k =
      if k = name then some role else auth.getRole k :=
  HashMap.get_insert auth.roles name k role

private theorem inherits_insert {auth : AuthManager} {name : String} {role : Role}
    {child parent : String}
    (h : Inherits { auth with roles := auth.roles.insert name role } child parent) :
    (child = name ∧ parent ∈ role.inheritedRoles) ∨ auth.Inherits child parent := by
  obtain ⟨r, hr, hp⟩ := h
  rw [getRole_insert] at hr
  by_cases hc : child = name
  · rw [if_pos hc] at hr
    cases hr
    exact .inl ⟨hc, hp⟩
  · rw [if_neg hc] at hr
    exact .inr ⟨r, hr, hp⟩

private theorem inherits_modifyRole {auth : AuthManager} {name : String} {update : Role → Role}
    {child parent : String} (h : (auth.modifyRole name update).2.Inherits child parent) :
    (child = name ∧ ∃ role, auth.getRole name = some role ∧
      parent ∈ (update role).inheritedRoles) ∨ auth.Inherits child parent := by
  unfold modifyRole at h
  cases hr : auth.getRole name with
  | none =>
    rw [hr] at h
    exact .inr h
  | some role =>
    rw [hr] at h
    rcases inherits_insert h with ⟨hc, hp⟩ | h
    · exact .inl ⟨hc, role, rfl, hp⟩
    · exact .inr h

private theorem inherits_of_modifyRole {auth : AuthManager} {name : String} {update : Role → Role}
    (hupdate : ∀ role, (update role).inheritedRoles ⊆ role.inheritedRoles)
    {child parent : String} (h : (auth.modifyRole name update).2.Inherits child parent) :
    auth.Inherits child parent := by
  rcases inherits_modifyRole h with ⟨rfl, role, hr, hp⟩ | h
  · exact ⟨role, hr, hupdate role hp⟩
  · exact h

/-- What the call adds to the graph leads nowhere back to the role it changes. -/
def ClosesNoCycle (auth : AuthManager) : AdminCall → Prop
  | .addRole role =>
    ∀ parent ∈ role.inheritedRoles, ¬ ReflTransGen auth.Inherits parent role.name
  | .addRoleInheritance childRole parentRole =>
    auth.getRole childRole ≠ none → ¬ ReflTransGen auth.Inherits parentRole childRole
  | _ => True

private theorem acyclic_addRole {auth : AuthManager} {role : Role} (h : Acyclic auth.Inherits)
    (hrole : auth.ClosesNoCycle (.addRole role)) : Acyclic (auth.addRole role).2.Inherits := by
  apply h.of_edges_from (x := role.name)
  intro child parent hedge
  rcases inherits_insert hedge with ⟨hc, hp⟩ | hedge
  · exact .inr ⟨hc, hrole parent hp⟩
  · exact .inl hedge

private theorem acyclic_addRoleInheritance {auth : AuthManager} {childRole parentRole : String}
    (h : Acyclic auth.Inherits)
    (hcall : auth.ClosesNoCycle (.addRoleInheritance childRole parentRole)) :
    Acyclic (auth.addRoleInheritance childRole parentRole).2.Inherits := by
  apply h.of_edges_from (x := childRole)
  intro child parent hedge
  rcases inherits_modifyRole hedge with ⟨rfl, role, hr, hp⟩ | hedge
  · have hnew : parent ∈ role.inheritedRoles ∨ parent = parentRole := by
      split at hp
      · exact .inl hp
      · simpa using hp
    rcases hnew with hp | rfl
    · exact .inl ⟨role, hr, hp⟩
    · exact .inr ⟨rfl, hcall (by simp [hr])⟩
  · exact .inl hedge

/-- A call that closes no cycle keeps the graph acyclic. -/
theorem step_acyclic (auth : AuthManager) (call : AdminCall) (hcall : auth.ClosesNoCycle call)
    (h : Acyclic auth.Inherits) : Acyclic (auth.step call).Inherits := by
  cases call with
  | addUser user => exact h
  | addRole role => exact acyclic_addRole h hcall
  | createRole config => exact acyclic_addRole h fun _ hp => absurd hp List.not_mem_nil
  | grantPermission roleName permission resource grantedBy withGrantOption =>
    refine h.mono fun _ _ hedge => inherits_of_modifyRole ?_ hedge
    exact fun role => List.Subset.refl role.inheritedRoles
  | revokePermission roleName permission resource =>
    refine h.mono fun _ _ hedge => inherits_of_modifyRole ?_ hedge
    exact fun role => List.Subset.refl role.inheritedRoles
  | addRoleInheritance childRole parentRole => exact acyclic_addRoleInheritance h hcall
  | removeRoleInheritance childRole parentRole =>
    refine h.mono fun _ _ hedge => inherits_of_modifyRole ?_ hedge
    exact fun role => List.filter_subset_self role.inheritedRoles

theorem new_acyclic : Acyclic new.Inherits := by
  have hnone : ∀ a b, ¬ new.Inherits a b := by
    rintro a b ⟨role, hr, hp⟩
    rw [new, getRole, HashMap.get_insert] at hr
    split at hr
    · cases hr
      exact List.not_mem_nil hp
    · cases hr
  intro a ha
  obtain ⟨b, hab, _⟩ := TransGen.head'_iff.mp ha
  exact hnone a b hab

/-- While no call has closed a cycle, the inheritance graph has none. -/
theorem run_acyclic {calls : List AdminCall} (h : StepsMeet step ClosesNoCycle new calls) :
    Acyclic (run step new calls).Inherits :=
  run_invariant_of step_acyclic h new_acyclic

/-- In a run that closes no cycle, every check at every moment answers. -/
theorem checkPermission_terminates_of_closesNoCycle (before after : List AdminCall)
    (h : StepsMeet step ClosesNoCycle new (before ++ after)) (username : String)
    (permission : Permission) (resource : ResourceType) :
    (run step new before).Terminates username permission resource :=
  terminates_of_acyclic (run_acyclic h.of_append) username permission resource

private def plainRole (name : String) : RoleConfig :=
  ⟨name, false, false, false, false, false, false⟩

private def loginUser (username role : String) : User :=
  ⟨username, "", [role], false, true, none⟩

/-- One role that inherits from another, and a user with it. -/
def oneInheritance : List AdminCall :=
  [.createRole (plainRole "analyst"), .createRole (plainRole "reader"),
    .addRoleInheritance "analyst" "reader", .addUser (loginUser "alice" "analyst")]

theorem oneInheritance_closesNoCycle : StepsMeet step ClosesNoCycle new oneInheritance := by
  refine ⟨trivial, trivial, fun _ hpath => ?_, trivial, trivial⟩
  rcases hpath.cases_head with heq | ⟨parent, ⟨role, hr, hp⟩, _⟩
  · exact absurd heq (by decide)
  · cases hr
    exact List.not_mem_nil hp

theorem oneInheritance_terminates :
    (run step new oneInheritance).Terminates "alice" .select (.table "public.orders") :=
  checkPermission_terminates_of_closesNoCycle oneInheritance [] oneInheritance_closesNoCycle
    "alice" .select (.table "public.orders")

def mutualInheritance : List AdminCall :=
  oneInheritance ++ [.addRoleInheritance "reader" "analyst"]

private theorem mutual_roles_trap (role : String) (h : role = "analyst" ∨ role = "reader") :
    (run step new mutualInheritance).decides .select (.table "public.orders") role = false ∧
      ∃ parent rest, (run step new mutualInheritance).parents role = parent :: rest ∧
        (parent = "analyst" ∨ parent = "reader") := by
  rcases h with rfl | rfl
  · exact ⟨by decide, "reader", [], rfl, .inr rfl⟩
  · exact ⟨by decide, "analyst", [], rfl, .inl rfl⟩

/-- Two roles that inherit from each other: no depth is enough for an answer. -/
theorem mutualInheritance_unanswered (fuel : Nat) :
    (run step new mutualInheritance).checkPermission fuel "alice" .select
      (.table "public.orders") = none := by
  have hstuck := search_trapped mutual_roles_trap (fuel + 1) (.inl rfl)
  rw [checkPermission_eq_search]
  change List.anyM _ ["analyst"] = none
  rw [List.anyM_cons, hstuck]
  rfl

theorem mutualInheritance_not_terminates :
    ¬ (run step new mutualInheritance).Terminates "alice" .select (.table "public.orders") := by
  rintro ⟨fuel, answer, h⟩
  have hanswer := h fuel le_rfl
  rw [mutualInheritance_unanswered] at hanswer
  cases hanswer

end AuthManager
end DatafusionPostgres.Auth
