import DatafusionPostgres.Auth.Permission

/-! How administration moves the answers of the permission check. Granting operations only add to
the graph that the check searches, except that a creation puts a fresh role in the place of one that
has its name. -/
namespace DatafusionPostgres.Auth
open ArrowPg Library Relation

inductive Operation where
  | call (call : AdminCall)
  | createPredefinedRoles

def AuthManager.perform (auth : AuthManager) : Operation → PgWireResult Unit × AuthManager
  | .call call => auth.apply call
  | .createPredefinedRoles => auth.createPredefinedRoles

def Operation.Granting : Operation → Prop
  | .call (.grantPermission _ _ _ _ _) | .call (.addRoleInheritance _ _) | .call (.createRole _)
  | .createPredefinedRoles => True
  | _ => False

def Operation.Restricting : Operation → Prop
  | .call (.revokePermission _ _ _) | .call (.removeRoleInheritance _ _) => True
  | _ => False

/-- The role that `create_role` puts in the store. -/
def RoleConfig.role (config : RoleConfig) : Role where
  name := config.name
  isSuperuser := config.isSuperuser
  canLogin := config.canLogin
  canCreateDb := config.canCreateDb
  canCreateRole := config.canCreateRole
  canCreateUser := config.canCreateUser
  canReplication := config.canReplication
  grants := []
  inheritedRoles := []

def Role.granted (role : Role) (grants : List Grant) : Role :=
  { role with grants := role.grants ++ grants }

/-- The roles that an operation puts under their names, as it leaves them, the newest first. -/
def Operation.created : Operation → List Role
  | .call (.createRole config) => [config.role]
  | .createPredefinedRoles =>
    [dbadminRole.role.granted [⟨.all, .all, "system", true⟩],
      readwriteRole.role.granted [⟨.select, .all, "system", false⟩,
        ⟨.insert, .all, "system", false⟩, ⟨.update, .all, "system", false⟩,
        ⟨.delete, .all, "system", false⟩],
      readonlyRole.role.granted [⟨.select, .all, "system", false⟩]]
  | _ => []

def createdAs (created : List Role) (roleName : String) : Option Role :=
  created.find? fun role => role.name == roleName

/-- The check returns this answer at some depth of the stack. -/
def AuthManager.Answers (auth : AuthManager) (username : String) (permission : Permission)
    (resource : ResourceType) (answer : Bool) : Prop :=
  ∃ fuel, auth.checkPermission fuel username permission resource = some answer

/-- What administration owes the answers given before it. -/
structure AnswersMonotone (auth : AuthManager) (operation : Operation) : Prop where
  granting : operation.Granting → ∀ username permission resource,
    auth.Answers username permission resource true →
      (auth.perform operation).2.Answers username permission resource true
  restricting : operation.Restricting → ∀ username permission resource,
    auth.Answers username permission resource false →
      (auth.perform operation).2.Answers username permission resource false
  failing : ∀ e, (auth.perform operation).1 = .error e → ∀ username permission resource answer,
    (auth.perform operation).2.Answers username permission resource answer ↔
      auth.Answers username permission resource answer

section Creation
variable (auth : AuthManager) (created : List Role)

/-- An inheritance that a creation leaves: the created roles inherit nothing. -/
def AuthManager.StillInherits (child parent : String) : Prop :=
  auth.Inherits child parent ∧ createdAs created child = none

/-- The roles reach one that permits the request along inheritances that are left, where a
created role counts as it is created. -/
def AuthManager.StillPermitted (roles : List String) (permission : Permission)
    (resource : ResourceType) : Prop :=
  ∃ first ∈ roles, ∃ roleName, ReflTransGen (auth.StillInherits created) first roleName ∧
    ∃ role, (createdAs created roleName).or (auth.getRole roleName) = some role ∧
      role.Permits permission resource

/-- What a user without the superuser flag holds through a role that is created over, by itself
or by inheritance, the user also holds elsewhere: every grant, and everything where the role is a
superuser. -/
def AuthManager.KeepsRights : Prop :=
  ∀ username user, auth.getUser username = some user → user.isSuperuser = false →
    ∀ first ∈ user.roles, ∀ replaced, ReflTransGen auth.Inherits first replaced →
      createdAs created replaced ≠ none →
        ∀ roleName, ReflTransGen auth.Inherits replaced roleName →
          ∀ role, auth.getRole roleName = some role →
            (role.isSuperuser = true → auth.StillPermitted created user.roles .all .all) ∧
            ∀ grant ∈ role.grants,
              auth.StillPermitted created user.roles grant.permission grant.resource

end Creation

section Covers

theorem Grant.covers_self (grant : Grant) : grant.Covers grant.permission grant.resource :=
  ⟨.inl rfl, .inl rfl⟩

theorem Grant.Covers.trans {grant other : Grant} {permission : Permission}
    {resource : ResourceType} (h : grant.Covers other.permission other.resource)
    (hother : other.Covers permission resource) : grant.Covers permission resource := by
  obtain ⟨hpermission, hresource⟩ := h
  obtain ⟨hpermission', hresource'⟩ := hother
  constructor
  · rcases hpermission with heq | hall
    · rw [heq]
      exact hpermission'
    · exact .inr hall
  · rcases hresource with heq | hall | ⟨schema, table, hschema, htable, hprefix⟩
    · rw [heq]
      exact hresource'
    · exact .inr (.inl hall)
    · rcases hresource' with heq | hall | ⟨schema', table', hschema', _⟩
      · exact .inr (.inr ⟨schema, table, hschema, heq ▸ htable, hprefix⟩)
      · rw [hall] at htable
        cases htable
      · rw [hschema'] at htable
        cases htable

theorem Grant.Covers.of_all {grant : Grant} (h : grant.Covers .all .all)
    (permission : Permission) (resource : ResourceType) : grant.Covers permission resource := by
  obtain ⟨hpermission, hresource⟩ := h
  refine ⟨.inr (hpermission.elim id id), .inr (.inl ?_)⟩
  rcases hresource with hall | hall | ⟨_, _, _, htable, _⟩
  · exact hall
  · exact hall
  · cases htable

theorem Role.Permits.of_all {role : Role} (h : role.Permits .all .all) (permission : Permission)
    (resource : ResourceType) : role.Permits permission resource :=
  h.imp_right fun ⟨grant, hgrant, hcovers⟩ =>
    ⟨grant, hgrant, hcovers.of_all permission resource⟩

theorem Role.Permits.of_covers {role : Role} {grant : Grant} {permission : Permission}
    {resource : ResourceType} (h : role.Permits grant.permission grant.resource)
    (hcovers : grant.Covers permission resource) : role.Permits permission resource :=
  h.imp_right fun ⟨own, hown, hown_covers⟩ => ⟨own, hown, hown_covers.trans hcovers⟩

end Covers

section Calls

/-- The call that gives the grant to a role. -/
def Grant.call (roleName : String) (grant : Grant) : AdminCall :=
  .grantPermission roleName grant.permission grant.resource grant.grantedBy grant.withGrantOption

/-- The calls that create a role with grants. -/
def RoleConfig.calls (config : RoleConfig) (grants : List Grant) : List AdminCall :=
  .createRole config :: grants.map (Grant.call config.name)

end Calls

section AtMost

/-- The other role has all that the first has for the check. -/
structure Role.AtMost (role role' : Role) : Prop where
  isSuperuser : role.isSuperuser = true → role'.isSuperuser = true
  grants : role.grants ⊆ role'.grants
  inheritedRoles : role.inheritedRoles ⊆ role'.inheritedRoles

theorem Role.AtMost.refl (role : Role) : role.AtMost role :=
  ⟨id, List.Subset.refl _, List.Subset.refl _⟩

theorem Role.AtMost.permits {role role' : Role} (h : role.AtMost role') {permission : Permission}
    {resource : ResourceType} (hpermits : role.Permits permission resource) :
    role'.Permits permission resource := by
  rcases hpermits with hsuper | ⟨grant, hgrant, hcovers⟩
  · exact .inl (h.isSuperuser hsuper)
  · exact .inr ⟨grant, h.grants hgrant, hcovers⟩

end AtMost

namespace AuthManager

section Answers
variable {auth : AuthManager} {username : String} {permission : Permission}
  {resource : ResourceType}

theorem answers_true_iff (h : Acyclic auth.Inherits) :
    auth.Answers username permission resource true ↔ auth.Allowed username permission resource := by
  constructor
  · rintro ⟨fuel, hanswer⟩
    exact (checkPermission_answer_iff hanswer).mp rfl
  · intro hallowed
    obtain ⟨fuel, answer, hanswer⟩ := terminates_of_acyclic h username permission resource
    have htrue := (checkPermission_answer_iff (hanswer fuel le_rfl)).mpr hallowed
    exact ⟨fuel, htrue ▸ hanswer fuel le_rfl⟩

theorem answers_false_iff (h : Acyclic auth.Inherits) :
    auth.Answers username permission resource false ↔
      ¬ auth.Allowed username permission resource := by
  constructor
  · rintro ⟨fuel, hanswer⟩ hallowed
    exact Bool.false_ne_true ((checkPermission_answer_iff hanswer).mpr hallowed)
  · intro hnot
    obtain ⟨fuel, answer, hanswer⟩ := terminates_of_acyclic h username permission resource
    have hiff := checkPermission_answer_iff (hanswer fuel le_rfl)
    have hfalse : answer = false := Bool.eq_false_iff.mpr fun htrue => hnot (hiff.mp htrue)
    exact ⟨fuel, hfalse ▸ hanswer fuel le_rfl⟩

end Answers

section Extension
variable {auth auth' : AuthManager}

/-- The second state has every user, and at least what each role had. -/
structure Extends (auth auth' : AuthManager) : Prop where
  users : auth'.users = auth.users
  roles : ∀ roleName role, auth.getRole roleName = some role →
    ∃ role', auth'.getRole roleName = some role' ∧ role.AtMost role'

theorem Extends.inherits (h : Extends auth auth') {child parent : String}
    (hedge : auth.Inherits child parent) : auth'.Inherits child parent := by
  obtain ⟨role, hrole, hparent⟩ := hedge
  obtain ⟨role', hrole', hle⟩ := h.roles child role hrole
  exact ⟨role', hrole', hle.inheritedRoles hparent⟩

theorem Allowed.extend {username : String} {permission : Permission} {resource : ResourceType}
    (hallowed : auth.Allowed username permission resource) (h : Extends auth auth') :
    auth'.Allowed username permission resource := by
  obtain ⟨user, huser, hpermitted⟩ := hallowed
  refine ⟨user, ?_, hpermitted.imp_right ?_⟩
  · rw [getUser, h.users]
    exact huser
  · rintro ⟨first, hfirst, roleName, hpath, role, hrole, hpermits⟩
    obtain ⟨role', hrole', hle⟩ := h.roles roleName role hrole
    have hpath' := ReflTransGen.mono (fun _ _ hedge => h.inherits hedge) _ _ hpath
    exact ⟨first, hfirst, roleName, hpath', role', hrole', hle.permits hpermits⟩

theorem extends_refl (auth : AuthManager) : Extends auth auth :=
  ⟨rfl, fun _ role hrole => ⟨role, hrole, .refl role⟩⟩

theorem extends_modifyRole {roleName : String} {update : Role → Role}
    (hupdate : ∀ role : Role, role.AtMost (update role)) :
    Extends auth (auth.modifyRole roleName update).2 := by
  rw [modifyRole]
  cases hrole : auth.getRole roleName with
  | none => exact extends_refl auth
  | some role =>
    refine ⟨rfl, fun name old hold => ?_⟩
    by_cases hname : name = roleName
    · subst hname
      cases hold.symm.trans hrole
      exact ⟨update role, HashMap.get_insert_self _ _ _, hupdate role⟩
    · exact ⟨old, (HashMap.get_insert_of_ne _ hname _).trans hold, .refl old⟩

theorem modifyRole_extends {roleName : String} {update : Role → Role}
    (hupdate : ∀ role : Role, (update role).AtMost role) :
    Extends (auth.modifyRole roleName update).2 auth := by
  rw [modifyRole]
  cases hrole : auth.getRole roleName with
  | none => exact extends_refl auth
  | some role =>
    refine ⟨rfl, fun name new hnew => ?_⟩
    by_cases hname : name = roleName
    · subst hname
      cases (HashMap.get_insert_self _ _ _).symm.trans hnew
      exact ⟨role, hrole, hupdate role⟩
    · exact ⟨new, (HashMap.get_insert_of_ne _ hname _).symm.trans hnew, .refl new⟩

end Extension
section Replacement
variable {auth auth' : AuthManager} {created : List Role}

/-- The second state has the created roles in the place of those of their names. -/
structure Replaces (auth auth' : AuthManager) (created : List Role) : Prop where
  users : auth'.users = auth.users
  roles : ∀ roleName, auth'.getRole roleName =
    (createdAs created roleName).or (auth.getRole roleName)
  inheritNothing : ∀ role ∈ created, role.inheritedRoles = []

theorem Replaces.inherits_iff (h : Replaces auth auth' created) (child parent : String) :
    auth'.Inherits child parent ↔ auth.StillInherits created child parent := by
  rw [Inherits, StillInherits, Inherits, h.roles]
  cases hcreated : createdAs created child with
  | none => simp
  | some role =>
    have hnone := h.inheritNothing role (List.mem_of_find?_eq_some hcreated)
    simp [hnone]

/-- A creation closes no cycle. -/
theorem Replaces.acyclic (h : Replaces auth auth' created) (hacyclic : Acyclic auth.Inherits) :
    Acyclic auth'.Inherits :=
  hacyclic.mono fun child parent hedge => ((h.inherits_iff child parent).mp hedge).1

/-- After a creation the check finds what is left of the old graph. -/
theorem Replaces.allowed_iff (h : Replaces auth auth' created) (username : String)
    (permission : Permission) (resource : ResourceType) :
    auth'.Allowed username permission resource ↔
      ∃ user, auth.getUser username = some user ∧
        (user.isSuperuser = true ∨
          auth.StillPermitted created user.roles permission resource) := by
  have hinherits : auth'.Inherits = auth.StillInherits created :=
    funext fun child => funext fun parent => propext (h.inherits_iff child parent)
  simp only [Allowed, StillPermitted, getUser, h.users, h.roles, hinherits]

theorem StillPermitted.of_all {roles : List String}
    (h : auth.StillPermitted created roles .all .all) (permission : Permission)
    (resource : ResourceType) : auth.StillPermitted created roles permission resource := by
  obtain ⟨first, hfirst, roleName, hpath, role, hrole, hpermits⟩ := h
  exact ⟨first, hfirst, roleName, hpath, role, hrole, hpermits.of_all permission resource⟩

theorem StillPermitted.of_covers {roles : List String} {grant : Grant} {permission : Permission}
    {resource : ResourceType}
    (h : auth.StillPermitted created roles grant.permission grant.resource)
    (hcovers : grant.Covers permission resource) :
    auth.StillPermitted created roles permission resource := by
  obtain ⟨first, hfirst, roleName, hpath, role, hrole, hpermits⟩ := h
  exact ⟨first, hfirst, roleName, hpath, role, hrole, hpermits.of_covers hcovers⟩

/-- What the user held is left as it was, or a role that was created over led to it. -/
theorem stillPermitted_of_keepsRights (h : auth.KeepsRights created) {username : String}
    {user : User} (huser : auth.getUser username = some user) (hsuper : user.isSuperuser = false)
    {first : String} (hfirst : first ∈ user.roles) {roleName : String}
    (hpath : ReflTransGen auth.Inherits first roleName) {role : Role}
    (hrole : auth.getRole roleName = some role) {permission : Permission}
    {resource : ResourceType} (hpermits : role.Permits permission resource) :
    auth.StillPermitted created user.roles permission resource := by
  have hthrough : ∀ replaced, ReflTransGen auth.Inherits first replaced →
      createdAs created replaced ≠ none → ReflTransGen auth.Inherits replaced roleName →
        auth.StillPermitted created user.roles permission resource := by
    intro replaced hto hreplaced hfrom
    obtain ⟨hall, hgrants⟩ := h username user huser hsuper first hfirst replaced hto hreplaced
      roleName hfrom role hrole
    rcases hpermits with hrole_super | ⟨grant, hgrant, hcovers⟩
    · exact (hall hrole_super).of_all permission resource
    · exact (hgrants grant hgrant).of_covers hcovers
  have hedge : ∀ child parent, auth.Inherits child parent →
      auth.StillInherits created child parent ∨ createdAs created child ≠ none := by
    intro child parent hinherits
    by_cases hcreated : createdAs created child = none
    · exact .inl ⟨hinherits, hcreated⟩
    · exact .inr hcreated
  rcases path_kept_or_cut hedge hpath with hkept | ⟨replaced, hreplaced, hto, hfrom⟩
  · by_cases hcreated : createdAs created roleName = none
    · refine ⟨first, hfirst, roleName, hkept, role, ?_, hpermits⟩
      rw [hcreated, Option.none_or]
      exact hrole
    · exact hthrough roleName hpath hcreated .refl
  · exact hthrough replaced hto hreplaced hfrom

/-- A creation takes an answer back exactly when a replaced role alone gave something. -/
theorem Replaces.allowed_mono_iff (h : Replaces auth auth' created) :
    (∀ username permission resource, auth.Allowed username permission resource →
        auth'.Allowed username permission resource) ↔ auth.KeepsRights created := by
  constructor
  · intro hmono username user huser hsuper first hfirst replaced hto _ roleName hfrom role hrole
    have hstill : ∀ permission resource, role.Permits permission resource →
        auth.StillPermitted created user.roles permission resource := by
      intro permission resource hpermits
      have hallowed : auth.Allowed username permission resource :=
        ⟨user, huser, .inr ⟨first, hfirst, roleName, hto.trans hfrom, role, hrole, hpermits⟩⟩
      obtain ⟨user', huser', hleft⟩ := (h.allowed_iff username permission resource).mp
        (hmono username permission resource hallowed)
      cases huser.symm.trans huser'
      rw [hsuper] at hleft
      exact hleft.resolve_left Bool.false_ne_true
    exact ⟨fun hrole_super => hstill .all .all (.inl hrole_super), fun grant hgrant =>
      hstill grant.permission grant.resource (.inr ⟨grant, hgrant, grant.covers_self⟩)⟩
  · rintro hkeeps username permission resource
      ⟨user, huser, hsuper | ⟨first, hfirst, roleName, hpath, role, hrole, hpermits⟩⟩
    · exact (h.allowed_iff username permission resource).mpr ⟨user, huser, .inl hsuper⟩
    · refine (h.allowed_iff username permission resource).mpr ⟨user, huser, ?_⟩
      cases hsuper : user.isSuperuser with
      | true => exact .inl rfl
      | false =>
        exact .inr (stillPermitted_of_keepsRights hkeeps huser hsuper hfirst hpath hrole hpermits)

end Replacement

section Operations
variable {base auth : AuthManager} {created : List Role}

theorem createdAs_cons (role : Role) (created : List Role) (roleName : String) :
    createdAs (role :: created) roleName =
      if roleName = role.name then some role else createdAs created roleName := by
  rw [createdAs, createdAs, List.find?_cons]
  by_cases hname : roleName = role.name
  · rw [if_pos hname, beq_iff_eq.mpr hname.symm]
  · rw [if_neg hname, beq_eq_false_iff_ne.mpr (Ne.symm hname)]

theorem Replaces.refl (auth : AuthManager) : Replaces auth auth [] :=
  ⟨rfl, fun _ => rfl, fun _ hrole => absurd hrole List.not_mem_nil⟩

/-- A role put under its name comes before what was created so far. -/
theorem Replaces.insert (h : Replaces base auth created) {role : Role}
    (hnone : role.inheritedRoles = []) :
    Replaces base { auth with roles := auth.roles.insert role.name role } (role :: created) where
  users := h.users
  roles roleName := by
    have hget : getRole { auth with roles := auth.roles.insert role.name role } roleName =
        if roleName = role.name then some role else auth.getRole roleName :=
      HashMap.get_insert auth.roles role.name roleName role
    rw [hget, createdAs_cons, h.roles]
    split <;> rfl
  inheritNothing := List.forall_mem_cons.mpr ⟨hnone, h.inheritNothing⟩

/-- Of two created roles with one name the newer stands. -/
theorem Replaces.newest {role older : Role} (h : Replaces base auth (role :: older :: created))
    (hname : older.name = role.name) : Replaces base auth (role :: created) where
  users := h.users
  roles roleName := by
    rw [h.roles, createdAs_cons, createdAs_cons, createdAs_cons, hname]
    split <;> rfl
  inheritNothing created' hcreated :=
    h.inheritNothing created' (List.mem_cons.mpr ((List.mem_cons.mp hcreated).imp_right
      (List.mem_cons_of_mem older)))

/-- Grants to the newest role all go through and are part of it. -/
theorem Replaces.grants (grants : List Grant) {auth : AuthManager} {role : Role}
    (h : Replaces base auth (role :: created)) :
    ∃ auth', auth.applyAll (grants.map (Grant.call role.name)) = (.ok (), auth') ∧
      Replaces base auth' (role.granted grants :: created) := by
  induction grants generalizing auth role with
  | nil =>
    rw [Role.granted, List.append_nil]
    exact ⟨auth, rfl, h⟩
  | cons grant grants ih =>
    have hrole : auth.getRole role.name = some role := by
      rw [h.roles, createdAs_cons, if_pos rfl, Option.some_or]
    have hgrant : auth.apply (grant.call role.name) =
        (.ok (), { auth with roles := auth.roles.insert role.name (role.granted [grant]) }) := by
      rw [Grant.call, apply, grantPermission, modifyRole, hrole]
      rfl
    have hnone : (role.granted [grant]).inheritedRoles = [] :=
      h.inheritNothing role List.mem_cons_self
    obtain ⟨auth', happly, hreplaces⟩ := ih ((h.insert hnone).newest rfl)
    rw [Role.granted, Role.granted, List.append_assoc] at hreplaces
    refine ⟨auth', ?_, hreplaces⟩
    rw [List.map_cons, applyAll, hgrant]
    exact happly

theorem applyAll_append {first second : List AdminCall} {auth' : AuthManager}
    (h : auth.applyAll first = (.ok (), auth')) :
    auth.applyAll (first ++ second) = auth'.applyAll second := by
  induction first generalizing auth with
  | nil =>
    cases h
    rfl
  | cons call calls ih =>
    rw [applyAll] at h
    rw [List.cons_append, applyAll]
    split at h
    · exact ih h
    · cases h

/-- A role created and then granted to, after what was created so far. -/
theorem Replaces.createAndGrant (h : Replaces base auth created) (config : RoleConfig)
    (grants : List Grant) :
    ∃ auth', auth.applyAll (config.calls grants) = (.ok (), auth') ∧
      Replaces base auth' (config.role.granted grants :: created) := by
  have hinsert : Replaces base (auth.createRole config).2 (config.role :: created) := h.insert rfl
  exact hinsert.grants grants

theorem createPredefinedRoles_replaces (auth : AuthManager) :
    ∃ auth', auth.createPredefinedRoles = (.ok (), auth') ∧
      Replaces auth auth' Operation.createPredefinedRoles.created := by
  obtain ⟨auth₁, hreadonly, h₁⟩ := (Replaces.refl auth).createAndGrant readonlyRole
    [⟨.select, .all, "system", false⟩]
  obtain ⟨auth₂, hreadwrite, h₂⟩ := h₁.createAndGrant readwriteRole
    [⟨.select, .all, "system", false⟩, ⟨.insert, .all, "system", false⟩,
      ⟨.update, .all, "system", false⟩, ⟨.delete, .all, "system", false⟩]
  obtain ⟨auth₃, hdbadmin, h₃⟩ := h₂.createAndGrant dbadminRole [⟨.all, .all, "system", true⟩]
  refine ⟨auth₃, ?_, h₃⟩
  calc auth.createPredefinedRoles
      = auth.applyAll (_ ++ (_ ++ _)) := rfl
    _ = auth₁.applyAll (_ ++ _) := applyAll_append hreadonly
    _ = auth₂.applyAll _ := applyAll_append hreadwrite
    _ = (.ok (), auth₃) := hdbadmin

theorem modifyRole_failing {roleName : String} {update : Role → Role} {e : PgWireError}
    (h : (auth.modifyRole roleName update).1 = .error e) :
    (auth.modifyRole roleName update).2 = auth := by
  rw [modifyRole] at h ⊢
  cases hrole : auth.getRole roleName with
  | none => rfl
  | some role =>
    rw [hrole] at h
    cases h

theorem perform_failing {operation : Operation} {e : PgWireError}
    (h : (auth.perform operation).1 = .error e) : (auth.perform operation).2 = auth := by
  cases operation with
  | createPredefinedRoles =>
    obtain ⟨auth', hperform, _⟩ := createPredefinedRoles_replaces auth
    rw [perform, hperform] at h
    cases h
  | call call =>
    cases call with
    | addUser user => cases h
    | addRole role => cases h
    | createRole config => cases h
    | grantPermission roleName permission resource grantedBy withGrantOption =>
      exact modifyRole_failing h
    | revokePermission roleName permission resource => exact modifyRole_failing h
    | addRoleInheritance childRole parentRole => exact modifyRole_failing h
    | removeRoleInheritance childRole parentRole => exact modifyRole_failing h

theorem perform_restricting {operation : Operation} (h : operation.Restricting) :
    Extends (auth.perform operation).2 auth := by
  cases operation with
  | createPredefinedRoles => exact h.elim
  | call call =>
    cases call with
    | addUser user => exact h.elim
    | addRole role => exact h.elim
    | createRole config => exact h.elim
    | grantPermission roleName permission resource grantedBy withGrantOption => exact h.elim
    | revokePermission roleName permission resource =>
      exact modifyRole_extends fun role =>
        ⟨id, List.filter_subset_self role.grants, List.Subset.refl _⟩
    | addRoleInheritance childRole parentRole => exact h.elim
    | removeRoleInheritance childRole parentRole =>
      exact modifyRole_extends fun role =>
        ⟨id, List.Subset.refl _, List.filter_subset_self role.inheritedRoles⟩

/-- A granting operation adds to the store, or it creates roles in it. -/
theorem perform_granting {operation : Operation} (h : operation.Granting) :
    (operation.created = [] ∧ Extends auth (auth.perform operation).2) ∨
      Replaces auth (auth.perform operation).2 operation.created := by
  cases operation with
  | createPredefinedRoles =>
    obtain ⟨auth', hperform, hreplaces⟩ := createPredefinedRoles_replaces auth
    rw [perform, hperform]
    exact .inr hreplaces
  | call call =>
    cases call with
    | addUser user => exact h.elim
    | addRole role => exact h.elim
    | createRole config => exact .inr ((Replaces.refl auth).insert rfl)
    | grantPermission roleName permission resource grantedBy withGrantOption =>
      exact .inl ⟨rfl, extends_modifyRole fun role =>
        ⟨id, List.subset_append_left role.grants _, List.Subset.refl _⟩⟩
    | revokePermission roleName permission resource => exact h.elim
    | addRoleInheritance childRole parentRole =>
      refine .inl ⟨rfl, extends_modifyRole fun role => ?_⟩
      split
      · exact .refl role
      · exact ⟨id, List.Subset.refl _, List.subset_append_left role.inheritedRoles _⟩
    | removeRoleInheritance childRole parentRole => exact h.elim

theorem keepsRights_nil (auth : AuthManager) : auth.KeepsRights [] :=
  fun _ _ _ _ _ _ _ _ hreplaced => absurd rfl hreplaced

theorem created_of_not_granting {operation : Operation} (h : ¬ operation.Granting) :
    operation.created = [] := by
  cases operation with
  | createPredefinedRoles => exact absurd trivial h
  | call call =>
    cases call with
    | createRole config => exact absurd trivial h
    | _ => rfl

theorem granting_allowed_iff {operation : Operation} (h : operation.Granting) :
    (∀ username permission resource, auth.Allowed username permission resource →
        (auth.perform operation).2.Allowed username permission resource) ↔
      auth.KeepsRights operation.created := by
  rcases perform_granting h with ⟨hnone, hextends⟩ | hreplaces
  · rw [hnone]
    exact ⟨fun _ => keepsRights_nil auth, fun _ _ _ _ hallowed => hallowed.extend hextends⟩
  · exact hreplaces.allowed_mono_iff

end Operations

/-- Administration is monotone exactly where no role is created over that alone gave a user
something. -/
theorem administration_monotone_iff (auth : AuthManager) (operation : Operation)
    (hbefore : Acyclic auth.Inherits) (hafter : Acyclic (auth.perform operation).2.Inherits) :
    AnswersMonotone auth operation ↔ auth.KeepsRights operation.created := by
  constructor
  · intro hmonotone
    by_cases hgranting : operation.Granting
    · refine (granting_allowed_iff hgranting).mp fun username permission resource hallowed => ?_
      exact (answers_true_iff hafter).mp (hmonotone.granting hgranting username permission resource
        ((answers_true_iff hbefore).mpr hallowed))
    · rw [created_of_not_granting hgranting]
      exact keepsRights_nil auth
  · intro hkeeps
    refine ⟨fun hgranting username permission resource htrue => ?_,
      fun hrestricting username permission resource hfalse => ?_, fun e hfailing => ?_⟩
    · exact (answers_true_iff hafter).mpr ((granting_allowed_iff hgranting).mpr hkeeps username
        permission resource ((answers_true_iff hbefore).mp htrue))
    · refine (answers_false_iff hafter).mpr fun hallowed => ?_
      exact (answers_false_iff hbefore).mp hfalse
        (hallowed.extend (perform_restricting hrestricting))
    · rw [perform_failing hfailing]
      exact fun _ _ _ _ => Iff.rfl

section Examples

private theorem reached_from_analyst {roleName : String}
    (h : ReflTransGen inheritedGrant.Inherits "analyst" roleName) :
    roleName = "analyst" ∨ roleName = "reader" := by
  induction h with
  | refl => exact .inl rfl
  | tail _ hedge ih =>
    rw [← edge_parents_iff] at hedge
    rcases ih with rfl | rfl
    · have hparents : inheritedGrant.parents "analyst" = ["reader"] := by decide
      rw [Edge, hparents] at hedge
      exact .inr (List.mem_singleton.mp hedge)
    · have hparents : inheritedGrant.parents "reader" = [] := by decide
      rw [Edge, hparents] at hedge
      exact absurd hedge List.not_mem_nil

private theorem inheritedGrant_users {username : String} {user : User}
    (h : inheritedGrant.getUser username = some user) (hsuper : user.isSuperuser = false) :
    user.roles = ["analyst"] := by
  have hmem := HashMap.mem_entries_of_get h
  have hall : ∀ entry ∈ inheritedGrant.users.entries,
      entry.2.isSuperuser = false → entry.2.roles = ["analyst"] := by decide
  exact hall _ hmem hsuper

theorem inheritedGrant_predefinedRoles :
    AnswersMonotone inheritedGrant .createPredefinedRoles := by
  obtain ⟨auth', hperform, hreplaces⟩ := createPredefinedRoles_replaces inheritedGrant
  have hafter : Acyclic (inheritedGrant.perform .createPredefinedRoles).2.Inherits := by
    rw [perform, hperform]
    exact hreplaces.acyclic inheritedGrant_acyclic
  refine (administration_monotone_iff inheritedGrant _ inheritedGrant_acyclic hafter).mpr ?_
  intro username user huser hsuper first hfirst replaced hpath hreplaced
  rw [inheritedGrant_users huser hsuper, List.mem_singleton] at hfirst
  subst hfirst
  rcases reached_from_analyst hpath with rfl | rfl
  · exact absurd (by decide) hreplaced
  · exact absurd (by decide) hreplaced

/-- Created again, the reader role loses its grant, and the role that inherits from it with it. -/
theorem inheritedGrant_createRole :
    ¬ ∀ (auth : AuthManager) (operation : Operation), Acyclic auth.Inherits →
      Acyclic (auth.perform operation).2.Inherits → AnswersMonotone auth operation := by
  intro h
  let config : RoleConfig := ⟨"reader", false, false, false, false, false, false⟩
  have hreplaces : Replaces inheritedGrant (inheritedGrant.createRole config).2 [config.role] :=
    (Replaces.refl inheritedGrant).insert rfl
  have hmonotone := h inheritedGrant (.call (.createRole config)) inheritedGrant_acyclic
    (hreplaces.acyclic inheritedGrant_acyclic)
  have hbefore : inheritedGrant.checkPermission 2 "alice" .select (.table "public.orders") =
      some true := by decide
  have hafter : (inheritedGrant.createRole config).2.checkPermission 2 "alice" .select
      (.table "public.orders") = some false := by decide
  obtain ⟨fuel, htrue⟩ := hmonotone.granting trivial "alice" .select (.table "public.orders")
    ⟨2, hbefore⟩
  have hallowed := (checkPermission_answer_iff htrue).mp rfl
  exact Bool.false_ne_true ((checkPermission_answer_iff hafter).mpr hallowed)

end Examples

end AuthManager
end DatafusionPostgres.Auth
