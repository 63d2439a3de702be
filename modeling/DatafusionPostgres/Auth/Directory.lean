import DatafusionPostgres.Auth.Login
import DatafusionPostgres.Auth.Permission
import DatafusionPostgres.Library.AccessControl

/-! What the role store is for: a directory of members and roles, where a right is there or not,
whoever gave it and however often. The store refines it through every run of administration. -/
namespace DatafusionPostgres.Auth
open ArrowPg Library Relation

abbrev Right := Permission × ResourceType

abbrev Directory := AccessControl.Directory String Right String

namespace Right

/-- A right on a schema covers each table whose name starts with the schema and a dot. -/
def Covers (own right : Right) : Prop :=
  (own.1 = right.1 ∨ own.1 = .all) ∧
    (own.2 = right.2 ∨ own.2 = .all ∨
      ∃ schema table, own.2 = .schema schema ∧ right.2 = .table table ∧
        (schema ++ ".").toList <+: table.toList)

end Right

namespace Directory

/-- The user postgres alone, who may do everything. -/
def initial : Directory where
  members := Function.update (fun _ => none) "postgres" (some ⟨True, {"postgres"}, some ""⟩)
  roles := Function.update (fun _ => none) "postgres" (some ⟨True, {(.all, .all)}, ∅⟩)

def administer (directory : Directory) : AdminCall → Directory
  | .addUser user =>
    directory.putMember user.username
      ⟨user.isSuperuser, {role | role ∈ user.roles},
        if user.canLogin then some user.passwordHash else none⟩
  | .addRole role =>
    directory.putRole role.name
      ⟨role.isSuperuser, {right | ∃ grant ∈ role.grants, (grant.permission, grant.resource) = right},
        {parent | parent ∈ role.inheritedRoles}⟩
  | .createRole config => directory.putRole config.name ⟨config.isSuperuser, ∅, ∅⟩
  | .grantPermission roleName permission resource _ _ =>
    directory.changeRole roleName (·.grant (permission, resource))
  | .revokePermission roleName permission resource =>
    directory.changeRole roleName (·.revoke (permission, resource))
  | .addRoleInheritance childRole parentRole =>
    directory.changeRole childRole (·.inherit parentRole)
  | .removeRoleInheritance childRole parentRole =>
    directory.changeRole childRole (·.disinherit parentRole)

/-- A change to a role needs the role. -/
def Accepts (directory : Directory) : AdminCall → Prop
  | .addUser _ | .addRole _ | .createRole _ => True
  | .grantPermission roleName _ _ _ _ | .revokePermission roleName _ _
  | .addRoleInheritance roleName _ | .removeRoleInheritance roleName _ =>
    directory.roles roleName ≠ none

/-- An empty secret lets everybody in who knows the name. -/
def Authenticates (directory : Directory) (username password : String) : Prop :=
  ∃ secret, directory.Secret username secret ∧ (secret = "" ∨ password = secret)

def HasRole (directory : Directory) (username roleName : String) : Prop :=
  ∃ member, directory.members username = some member ∧
    (roleName ∈ member.roles ∨ member.superuser)

end Directory

section Abstraction

def User.member (user : User) : AccessControl.Member String String :=
  ⟨user.isSuperuser, {role | role ∈ user.roles},
    if user.canLogin then some user.passwordHash else none⟩

def Role.rights (role : Role) : AccessControl.Role String Right :=
  ⟨role.isSuperuser, {right | ∃ grant ∈ role.grants, (grant.permission, grant.resource) = right},
    {parent | parent ∈ role.inheritedRoles}⟩

def AuthManager.directory (auth : AuthManager) : Directory :=
  ⟨fun username => (auth.getUser username).map User.member,
    fun roleName => (auth.getRole roleName).map Role.rights⟩

end Abstraction

namespace AuthManager
variable {auth : AuthManager}

section Steps

private theorem directory_insertUser (auth : AuthManager) (name : String) (user : User) :
    directory { auth with users := auth.users.insert name user } =
      auth.directory.putMember name user.member := by
  refine congrArg (AccessControl.Directory.mk · _) ?_
  funext username
  rw [getUser, HashMap.get_insert, Function.update_apply]
  split <;> rfl

private theorem directory_insertRole (auth : AuthManager) (name : String) (role : Role) :
    directory { auth with roles := auth.roles.insert name role } =
      auth.directory.putRole name role.rights := by
  refine congrArg (AccessControl.Directory.mk _) ?_
  funext roleName
  rw [getRole, HashMap.get_insert, Function.update_apply]
  split <;> rfl

private theorem directory_modifyRole (auth : AuthManager) (name : String) {update : Role → Role}
    {change : AccessControl.Role String Right → AccessControl.Role String Right}
    (h : ∀ role, (update role).rights = change role.rights) :
    (auth.modifyRole name update).2.directory = auth.directory.changeRole name change := by
  rw [modifyRole, AccessControl.Directory.changeRole]
  cases hrole : auth.getRole name with
  | none =>
    have hnone : auth.directory.roles name = none := congrArg (Option.map Role.rights) hrole
    rw [hnone, Option.map_none, ← hnone, Function.update_eq_self]
  | some role =>
    have hsome : auth.directory.roles name = some role.rights :=
      congrArg (Option.map Role.rights) hrole
    rw [hsome, Option.map_some, ← h]
    exact directory_insertRole auth name (update role)

private theorem rights_grant (role : Role) (permission : Permission) (resource : ResourceType)
    (grantedBy : String) (withGrantOption : Bool) :
    Role.rights { role with
      grants := role.grants ++ [⟨permission, resource, grantedBy, withGrantOption⟩] } =
      role.rights.grant (permission, resource) := by
  refine congrArg (fun rights => AccessControl.Role.mk _ rights _) (Set.ext fun right => ?_)
  simp only [Set.mem_ofPred_eq, List.mem_append, List.mem_singleton, or_and_right, exists_or,
    exists_eq_left]
  exact or_comm.trans (or_congr_left eq_comm)

private theorem rights_revoke (role : Role) (permission : Permission) (resource : ResourceType) :
    Role.rights { role with grants := role.grants.filter fun grant =>
        !(grant.permission == permission && grant.resource == resource) } =
      role.rights.revoke (permission, resource) := by
  refine congrArg (fun rights => AccessControl.Role.mk _ rights _) (Set.ext fun right => ?_)
  constructor
  · rintro ⟨grant, hgrant, rfl⟩
    obtain ⟨hmem, hkept⟩ := List.mem_filter.mp hgrant
    refine ⟨⟨grant, hmem, rfl⟩, fun heq => ?_⟩
    obtain ⟨hpermission, hresource⟩ := Prod.mk.inj (Set.mem_singleton_iff.mp heq)
    simp [hpermission, hresource] at hkept
  · rintro ⟨⟨grant, hmem, rfl⟩, hne⟩
    refine ⟨grant, List.mem_filter.mpr ⟨hmem, ?_⟩, rfl⟩
    rw [Bool.not_eq_true', Bool.eq_false_iff]
    intro hboth
    rw [Bool.and_eq_true, beq_iff_eq, beq_iff_eq] at hboth
    exact hne (Set.mem_singleton_iff.mpr (Prod.ext hboth.1 hboth.2))

private theorem rights_inherit (role : Role) (parentRole : String) :
    Role.rights (if role.inheritedRoles.contains parentRole then role
      else { role with inheritedRoles := role.inheritedRoles ++ [parentRole] }) =
      role.rights.inherit parentRole := by
  split
  · have hmem : parentRole ∈ role.rights.parents := List.contains_iff_mem.mp ‹_›
    exact congrArg (AccessControl.Role.mk _ _) (Set.insert_eq_of_mem hmem).symm
  · refine congrArg (AccessControl.Role.mk _ _) (Set.ext fun parent => ?_)
    exact List.mem_append.trans (or_comm.trans (or_congr_left List.mem_singleton))

private theorem rights_disinherit (role : Role) (parentRole : String) :
    Role.rights { role with
      inheritedRoles := role.inheritedRoles.filter (· != parentRole) } =
      role.rights.disinherit parentRole := by
  refine congrArg (AccessControl.Role.mk _ _) (Set.ext fun parent => ?_)
  simp [Role.rights]

private theorem rights_of_nothing {role : Role} (hgrants : role.grants = [])
    (hparents : role.inheritedRoles = []) : role.rights = ⟨role.isSuperuser, ∅, ∅⟩ := by
  rw [Role.rights, hgrants, hparents]
  simp

/-- One call does to the directory what it does to the store. -/
theorem directory_step (auth : AuthManager) (call : AdminCall) :
    (auth.step call).directory = auth.directory.administer call := by
  cases call with
  | addUser user => exact directory_insertUser auth user.username user
  | addRole role => exact directory_insertRole auth role.name role
  | createRole config =>
    exact (directory_insertRole auth config.name _).trans
      (congrArg (auth.directory.putRole config.name) (rights_of_nothing rfl rfl))
  | grantPermission roleName permission resource grantedBy withGrantOption =>
    exact directory_modifyRole auth roleName
      fun role => rights_grant role permission resource grantedBy withGrantOption
  | revokePermission roleName permission resource =>
    exact directory_modifyRole auth roleName fun role => rights_revoke role permission resource
  | addRoleInheritance childRole parentRole =>
    exact directory_modifyRole auth childRole fun role => rights_inherit role parentRole
  | removeRoleInheritance childRole parentRole =>
    exact directory_modifyRole auth childRole fun role => rights_disinherit role parentRole

/-- A call fails where the directory knows no role of the name. -/
theorem apply_ok_iff (auth : AuthManager) (call : AdminCall) :
    (auth.apply call).1 = .ok () ↔ auth.directory.Accepts call := by
  have hmodify : ∀ (name : String) (update : Role → Role),
      (auth.modifyRole name update).1 = .ok () ↔ auth.directory.roles name ≠ none := by
    intro name update
    change _ ↔ (auth.getRole name).map Role.rights ≠ none
    rw [modifyRole]
    cases auth.getRole name with
    | none => exact iff_of_false nofun fun h => h rfl
    | some role => exact iff_of_true rfl nofun
  cases call with
  | addUser user => exact iff_of_true rfl trivial
  | addRole role => exact iff_of_true rfl trivial
  | createRole config => exact iff_of_true rfl trivial
  | grantPermission roleName => exact hmodify roleName _
  | revokePermission roleName => exact hmodify roleName _
  | addRoleInheritance childRole => exact hmodify childRole _
  | removeRoleInheritance childRole => exact hmodify childRole _

end Steps

section Answers
variable (auth : AuthManager) (username : String)

private theorem directory_inherits : auth.directory.Inherits = auth.Inherits := by
  funext child parent
  change (∃ rights, (auth.getRole child).map Role.rights = some rights ∧ _) = _
  rw [Inherits]
  cases auth.getRole child with
  | none => simp
  | some role => simp [Role.rights]

private theorem permits_iff_rights (role : Role) (permission : Permission)
    (resource : ResourceType) : role.Permits permission resource ↔
      role.rights.superuser ∨
        ∃ own ∈ role.rights.rights, Right.Covers own (permission, resource) := by
  refine or_congr_right ⟨?_, ?_⟩
  · rintro ⟨grant, hgrant, hcovers⟩
    exact ⟨_, ⟨grant, hgrant, rfl⟩, hcovers⟩
  · rintro ⟨_, ⟨grant, hgrant, rfl⟩, hcovers⟩
    exact ⟨grant, hgrant, hcovers⟩

theorem allowed_iff_directory (permission : Permission) (resource : ResourceType) :
    auth.Allowed username permission resource ↔
      auth.directory.Allows Right.Covers username (permission, resource) := by
  rw [Allowed, AccessControl.Directory.Allows, directory_inherits]
  change _ ↔ ∃ member, (auth.getUser username).map User.member = some member ∧ _
  cases auth.getUser username with
  | none => simp
  | some user =>
    simp only [Option.map_some, Option.some.injEq, exists_eq_left']
    refine or_congr_right (exists_congr fun first => and_congr_right fun _ =>
      exists_congr fun roleName => and_congr_right fun _ => ?_)
    change _ ↔ ∃ rights, (auth.getRole roleName).map Role.rights = some rights ∧ _
    cases auth.getRole roleName with
    | none => simp
    | some role =>
      simp only [Option.map_some, Option.some.injEq, exists_eq_left']
      exact permits_iff_rights role permission resource

theorem secret_iff (secret : String) : auth.directory.Secret username secret ↔
    ∃ user, auth.getUser username = some user ∧ user.canLogin = true ∧
      user.passwordHash = secret := by
  change (∃ member, (auth.getUser username).map User.member = some member ∧ _) ↔ _
  cases auth.getUser username with
  | none => simp
  | some user => cases hlogin : user.canLogin <;> simp [User.member, hlogin]

theorem authenticate_iff (password : String) :
    auth.authenticate username password = .ok true ↔
      auth.directory.Authenticates username password := by
  rw [authenticate, Directory.Authenticates]
  simp only [secret_iff]
  cases auth.getUser username with
  | none => simp
  | some user =>
    cases hlogin : user.canLogin with
    | false => simp [hlogin]
    | true => simpa [hlogin] using or_iff_not_imp_left.symm

theorem userHasRole_iff (roleName : String) :
    auth.userHasRole username roleName = true ↔ auth.directory.HasRole username roleName := by
  rw [userHasRole, Directory.HasRole]
  change _ ↔ ∃ member, (auth.getUser username).map User.member = some member ∧ _
  cases auth.getUser username with
  | none => simp
  | some user => simp [User.member]

/-- The password source hands out the secret of whoever may log in. -/
theorem df_getPassword_iff (login : LoginInfo) (password : Password) :
    DfAuthSource.getPassword auth login = .ok password ↔
      ∃ username secret, login.user = some username ∧ auth.directory.Secret username secret ∧
        password = ⟨none, secret.toUTF8.toList⟩ := by
  rw [DfAuthSource.getPassword]
  simp only [secret_iff]
  cases login.user with
  | none => simp
  | some username =>
    simp only [Option.some.injEq, exists_and_left, exists_eq_left']
    cases auth.getUser username with
    | none => simp
    | some user =>
      cases hlogin : user.canLogin with
      | false => simp [hlogin]
      | true => simpa [hlogin] using eq_comm

/-- The simple source asks nobody for a password, and turns the user postgres away never. -/
theorem simple_getPassword_iff (login : LoginInfo) (password : Password) :
    SimpleAuthSource.getPassword auth login = .ok password ↔
      password = ⟨none, []⟩ ∧
        ((∃ secret, auth.directory.Secret (login.user.getD "anonymous") secret) ∨
          login.user = some "postgres") := by
  have hpostgres : login.user.getD "anonymous" = "postgres" ↔ login.user = some "postgres" := by
    cases login.user <;> simp
  rw [SimpleAuthSource.getPassword, ← hpostgres]
  simp only [secret_iff]
  generalize login.user.getD "anonymous" = username
  by_cases hname : username = "postgres"
  · cases auth.getUser username with
    | none => simpa [hname] using eq_comm
    | some user => cases user.canLogin <;> simpa [hname] using eq_comm
  · cases auth.getUser username with
    | none => simp [hname]
    | some user =>
      cases hlogin : user.canLogin with
      | false => simp [hname, hlogin]
      | true => simpa [hname, hlogin] using eq_comm

end Answers

/-- Whatever is asked of the store is answered from the directory. -/
structure Refines (auth : AuthManager) (directory : Directory) : Prop where
  directory_eq : auth.directory = directory
  accepts : ∀ call, (auth.apply call).1 = .ok () ↔ directory.Accepts call
  check : ∀ fuel username permission resource answer,
    auth.checkPermission fuel username permission resource = some answer →
      (answer = true ↔ directory.Allows Right.Covers username (permission, resource))
  /-- Roles that inherit from themselves may keep the check from returning. -/
  checkReturns : Acyclic directory.Inherits →
    ∀ username permission resource, auth.Terminates username permission resource
  authenticate : ∀ username password,
    auth.authenticate username password = .ok true ↔ directory.Authenticates username password
  userHasRole : ∀ username roleName,
    auth.userHasRole username roleName = true ↔ directory.HasRole username roleName
  dfPassword : ∀ login password, DfAuthSource.getPassword auth login = .ok password ↔
    ∃ username secret, login.user = some username ∧ directory.Secret username secret ∧
      password = ⟨none, secret.toUTF8.toList⟩
  simplePassword : ∀ login password, SimpleAuthSource.getPassword auth login = .ok password ↔
    password = ⟨none, []⟩ ∧
      ((∃ secret, directory.Secret (login.user.getD "anonymous") secret) ∨
        login.user = some "postgres")

theorem new_directory : new.directory = Directory.initial := by
  have huser : postgresUser.member = ⟨True, {"postgres"}, some ""⟩ := by
    simp [User.member, postgresUser]
  have hrole : postgresRole.rights = ⟨True, {(.all, .all)}, ∅⟩ := by
    simp [Role.rights, postgresRole]
  calc new.directory
      = ((directory ⟨.empty, .empty⟩).putMember "postgres" postgresUser.member).putRole "postgres"
          postgresRole.rights := by
        rw [← directory_insertUser, ← directory_insertRole]
        rfl
    _ = Directory.initial := by
        rw [huser, hrole]
        rfl

theorem run_directory (calls : List AdminCall) :
    (run step new calls).directory = run Directory.administer .initial calls := by
  suffices h : ∀ auth : AuthManager, (run step auth calls).directory =
      run Directory.administer auth.directory calls by
    rw [h, new_directory]
  induction calls with
  | nil => exact fun _ => rfl
  | cons call calls ih =>
    intro auth
    rw [run_cons, run_cons, ih, directory_step]

/-- After any run of administration the store answers from the directory that the calls make. -/
theorem administration_refines (calls : List AdminCall) :
    Refines (run step new calls) (run Directory.administer .initial calls) := by
  rw [← run_directory]
  refine ⟨rfl, apply_ok_iff _, ?_, ?_, authenticate_iff _, userHasRole_iff _, df_getPassword_iff _,
    simple_getPassword_iff _⟩
  · intro fuel username permission resource answer h
    exact (checkPermission_answer_iff h).trans
      (allowed_iff_directory _ username permission resource)
  · intro hacyclic username permission resource
    rw [directory_inherits] at hacyclic
    exact terminates_of_acyclic hacyclic username permission resource

end AuthManager
end DatafusionPostgres.Auth
