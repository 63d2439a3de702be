import DatafusionPostgres.ArrowPg.PgType
import DatafusionPostgres.Auth.Context
import DatafusionPostgres.Library.HashMap
import DatafusionPostgres.Library.Run

/-! `datafusion-postgres/src/auth.rs`: the role store, its administration and the
permission check. -/
namespace DatafusionPostgres.Auth
open ArrowPg Library

structure AuthManager where
  users : HashMap String User
  roles : HashMap String Role

namespace AuthManager

def postgresUser : User where
  username := "postgres"
  passwordHash := ""
  roles := ["postgres"]
  isSuperuser := true
  canLogin := true
  connectionLimit := none

def postgresRole : Role where
  name := "postgres"
  isSuperuser := true
  canLogin := true
  canCreateDb := true
  canCreateRole := true
  canCreateUser := true
  canReplication := true
  grants := [⟨.all, .all, "system", true⟩]
  inheritedRoles := []

def new : AuthManager where
  users := HashMap.empty.insert postgresUser.username postgresUser
  roles := HashMap.empty.insert postgresRole.name postgresRole

def addUser (auth : AuthManager) (user : User) : PgWireResult Unit × AuthManager :=
  (.ok (), { auth with users := auth.users.insert user.username user })

def addRole (auth : AuthManager) (role : Role) : PgWireResult Unit × AuthManager :=
  (.ok (), { auth with roles := auth.roles.insert role.name role })

def getUser (auth : AuthManager) (username : String) : Option User := auth.users.get username

def getRole (auth : AuthManager) (roleName : String) : Option Role := auth.roles.get roleName

def listRoles (auth : AuthManager) : List String := auth.roles.keys

/-- `undefined_object`, the error of every change to a missing role. -/
def roleDoesNotExist (roleName : String) : PgWireError :=
  userError "42704" ("role \"" ++ roleName ++ "\" does not exist")

/-- `roles.get_mut` followed by an update in place. -/
def modifyRole (auth : AuthManager) (roleName : String) (update : Role → Role) :
    PgWireResult Unit × AuthManager :=
  match auth.getRole roleName with
  | some role => (.ok (), { auth with roles := auth.roles.insert roleName (update role) })
  | none => (.error (roleDoesNotExist roleName), auth)

def grantPermission (auth : AuthManager) (roleName : String) (permission : Permission)
    (resource : ResourceType) (grantedBy : String) (withGrantOption : Bool) :
    PgWireResult Unit × AuthManager :=
  auth.modifyRole roleName fun role =>
    { role with grants := role.grants ++ [⟨permission, resource, grantedBy, withGrantOption⟩] }

def revokePermission (auth : AuthManager) (roleName : String) (permission : Permission)
    (resource : ResourceType) : PgWireResult Unit × AuthManager :=
  auth.modifyRole roleName fun role =>
    { role with grants := role.grants.filter fun grant =>
        !(grant.permission == permission && grant.resource == resource) }

def addRoleInheritance (auth : AuthManager) (childRole parentRole : String) :
    PgWireResult Unit × AuthManager :=
  auth.modifyRole childRole fun child =>
    if child.inheritedRoles.contains parentRole then child
    else { child with inheritedRoles := child.inheritedRoles ++ [parentRole] }

def removeRoleInheritance (auth : AuthManager) (childRole parentRole : String) :
    PgWireResult Unit × AuthManager :=
  auth.modifyRole childRole fun child =>
    { child with inheritedRoles := child.inheritedRoles.filter (· != parentRole) }

def createRole (auth : AuthManager) (config : RoleConfig) : PgWireResult Unit × AuthManager :=
  auth.addRole {
    name := config.name
    isSuperuser := config.isSuperuser
    canLogin := config.canLogin
    canCreateDb := config.canCreateDb
    canCreateRole := config.canCreateRole
    canCreateUser := config.canCreateUser
    canReplication := config.canReplication
    grants := []
    inheritedRoles := [] }

def permissionMatches (grantPermission requested : Permission) : Bool :=
  grantPermission == requested || grantPermission == .all

/-- `str::starts_with`. -/
def startsWith (s pattern : String) : Bool := pattern.toList.isPrefixOf s.toList

def resourceMatches (grantResource requested : ResourceType) : Bool :=
  if grantResource = requested then true
  else match grantResource, requested with
    | .all, _ => true
    | .schema schema, .table table => startsWith table (schema ++ ".")
    | _, _ => false

/-- Some direct grant of the role covers the request. -/
def grantsMatch (role : Role) (permission : Permission) (resource : ResourceType) : Bool :=
  role.grants.any fun grant =>
    permissionMatches grant.permission permission && resourceMatches grant.resource resource

/-- The recursion of the source has no bound; `fuel` bounds its depth, and `none`
says that the bound was met before an answer. -/
def checkRolePermission (auth : AuthManager) (permission : Permission) (resource : ResourceType) :
    Nat → String → Option Bool
  | 0, _ => none
  | fuel + 1, roleName =>
    match auth.getRole roleName with
    | some role =>
      if role.isSuperuser then some true
      else if grantsMatch role permission resource then some true
      else role.inheritedRoles.anyM (checkRolePermission auth permission resource fuel)
    | none => some false

def checkPermission (auth : AuthManager) (fuel : Nat) (username : String)
    (permission : Permission) (resource : ResourceType) : Option Bool :=
  match auth.getUser username with
  | some user =>
    if user.isSuperuser then some true
    else user.roles.anyM fun roleName =>
      match auth.getRole roleName with
      | some role =>
        if role.isSuperuser then some true
        else if grantsMatch role permission resource then some true
        else role.inheritedRoles.anyM (auth.checkRolePermission permission resource fuel)
      | none => some false
  | none => some false

end AuthManager

/-- One call of the administration interface. -/
inductive AdminCall where
  | addUser (user : User)
  | addRole (role : Role)
  | createRole (config : RoleConfig)
  | grantPermission (roleName : String) (permission : Permission) (resource : ResourceType)
      (grantedBy : String) (withGrantOption : Bool)
  | revokePermission (roleName : String) (permission : Permission) (resource : ResourceType)
  | addRoleInheritance (childRole parentRole : String)
  | removeRoleInheritance (childRole parentRole : String)

def AuthManager.apply (auth : AuthManager) : AdminCall → PgWireResult Unit × AuthManager
  | .addUser user => auth.addUser user
  | .addRole role => auth.addRole role
  | .createRole config => auth.createRole config
  | .grantPermission roleName permission resource grantedBy withGrantOption =>
    auth.grantPermission roleName permission resource grantedBy withGrantOption
  | .revokePermission roleName permission resource =>
    auth.revokePermission roleName permission resource
  | .addRoleInheritance childRole parentRole => auth.addRoleInheritance childRole parentRole
  | .removeRoleInheritance childRole parentRole => auth.removeRoleInheritance childRole parentRole

/-- The calls one after another, up to the first that fails. -/
def AuthManager.applyAll (auth : AuthManager) : List AdminCall → PgWireResult Unit × AuthManager
  | [] => (.ok (), auth)
  | call :: calls =>
    match auth.apply call with
    | (.ok (), auth) => auth.applyAll calls
    | (.error e, auth) => (.error e, auth)

def readonlyRole : RoleConfig where
  name := "readonly"
  isSuperuser := false
  canLogin := false
  canCreateDb := false
  canCreateRole := false
  canCreateUser := false
  canReplication := false

def readwriteRole : RoleConfig where
  name := "readwrite"
  isSuperuser := false
  canLogin := false
  canCreateDb := false
  canCreateRole := false
  canCreateUser := false
  canReplication := false

def dbadminRole : RoleConfig where
  name := "dbadmin"
  isSuperuser := false
  canLogin := true
  canCreateDb := true
  canCreateRole := false
  canCreateUser := false
  canReplication := false

def predefinedRoles : List AdminCall :=
  [.createRole readonlyRole,
    .grantPermission "readonly" .select .all "system" false,
    .createRole readwriteRole,
    .grantPermission "readwrite" .select .all "system" false,
    .grantPermission "readwrite" .insert .all "system" false,
    .grantPermission "readwrite" .update .all "system" false,
    .grantPermission "readwrite" .delete .all "system" false,
    .createRole dbadminRole,
    .grantPermission "dbadmin" .all .all "system" true]

def AuthManager.createPredefinedRoles (auth : AuthManager) : PgWireResult Unit × AuthManager :=
  auth.applyAll predefinedRoles

/-- A failed call leaves the state it returns, so a run keeps going after an error. -/
def AuthManager.step (auth : AuthManager) (call : AdminCall) : AuthManager := (auth.apply call).2

end DatafusionPostgres.Auth
