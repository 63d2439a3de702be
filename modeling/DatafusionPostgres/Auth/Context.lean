import Mathlib.Data.List.Basic

/-! Users, roles and grants as `pg_catalog/context.rs` declares them. -/
namespace DatafusionPostgres.Auth

inductive Permission where
  | select | insert | update | delete | create | drop | alter | index | references
  | trigger | execute | usage | connect | temporary | all
  deriving DecidableEq, Repr

inductive ResourceType where
  | table (name : String)
  | schema (name : String)
  | database (name : String)
  | function (name : String)
  | sequence (name : String)
  | all
  deriving DecidableEq, Repr

structure Grant where
  permission : Permission
  resource : ResourceType
  grantedBy : String
  withGrantOption : Bool
  deriving DecidableEq, Repr

structure User where
  username : String
  passwordHash : String
  roles : List String
  isSuperuser : Bool
  canLogin : Bool
  connectionLimit : Option Int32
  deriving DecidableEq, Repr

structure Role where
  name : String
  isSuperuser : Bool
  canLogin : Bool
  canCreateDb : Bool
  canCreateRole : Bool
  canCreateUser : Bool
  canReplication : Bool
  grants : List Grant
  inheritedRoles : List String
  deriving DecidableEq, Repr

structure RoleConfig where
  name : String
  isSuperuser : Bool
  canLogin : Bool
  canCreateDb : Bool
  canCreateRole : Bool
  canCreateUser : Bool
  canReplication : Bool
  deriving DecidableEq, Repr

end DatafusionPostgres.Auth
