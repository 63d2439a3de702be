import Mathlib.Data.Set.Insert
import Mathlib.Logic.Function.Basic
import Mathlib.Logic.Relation

/-! Role-based access control: members have roles, roles have rights and hand down those of their
parents. -/
namespace DatafusionPostgres.Library
open Relation

namespace AccessControl

structure Member (κ σ : Type) where
  superuser : Prop
  roles : Set κ
  /-- The secret of a member who may log in. -/
  secret : Option σ

structure Role (κ ρ : Type) where
  superuser : Prop
  rights : Set ρ
  parents : Set κ

structure Directory (κ ρ σ : Type) where
  members : κ → Option (Member κ σ)
  roles : κ → Option (Role κ ρ)

variable {κ ρ σ : Type}

namespace Role

def grant (role : Role κ ρ) (right : ρ) : Role κ ρ := { role with rights := insert right role.rights }

def revoke (role : Role κ ρ) (right : ρ) : Role κ ρ := { role with rights := role.rights \ {right} }

def inherit (role : Role κ ρ) (parent : κ) : Role κ ρ :=
  { role with parents := insert parent role.parents }

def disinherit (role : Role κ ρ) (parent : κ) : Role κ ρ :=
  { role with parents := role.parents \ {parent} }

end Role

namespace Directory
variable (directory : Directory κ ρ σ)

def Inherits (child parent : κ) : Prop :=
  ∃ role, directory.roles child = some role ∧ parent ∈ role.parents

/-- A member has a right that covers the one asked for, or a superuser needs none. -/
def Allows (covers : ρ → ρ → Prop) (name : κ) (right : ρ) : Prop :=
  ∃ member, directory.members name = some member ∧
    (member.superuser ∨
      ∃ first ∈ member.roles, ∃ last, ReflTransGen directory.Inherits first last ∧
        ∃ role, directory.roles last = some role ∧
          (role.superuser ∨ ∃ own ∈ role.rights, covers own right))

/-- The secret that lets the name in. -/
def Secret (name : κ) (secret : σ) : Prop :=
  ∃ member, directory.members name = some member ∧ member.secret = some secret

variable [DecidableEq κ]

def putMember (name : κ) (member : Member κ σ) : Directory κ ρ σ :=
  { directory with members := Function.update directory.members name (some member) }

def putRole (name : κ) (role : Role κ ρ) : Directory κ ρ σ :=
  { directory with roles := Function.update directory.roles name (some role) }

/-- A role that is not there stays so. -/
def changeRole (name : κ) (change : Role κ ρ → Role κ ρ) : Directory κ ρ σ :=
  { directory with roles :=
      Function.update directory.roles name ((directory.roles name).map change) }

end Directory
end AccessControl
end DatafusionPostgres.Library
