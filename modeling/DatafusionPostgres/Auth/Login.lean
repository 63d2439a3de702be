import DatafusionPostgres.Auth.Manager

/-! The rest of `datafusion-postgres/src/auth.rs`: who may log in, and the passwords that the wire
library is to check. -/
namespace DatafusionPostgres.Auth
open ArrowPg

namespace AuthManager

def authenticate (auth : AuthManager) (username password : String) : PgWireResult Bool :=
  match auth.getUser username with
  | some user =>
    if !user.canLogin then .ok false
    else if user.passwordHash.isEmpty || password == user.passwordHash then .ok true
    else .ok false
  | none => .ok false

def userHasRole (auth : AuthManager) (username roleName : String) : Bool :=
  match auth.getUser username with
  | some user => user.roles.contains roleName || user.isSuperuser
  | none => false

end AuthManager

/-- What a password source reads of the startup message. -/
structure LoginInfo where
  user : Option String

structure Password where
  salt : Option (List UInt8)
  password : List UInt8
  deriving DecidableEq, Repr

def loginError (code message : String) : PgWireError :=
  .userError ⟨"FATAL", code, [.text message]⟩

def authenticationFailed (username : String) : PgWireError :=
  loginError "28P01" ("password authentication failed for user \"" ++ username ++ "\"")

/-- `get_password` of `DfAuthSource`: the stored password of a user who may log in. -/
def DfAuthSource.getPassword (authManager : AuthManager) (login : LoginInfo) :
    PgWireResult Password :=
  match login.user with
  | some username =>
    match authManager.getUser username with
    | some user =>
      if user.canLogin then .ok ⟨none, user.passwordHash.toUTF8.toList⟩
      else .error (loginError "28000" ("User \"" ++ username ++ "\" is not allowed to login"))
    | none => .error (authenticationFailed username)
  | none => .error (loginError "28P01" "No username provided in login request")

/-- `get_password` of `SimpleAuthSource`: no password is asked for, of whoever may log in. -/
def SimpleAuthSource.getPassword (authManager : AuthManager) (login : LoginInfo) :
    PgWireResult Password :=
  let username := login.user.getD "anonymous"
  match authManager.getUser username with
  | some user =>
    if user.canLogin then .ok ⟨none, []⟩
    else if username = "postgres" then .ok ⟨none, []⟩
    else .error (authenticationFailed username)
  | none =>
    if username = "postgres" then .ok ⟨none, []⟩ else .error (authenticationFailed username)

end DatafusionPostgres.Auth
