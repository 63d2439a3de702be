import DatafusionPostgres.PgCatalog.PgRoles

/-! `pg_catalog/context.rs`: the provider trait, its implementation for `Arc`, and which of the
implementations a method call selects. -/
namespace DatafusionPostgres.PgCatalog
open Auth

/-- A type that implements the trait by itself, as what its methods return in each state. -/
structure ContextProvider (σ : Type) where
  roles : σ → List String
  role : σ → String → Option Role

/-- `impl PgCatalogContextProvider for AuthManager`. -/
def authContextProvider : ContextProvider AuthManager where
  roles := AuthManager.listRoles
  role := AuthManager.getRole

section Resolution

/-- The types of receivers over one provider type. -/
inductive Receiver where
  | provider
  | arc (inner : Receiver)
  | reference (referent : Receiver)
  deriving DecidableEq, Repr

namespace Receiver

/-- An `Arc` implements the trait where its inner type does, and no reference does. -/
def implements : Receiver → Bool
  | provider => true
  | arc inner => inner.implements
  | reference _ => false

/-- The methods take `&self`, so a reference to an implementing type is itself the argument. -/
def byValue : Receiver → Option Receiver
  | reference referent => if referent.implements then some referent else none
  | provider | arc _ => none

/-- The argument is a reference taken to the receiver. -/
def autoref (ty : Receiver) : Option Receiver := if ty.implements then some ty else none

def probe (ty : Receiver) : Option Receiver := ty.byValue.or ty.autoref

/-- The implementing type whose method a call on the receiver selects: the first that the probe
meets while it dereferences. -/
def resolve : Receiver → Option Receiver
  | provider => probe provider
  | arc inner => (probe (arc inner)).or inner.resolve
  | reference referent => (probe (reference referent)).or referent.resolve

/-- On a reference the method of the type behind it comes first, before anything inside. -/
theorem resolve_reference {ty : Receiver} (h : ty.implements = true) :
    (reference ty).resolve = some ty := by
  rw [resolve, probe, byValue, if_pos h, Option.some_or, Option.some_or]

theorem resolve_of_implements {ty : Receiver} (h : ty.implements = true) :
    ty.resolve = some ty := by
  cases ty with
  | provider => rfl
  | arc inner => rw [resolve, probe, byValue, Option.none_or, autoref, if_pos h, Option.some_or]
  | reference referent => cases h

/-- The provider type under layers of `Arc`. -/
def shared : Nat → Receiver
  | 0 => provider
  | layers + 1 => arc (shared layers)

theorem shared_implements (layers : Nat) : (shared layers).implements = true := by
  induction layers with
  | zero => rfl
  | succ layers ih => exact ih

end Receiver
end Resolution

section Methods
variable {σ α : Type}

/-- The method of an implementing type, where `own` is what the provider's returns. That of `Arc`
calls the method of the same name on `self`, which has the type `&Arc<T>`; a call that does not
resolve would not compile. The recursion of the source has no bound; `fuel` bounds its depth. -/
def method (own : α) : Nat → Receiver → Option α
  | 0, _ => none
  | _ + 1, .provider => some own
  | fuel + 1, .arc inner =>
    match (Receiver.reference (.arc inner)).resolve with
    | some ty => method own fuel ty
    | none => none
  | _ + 1, .reference _ => none

def roles (provider : ContextProvider σ) (state : σ) : Nat → Receiver → Option (List String) :=
  method (provider.roles state)

def role (provider : ContextProvider σ) (state : σ) (name : String) :
    Nat → Receiver → Option (Option Role) :=
  method (provider.role state name)

/-- The loop of `PgRolesTable::get_data` over the names that are left. -/
def readRoles (provider : ContextProvider σ) (state : σ) (fuel : Nat) (ty : Receiver) :
    List String → List RoleRow → Option RolesScan
  | [], rows => some (.reading [] rows)
  | roleName :: names, rows =>
    match role provider state roleName fuel ty with
    | some (some role) => readRoles provider state fuel ty names (rows ++ [.of role])
    | some none => some .panicked
    | none => none

/-- `PgRolesTable::get_data` over a context provider of the type. -/
def getData (provider : ContextProvider σ) (state : σ) (fuel : Nat) (contextProvider : Receiver) :
    Option RolesScan :=
  match contextProvider.resolve with
  | some ty =>
    match roles provider state fuel ty with
    | some names => readRoles provider state fuel ty names []
    | none => none
  | none => none

end Methods

section Delegation
variable {σ α : Type}

/-- At some depth the call on the wrapped provider returns what the provider's own call returns. -/
def Delegates (own wrapped : Nat → Option α) : Prop :=
  ∃ fuel result, own fuel = some result ∧ wrapped fuel = some result

/-- Shared providers delegate: each method, and so a scan. -/
structure SharedDelegates (provider : ContextProvider σ) (state : σ) (ty : Receiver) : Prop where
  roles : Delegates (roles provider state · .provider) (roles provider state · ty)
  role : ∀ name,
    Delegates (role provider state name · .provider) (role provider state name · ty)
  scan : Delegates (getData provider state · .provider) (getData provider state · ty)

/-- The method of `Arc` selects itself, so no depth of the stack is enough for it to return. -/
theorem method_arc (own : α) (fuel : Nat) {inner : Receiver} (h : inner.implements = true) :
    method own fuel (.arc inner) = none := by
  induction fuel with
  | zero => rfl
  | succ fuel ih =>
    have hself : (Receiver.reference (.arc inner)).resolve = some (.arc inner) :=
      Receiver.resolve_reference h
    rw [method, hself]
    exact ih

theorem getData_arc (provider : ContextProvider σ) (state : σ) (fuel : Nat) {inner : Receiver}
    (h : inner.implements = true) : getData provider state fuel (.arc inner) = none := by
  have hself : (Receiver.arc inner).resolve = some (.arc inner) :=
    Receiver.resolve_of_implements h
  rw [getData, hself]
  simp only [roles, method_arc _ fuel h]

theorem not_delegates {own wrapped : Nat → Option α} (h : ∀ fuel, wrapped fuel = none) :
    ¬ Delegates own wrapped := by
  rintro ⟨fuel, result, _, hwrapped⟩
  rw [h fuel] at hwrapped
  cases hwrapped

/-- Under a layer of `Arc`, however many there are, nothing delegates. -/
theorem shared_not_delegates (provider : ContextProvider σ) (state : σ) (layers : Nat) :
    ¬ Delegates (roles provider state · .provider)
        (roles provider state · (.shared (layers + 1))) ∧
      (∀ name, ¬ Delegates (role provider state name · .provider)
        (role provider state name · (.shared (layers + 1)))) ∧
      ¬ Delegates (getData provider state · .provider)
        (getData provider state · (.shared (layers + 1))) := by
  have himplements := Receiver.shared_implements layers
  refine ⟨not_delegates fun fuel => ?_, fun name => not_delegates fun fuel => ?_,
    not_delegates fun fuel => ?_⟩
  · exact method_arc (provider.roles state) fuel himplements
  · exact method_arc (provider.role state name) fuel himplements
  · exact getData_arc provider state fuel himplements

/-- The role store behind one `Arc`, as the server sets its catalog up. -/
theorem sharedAuthManager_not_delegates :
    ¬ ∀ (σ : Type) (provider : ContextProvider σ) (state : σ) (layers : Nat),
      SharedDelegates provider state (.shared (layers + 1)) := by
  intro h
  have hroles := (h AuthManager authContextProvider AuthManager.new 0).roles
  exact not_delegates (fun fuel => method_arc _ fuel rfl) hroles

end Delegation
end DatafusionPostgres.PgCatalog
