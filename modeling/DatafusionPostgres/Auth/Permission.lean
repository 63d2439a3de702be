import DatafusionPostgres.Auth.Inheritance

/-! What the permission check means: reachability in the inheritance graph of a
role that is a superuser or holds a covering grant. -/
namespace DatafusionPostgres.Auth
open Library Relation

/-- A grant on a schema covers each table whose name starts with the schema and a dot. -/
def Grant.Covers (grant : Grant) (permission : Permission) (resource : ResourceType) : Prop :=
  (grant.permission = permission ∨ grant.permission = .all) ∧
    (grant.resource = resource ∨ grant.resource = .all ∨
      ∃ schema table, grant.resource = .schema schema ∧ resource = .table table ∧
        (schema ++ ".").toList <+: table.toList)

def Role.Permits (role : Role) (permission : Permission) (resource : ResourceType) : Prop :=
  role.isSuperuser = true ∨ ∃ grant ∈ role.grants, grant.Covers permission resource

namespace AuthManager

/-- The user has what the request needs, by itself or through its roles. -/
def Allowed (auth : AuthManager) (username : String) (permission : Permission)
    (resource : ResourceType) : Prop :=
  ∃ user, auth.getUser username = some user ∧
    (user.isSuperuser = true ∨
      ∃ first ∈ user.roles, ∃ roleName, ReflTransGen auth.Inherits first roleName ∧
        ∃ role, auth.getRole roleName = some role ∧ role.Permits permission resource)

theorem permissionMatches_iff (grantPermission requested : Permission) :
    permissionMatches grantPermission requested = true ↔
      grantPermission = requested ∨ grantPermission = .all := by
  simp [permissionMatches]

theorem resourceMatches_iff (grantResource requested : ResourceType) :
    resourceMatches grantResource requested = true ↔
      grantResource = requested ∨ grantResource = .all ∨
        ∃ schema table, grantResource = .schema schema ∧ requested = .table table ∧
          (schema ++ ".").toList <+: table.toList := by
  unfold resourceMatches startsWith
  by_cases heq : grantResource = requested
  · simp [heq]
  · rw [if_neg heq]
    cases grantResource with
    | all => simp
    | schema schema => cases requested <;> simp [heq]
    | table name => simp [heq]
    | database name => simp [heq]
    | function name => simp [heq]
    | sequence name => simp [heq]

theorem grantsMatch_iff (role : Role) (permission : Permission) (resource : ResourceType) :
    grantsMatch role permission resource = true ↔
      ∃ grant ∈ role.grants, grant.Covers permission resource := by
  simp only [grantsMatch, List.any_eq_true, Bool.and_eq_true, permissionMatches_iff,
    resourceMatches_iff, Grant.Covers]

theorem decides_iff (auth : AuthManager) (permission : Permission) (resource : ResourceType)
    (roleName : String) :
    auth.decides permission resource roleName = true ↔
      ∃ role, auth.getRole roleName = some role ∧ role.Permits permission resource := by
  unfold decides
  cases auth.getRole roleName with
  | none => simp
  | some role => simp [Role.Permits, grantsMatch_iff]

private theorem search_answer_iff {auth : AuthManager} {permission : Permission}
    {resource : ResourceType} {fuel : Nat} {first : String} {answer : Bool}
    (h : search (auth.decides permission resource) auth.parents fuel first = some answer) :
    answer = true ↔ ∃ roleName, ReflTransGen auth.Inherits first roleName ∧
      ∃ role, auth.getRole roleName = some role ∧ role.Permits permission resource := by
  simp only [← decides_iff, ← edge_parents]
  cases answer with
  | true => exact ⟨fun _ => search_true h, fun _ => rfl⟩
  | false =>
    constructor
    · intro hf
      cases hf
    · rintro ⟨roleName, hpath, hd⟩
      rw [search_false h hpath] at hd
      exact hd

private theorem loop_answer_iff {auth : AuthManager} {permission : Permission}
    {resource : ResourceType} {fuel : Nat} {roles : List String} {answer : Bool}
    (h : roles.anyM (search (auth.decides permission resource) auth.parents fuel) = some answer) :
    answer = true ↔ ∃ first ∈ roles, ∃ roleName, ReflTransGen auth.Inherits first roleName ∧
      ∃ role, auth.getRole roleName = some role ∧ role.Permits permission resource := by
  cases answer with
  | true =>
    obtain ⟨first, hfirst, ha⟩ := anyM_eq_some_true h
    exact ⟨fun _ => ⟨first, hfirst, (search_answer_iff ha).mp rfl⟩, fun _ => rfl⟩
  | false =>
    constructor
    · intro hf
      cases hf
    · rintro ⟨first, hfirst, hreach⟩
      exact (search_answer_iff (anyM_eq_some_false.mp h first hfirst)).mpr hreach

/-- Any answer that the check gives, at whatever depth, is the right one. -/
theorem checkPermission_answer_iff {auth : AuthManager} {fuel : Nat} {username : String}
    {permission : Permission} {resource : ResourceType} {answer : Bool}
    (h : auth.checkPermission fuel username permission resource = some answer) :
    answer = true ↔ auth.Allowed username permission resource := by
  rw [checkPermission_eq_search] at h
  unfold Allowed
  cases hu : auth.getUser username with
  | none =>
    rw [hu] at h
    cases h
    simp
  | some user =>
    rw [hu] at h
    simp only [Option.some.injEq, exists_eq_left']
    cases hs : user.isSuperuser with
    | true =>
      simp only [hs, if_true, Option.some.injEq] at h
      simp [← h]
    | false =>
      simp only [hs, Bool.false_eq_true, if_false] at h
      simpa using loop_answer_iff h

/-- Over an acyclic graph the check answers, and it answers whether the user is allowed. -/
theorem checkPermission_iff_allowed (auth : AuthManager) (hacyclic : Acyclic auth.Inherits)
    (username : String) (permission : Permission) (resource : ResourceType) :
    ∃ fuel answer,
      (∀ deeper, fuel ≤ deeper →
        auth.checkPermission deeper username permission resource = some answer) ∧
      (answer = true ↔ auth.Allowed username permission resource) := by
  obtain ⟨fuel, answer, h⟩ := terminates_of_acyclic hacyclic username permission resource
  exact ⟨fuel, answer, h, checkPermission_answer_iff (h fuel le_rfl)⟩

/-- The parent of the user's role may read every table of one schema. -/
def inheritedGrant : AuthManager :=
  (run step new oneInheritance).step
    (.grantPermission "reader" .select (.schema "public") "postgres" false)

theorem inheritedGrant_acyclic : Acyclic inheritedGrant.Inherits :=
  step_acyclic _ _ trivial (run_acyclic oneInheritance_closesNoCycle)

theorem inheritedGrant_allows :
    ∃ fuel, inheritedGrant.checkPermission fuel "alice" .select (.table "public.orders") =
      some true := by
  obtain ⟨fuel, answer, hanswer, hiff⟩ := checkPermission_iff_allowed inheritedGrant
    inheritedGrant_acyclic "alice" .select (.table "public.orders")
  have hedge : inheritedGrant.Inherits "analyst" "reader" := ⟨_, rfl, by decide⟩
  have hcovers : (⟨.select, .schema "public", "postgres", false⟩ : Grant).Covers .select
      (.table "public.orders") :=
    ⟨.inl rfl, .inr (.inr ⟨"public", "public.orders", rfl, rfl, by decide⟩)⟩
  have hallowed : inheritedGrant.Allowed "alice" .select (.table "public.orders") :=
    ⟨_, rfl, .inr ⟨"analyst", List.mem_cons_self, "reader", .single hedge, _, rfl,
      .inr ⟨_, List.mem_cons_self, hcovers⟩⟩⟩
  refine ⟨fuel, ?_⟩
  rw [hanswer fuel le_rfl, hiff.mpr hallowed]

/-- A user whose roles reach neither a superuser role nor a grant. -/
structure Unprivileged (auth : AuthManager) (username : String) : Prop where
  user : ∀ user, auth.getUser username = some user → user.isSuperuser = false
  role : ∀ user first roleName role, auth.getUser username = some user → first ∈ user.roles →
    ReflTransGen auth.Inherits first roleName → auth.getRole roleName = some role →
      role.isSuperuser = false ∧ role.grants = []

theorem Unprivileged.not_allowed {auth : AuthManager} {username : String}
    (h : auth.Unprivileged username) (permission : Permission) (resource : ResourceType) :
    ¬ auth.Allowed username permission resource := by
  rintro ⟨user, hu, hsuper | ⟨first, hfirst, roleName, hpath, role, hr, hpermits⟩⟩
  · rw [h.user user hu] at hsuper
    cases hsuper
  · obtain ⟨hs, hg⟩ := h.role user first roleName role hu hfirst hpath hr
    rcases hpermits with hsuper | ⟨grant, hgrant, _⟩
    · rw [hs] at hsuper
      cases hsuper
    · rw [hg] at hgrant
      cases hgrant

theorem Unprivileged.not_permitted {auth : AuthManager} {username : String}
    (h : auth.Unprivileged username) (fuel : Nat) (permission : Permission)
    (resource : ResourceType) :
    auth.checkPermission fuel username permission resource ≠ some true :=
  fun ht => h.not_allowed permission resource ((checkPermission_answer_iff ht).mp rfl)

end AuthManager
end DatafusionPostgres.Auth
