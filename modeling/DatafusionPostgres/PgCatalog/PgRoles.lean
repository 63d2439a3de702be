import DatafusionPostgres.Auth.Manager

/-! `pg_catalog/pg_roles.rs`: a scan reads the names of the roles and then role by role, while other
connections administrate the same store. -/
namespace DatafusionPostgres.PgCatalog
open Auth Library

structure RoleRow where
  rolname : String
  rolsuper : Bool
  rolinherit : Bool
  rolcreaterole : Bool
  rolcreatedb : Bool
  rolcanlogin : Bool
  rolreplication : Bool
  rolconnlimit : Int
  rolpassword : Option String
  rolvaliduntil : Option Int
  rolbypassrls : Option Bool
  rolconfig : Option (List String)
  oid : Int
  deriving DecidableEq, Repr

def RoleRow.of (role : Role) : RoleRow where
  rolname := role.name
  rolsuper := role.isSuperuser
  rolinherit := true
  rolcreaterole := role.canCreateRole
  rolcreatedb := role.canCreateDb
  rolcanlogin := role.canLogin
  rolreplication := role.canReplication
  rolconnlimit := -1
  rolpassword := none
  rolvaliduntil := none
  rolbypassrls := none
  rolconfig := none
  oid := 0

/-- Where a scan stands: the names still to read, and the rows pushed so far. -/
inductive RolesScan where
  | notStarted
  | reading (names : List String) (rows : List RoleRow)
  | panicked
  deriving DecidableEq, Repr

/-- One step of `PgRolesTable::get_data`, each under its own read lock. A role that is gone is
unwrapped all the same. -/
def RolesScan.step (auth : AuthManager) : RolesScan → RolesScan
  | .notStarted => .reading auth.listRoles []
  | .reading (roleName :: names) rows =>
    match auth.getRole roleName with
    | some role => .reading names (rows ++ [.of role])
    | none => .panicked
  | .reading [] rows => .reading [] rows
  | .panicked => .panicked

/-- What may happen next: a call of another connection, or a step of the scan. -/
inductive RolesEvent where
  | call (call : AdminCall)
  | scan

def RolesEvent.isScan : RolesEvent → Bool
  | .scan => true
  | .call _ => false

structure RolesSystem where
  auth : AuthManager
  scan : RolesScan

def RolesSystem.step (s : RolesSystem) : RolesEvent → RolesSystem
  | .call call => { s with auth := s.auth.step call }
  | .scan => { s with scan := s.scan.step s.auth }

section Store

/-- Every role stands under its own name. -/
def Filed (auth : AuthManager) : Prop :=
  ∀ roleName role, auth.getRole roleName = some role → role.name = roleName

def Present (auth : AuthManager) (roleName : String) : Prop := ∃ role, auth.getRole roleName = some role

theorem mem_listRoles {auth : AuthManager} {roleName : String} :
    roleName ∈ auth.listRoles ↔ Present auth roleName := HashMap.mem_keys_iff _ _

theorem nodup_listRoles (auth : AuthManager) : auth.listRoles.Nodup := List.nodup_dedup _

/-- What a call does to the roles: nothing, or one role put under its own name. -/
theorem roles_step (auth : AuthManager) (hfiled : Filed auth) (call : AdminCall) :
    (auth.step call).roles = auth.roles ∨
      ∃ role, (auth.step call).roles = auth.roles.insert role.name role := by
  have hmodify : ∀ roleName (update : Role → Role), (∀ role, (update role).name = role.name) →
      (auth.modifyRole roleName update).2.roles = auth.roles ∨
        ∃ role, (auth.modifyRole roleName update).2.roles = auth.roles.insert role.name role := by
    intro roleName update hname
    rw [AuthManager.modifyRole]
    cases hrole : auth.getRole roleName with
    | none => exact .inl rfl
    | some role =>
      refine .inr ⟨update role, ?_⟩
      rw [hname, hfiled roleName role hrole]
  cases call with
  | addUser user => exact .inl rfl
  | addRole role => exact .inr ⟨role, rfl⟩
  | createRole config => exact .inr ⟨_, rfl⟩
  | grantPermission roleName permission resource grantedBy withGrantOption =>
    exact hmodify roleName _ fun _ => rfl
  | revokePermission roleName permission resource => exact hmodify roleName _ fun _ => rfl
  | addRoleInheritance childRole parentRole =>
    refine hmodify childRole _ fun role => ?_
    split <;> rfl
  | removeRoleInheritance childRole parentRole => exact hmodify childRole _ fun _ => rfl

theorem filed_new : Filed AuthManager.new := by
  intro roleName role h
  rw [AuthManager.getRole, AuthManager.new, HashMap.get_insert] at h
  split at h
  next hname => rw [← Option.some.inj h, hname]
  · cases h

theorem Filed.step {auth : AuthManager} (h : Filed auth) (call : AdminCall) :
    Filed (auth.step call) := by
  intro roleName role hrole
  rw [AuthManager.getRole] at hrole
  rcases roles_step auth h call with heq | ⟨role', heq⟩
  · rw [heq] at hrole
    exact h roleName role hrole
  · rw [heq, HashMap.get_insert] at hrole
    split at hrole
    next hname => rw [← Option.some.inj hrole, hname]
    · exact h roleName role hrole

theorem Filed.run {auth : AuthManager} (h : Filed auth) (calls : List AdminCall) :
    Filed (run AuthManager.step auth calls) := run_invariant (fun _ call h => h.step call) h calls

/-- No call takes a role away. -/
theorem Present.step {auth : AuthManager} {roleName : String} (hfiled : Filed auth)
    (h : Present auth roleName) (call : AdminCall) : Present (auth.step call) roleName := by
  rw [Present, AuthManager.getRole]
  rcases roles_step auth hfiled call with heq | ⟨role, heq⟩
  · rwa [heq]
  · rw [heq, HashMap.get_insert]
    split
    · exact ⟨role, rfl⟩
    · exact h

end Store

section Scan

/-- The scan has read the first names, each into the row of the role of that name, and the roles
of the others are still there. -/
structure Reading (names : List String) (steps : Nat) (s : RolesSystem) : Prop where
  filed : Filed s.auth
  present : ∀ roleName ∈ names, Present s.auth roleName
  rows : ∃ rows, s.scan = .reading (names.drop steps) rows ∧
    rows.map RoleRow.rolname = names.take steps

theorem Reading.call {names : List String} {steps : Nat} {s : RolesSystem}
    (h : Reading names steps s) (call : AdminCall) : Reading names steps (s.step (.call call)) where
  filed := h.filed.step call
  present roleName hname := (h.present roleName hname).step h.filed call
  rows := h.rows

theorem Reading.scan {names : List String} {steps : Nat} {s : RolesSystem}
    (h : Reading names steps s) : Reading names (steps + 1) (s.step .scan) where
  filed := h.filed
  present := h.present
  rows := by
    obtain ⟨rows, hscan, hrows⟩ := h.rows
    rw [RolesSystem.step, hscan]
    by_cases hlt : steps < names.length
    · obtain ⟨role, hrole⟩ := h.present _ (List.getElem_mem hlt)
      refine ⟨rows ++ [.of role], ?_, ?_⟩
      · rw [List.drop_eq_getElem_cons hlt]
        simp only [RolesScan.step, hrole]
      · rw [List.map_append, hrows, List.take_succ_eq_append_getElem hlt, List.map_singleton,
          RoleRow.of, h.filed _ role hrole]
    · have hend := Nat.le_of_not_lt hlt
      rw [List.drop_eq_nil_of_le hend, List.drop_eq_nil_of_le (Nat.le_succ_of_le hend),
        List.take_of_length_le (Nat.le_succ_of_le hend)]
      exact ⟨rows, rfl, by rw [hrows, List.take_of_length_le hend]⟩

theorem Reading.run {names : List String} {steps : Nat} {s : RolesSystem}
    (h : Reading names steps s) (events : List RolesEvent) :
    Reading names (steps + events.countP RolesEvent.isScan) (run RolesSystem.step s events) := by
  induction events generalizing steps s with
  | nil => exact h
  | cons event events ih =>
    cases event with
    | call call =>
      rw [List.countP_cons_of_neg Bool.false_ne_true]
      exact ih (h.call call)
    | scan =>
      rw [List.countP_cons_of_pos rfl, Nat.add_comm _ 1, ← Nat.add_assoc]
      exact ih h.scan

/-- Whatever calls come before and between the steps of a scan, it never panics, and after as many
steps as there were roles at its first step it has one row for each of them, under its name. -/
theorem rolesScan_run (before : List AdminCall) (during : List RolesEvent) :
    let auth := run AuthManager.step AuthManager.new before
    let steps := during.countP RolesEvent.isScan
    auth.listRoles.Nodup ∧
      (∀ roleName, roleName ∈ auth.listRoles ↔
        ∃ role, auth.getRole roleName = some role ∧ role.name = roleName) ∧
      ∃ rows, (run RolesSystem.step ⟨auth, .notStarted⟩ (.scan :: during)).scan =
          .reading (auth.listRoles.drop steps) rows ∧
        rows.map RoleRow.rolname = auth.listRoles.take steps := by
  intro auth steps
  have hfiled : Filed auth := filed_new.run before
  refine ⟨nodup_listRoles auth, fun roleName => mem_listRoles.trans ?_, ?_⟩
  · constructor
    · rintro ⟨role, hrole⟩
      exact ⟨role, hrole, hfiled roleName role hrole⟩
    · rintro ⟨role, hrole, -⟩
      exact ⟨role, hrole⟩
  · have hstart : Reading auth.listRoles 0 ⟨auth, .reading auth.listRoles []⟩ :=
      ⟨hfiled, fun _ => mem_listRoles.mp, [], rfl, rfl⟩
    have hrun := (hstart.run during).rows
    rw [Nat.zero_add] at hrun
    exact hrun

end Scan
end DatafusionPostgres.PgCatalog
