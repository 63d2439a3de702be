import DatafusionPostgres.Session.Planner
import DatafusionPostgres.Session.ReferenceEngine

/-! The types of the placeholders of a plan: which casts give theirs. -/
namespace DatafusionPostgres.Session
open ArrowPg Library PgCatalog

mutual

/-- A plan, as far as placeholders go: the expressions of its node and the plans under it. -/
inductive LogicalPlan where
  | node (expressions : List PlanExpr) (inputs : List LogicalPlan)

inductive PlanExpr where
  | placeholder (id : String)
  | cast (expr : PlanExpr) (dataType : DataType)
  | subquery (plan : LogicalPlan) (operands : List PlanExpr)
  | other (operands : List PlanExpr)

end

/-- The id of a placeholder that the expression consists of. -/
def PlanExpr.placeholderId : PlanExpr → Option String
  | .placeholder id => some id
  | _ => none

section Visits
variable (intoSubqueries : Bool)

mutual

/-- What is come to from the root down: `plan.apply` and `expr.apply` if subqueries are left out. -/
def LogicalPlan.visits : LogicalPlan → List PlaceholderVisit
  | .node expressions inputs => exprsVisits expressions ++ plansVisits inputs

def plansVisits : List LogicalPlan → List PlaceholderVisit
  | [] => []
  | plan :: plans => plan.visits ++ plansVisits plans

def PlanExpr.visits : PlanExpr → List PlaceholderVisit
  | .placeholder id => [.placeholder id]
  | .cast expr dataType =>
    (expr.placeholderId.map fun id => PlaceholderVisit.cast id dataType).toList ++ expr.visits
  | .subquery plan operands =>
    (if intoSubqueries then plan.visits else []) ++ exprsVisits operands
  | .other operands => exprsVisits operands

def exprsVisits : List PlanExpr → List PlaceholderVisit
  | [] => []
  | expr :: exprs => expr.visits ++ exprsVisits exprs

end

end Visits

/-- What the engine tells of a plan agrees with the plan as a tree: `get_parameter_types` looks
into subqueries, `apply` does not. -/
structure ReadsPlans (E : Engine) (tree : E.Plan → LogicalPlan) : Prop where
  visits : ∀ plan, E.placeholderVisits plan = .ok ((tree plan).visits false)
  types : ∀ plan inferred, E.getParameterTypes plan = .ok inferred →
    ∀ id, .placeholder id ∈ (tree plan).visits true → id ∈ inferred.keys

/-- The type of the placeholder is recorded. -/
def Known (types : HashMap String (Option DataType)) (id : String) : Prop :=
  ∃ dataType, types.get id = some (some dataType)

structure CoversPlan (plan : LogicalPlan) (inferred types : HashMap String (Option DataType)) :
    Prop where
  entry : ∀ id, .placeholder id ∈ plan.visits true → id ∈ types.keys
  keeps : ∀ id dataType, inferred.get id = some (some dataType) →
    types.get id = some (some dataType)
  casts : ∀ id dataType, .cast id dataType ∈ plan.visits true → Known types id

/-- A placeholder of unknown type that is cast somewhere is cast outside of subqueries. -/
def CastOutside (plan : LogicalPlan) (inferred : HashMap String (Option DataType)) : Prop :=
  ∀ id dataType, .cast id dataType ∈ plan.visits true → ¬ Known inferred id →
    ∃ dataType, .cast id dataType ∈ plan.visits false

section CastTypes

private theorem placeholderTypes_visit (found : CastTypes) (visit : PlaceholderVisit)
    (id : String) :
    Known (found.visit visit).placeholderTypes id ↔
      Known found.placeholderTypes id ∨ ∃ dataType, visit = .cast id dataType := by
  cases visit with
  | cast id' dataType =>
    unfold CastTypes.visit Known
    by_cases h : id = id'
    · subst h
      rw [HashMap.get_insert_self]
      exact iff_of_true ⟨dataType, rfl⟩ (.inr ⟨dataType, rfl⟩)
    · rw [HashMap.get_insert_of_ne _ h, or_iff_left]
      rintro ⟨dataType', ⟨⟩⟩
      exact h rfl
  | placeholder id' =>
    have hvisit : ¬ ∃ dataType, PlaceholderVisit.placeholder id' = .cast id dataType := by
      rintro ⟨dataType, ⟨⟩⟩
    rw [or_iff_left hvisit, CastTypes.visit]
    split
    · rename_i hnew
      rw [Bool.and_eq_true, Bool.not_eq_true', Bool.not_eq_true', HashMap.containsKey,
        Option.isSome_eq_false_iff, Option.isNone_iff_eq_none] at hnew
      unfold Known
      by_cases h : id = id'
      · subst h
        rw [HashMap.get_insert_self, hnew.2]
        constructor <;> rintro ⟨dataType, ⟨⟩⟩
      · rw [HashMap.get_insert_of_ne _ h]
    · rfl

private theorem placeholderTypes_foldl (visits : List PlaceholderVisit) (found : CastTypes)
    (id : String) :
    Known (visits.foldl CastTypes.visit found).placeholderTypes id ↔
      Known found.placeholderTypes id ∨ ∃ dataType, .cast id dataType ∈ visits := by
  induction visits generalizing found with
  | nil => simp
  | cons visit visits ih =>
    rw [List.foldl_cons, ih, placeholderTypes_visit, or_assoc, ← exists_or]
    simp only [List.mem_cons, eq_comm]

end CastTypes

section Merge
variable {merged : HashMap String (Option DataType)} {id : String}

private theorem mergeCastType_keeps {k : String} {dataType : DataType}
    (h : merged.get k = some (some dataType)) (optType : Option DataType) :
    (mergeCastType merged id optType).get k = some (some dataType) := by
  unfold mergeCastType
  by_cases hk : k = id
  · subst hk
    rw [h]
    exact h
  · split <;> simp only [HashMap.get_insert_of_ne _ hk, h]

private theorem mergeCastType_keys {k : String} (h : k ∈ merged.keys)
    (optType : Option DataType) : k ∈ (mergeCastType merged id optType).keys := by
  rw [HashMap.mem_keys_iff] at h ⊢
  unfold mergeCastType
  by_cases hk : k = id
  · subst hk
    split
    · exact h
    · exact ⟨_, HashMap.get_insert_self _ _ _⟩
    · exact ⟨_, HashMap.get_insert_self _ _ _⟩
  · split <;> simpa only [HashMap.get_insert_of_ne _ hk] using h

private theorem mergeCastType_known (k : String) (optType : Option DataType) :
    Known (mergeCastType merged id optType) k ↔
      Known merged k ∨ k = id ∧ ∃ dataType, optType = some dataType := by
  by_cases hk : k = id
  · subst hk
    unfold mergeCastType Known
    cases hget : merged.get k with
    | none => simp [HashMap.get_insert_self]
    | some recorded => cases recorded <;> simp [HashMap.get_insert_self, hget]
  · unfold mergeCastType Known
    rw [or_iff_left (fun h => hk h.1)]
    split <;> simp only [HashMap.get_insert_of_ne _ hk]

private theorem merged_invariant (P : HashMap String (Option DataType) → Prop)
    (hstep : ∀ merged id optType, P merged → P (mergeCastType merged id optType))
    (ids : List String) (types : String → Option DataType) (h : P merged) :
    P (ids.foldl (fun merged id => mergeCastType merged id (types id)) merged) := by
  induction ids generalizing merged with
  | nil => exact h
  | cons id ids ih => exact ih (hstep _ _ _ h)

private theorem merged_known (ids : List String) (types : String → Option DataType) (k : String) :
    Known (ids.foldl (fun merged id => mergeCastType merged id (types id)) merged) k ↔
      Known merged k ∨ k ∈ ids ∧ ∃ dataType, types k = some dataType := by
  induction ids generalizing merged with
  | nil => simp
  | cons id ids ih =>
    rw [List.foldl_cons, ih, mergeCastType_known, or_assoc, List.mem_cons, or_and_right]
    refine or_congr Iff.rfl (or_congr (and_congr_right ?_) Iff.rfl)
    rintro rfl
    rfl

end Merge

section Casts
variable {intoSubqueries : Bool} {id : String} {dataType : DataType}

mutual

private theorem LogicalPlan.placeholder_of_cast : ∀ plan : LogicalPlan,
    .cast id dataType ∈ plan.visits intoSubqueries → .placeholder id ∈ plan.visits intoSubqueries
  | .node expressions inputs => by
    simp only [LogicalPlan.visits, List.mem_append]
    exact Or.imp (exprsVisits_placeholder_of_cast expressions)
      (plansVisits_placeholder_of_cast inputs)

private theorem plansVisits_placeholder_of_cast : ∀ plans : List LogicalPlan,
    .cast id dataType ∈ plansVisits intoSubqueries plans →
      .placeholder id ∈ plansVisits intoSubqueries plans
  | [] => by simp [plansVisits]
  | plan :: plans => by
    simp only [plansVisits, List.mem_append]
    exact Or.imp (LogicalPlan.placeholder_of_cast plan) (plansVisits_placeholder_of_cast plans)

private theorem PlanExpr.placeholder_of_cast : ∀ expr : PlanExpr,
    .cast id dataType ∈ expr.visits intoSubqueries → .placeholder id ∈ expr.visits intoSubqueries
  | .placeholder id' => by simp [PlanExpr.visits]
  | .cast expr dataType' => by
    simp only [PlanExpr.visits, List.mem_append]
    rintro (h | h)
    · cases expr with
      | placeholder id' =>
        cases List.mem_singleton.mp h
        exact .inr (List.mem_singleton.mpr rfl)
      | _ => cases h
    · exact .inr (PlanExpr.placeholder_of_cast expr h)
  | .subquery plan operands => by
    simp only [PlanExpr.visits, List.mem_append]
    refine Or.imp (fun h => ?_) (exprsVisits_placeholder_of_cast operands)
    split at h
    · rename_i hinto
      rw [if_pos hinto]
      exact LogicalPlan.placeholder_of_cast plan h
    · cases h
  | .other operands => exprsVisits_placeholder_of_cast operands

private theorem exprsVisits_placeholder_of_cast : ∀ exprs : List PlanExpr,
    .cast id dataType ∈ exprsVisits intoSubqueries exprs →
      .placeholder id ∈ exprsVisits intoSubqueries exprs
  | [] => by simp [exprsVisits]
  | expr :: exprs => by
    simp only [exprsVisits, List.mem_append]
    exact Or.imp (PlanExpr.placeholder_of_cast expr) (exprsVisits_placeholder_of_cast exprs)

end

end Casts

section Inferred
variable {E : Engine} {tree : E.Plan → LogicalPlan} {plan : E.Plan}
variable {inferred : HashMap String (Option DataType)}

private theorem known_of_hasNone_false
    (hnone : (inferred.keys.any fun id => (inferred.get id).join.isNone) = false) {id : String}
    (hid : id ∈ inferred.keys) : Known inferred id := by
  have hsome := List.any_eq_false.mp hnone id hid
  obtain ⟨recorded, hget⟩ := (inferred.mem_keys_iff id).mp hid
  cases recorded with
  | none => rw [hget] at hsome; exact absurd rfl hsome
  | some dataType => exact ⟨dataType, hget⟩

private theorem getInferredParameterTypes_spec (hreads : ReadsPlans E tree)
    (hinferred : E.getParameterTypes plan = .ok inferred) :
    ∃ types, getInferredParameterTypes E plan = .ok types ∧
      (∀ id ∈ inferred.keys, id ∈ types.keys) ∧
      (∀ id dataType, inferred.get id = some (some dataType) →
        types.get id = some (some dataType)) ∧
      ∀ id ∈ inferred.keys, Known types id ↔
        Known inferred id ∨ ∃ dataType, .cast id dataType ∈ (tree plan).visits false := by
  unfold getInferredParameterTypes
  rw [hinferred]
  dsimp only [bind, Except.bind]
  cases hnone : inferred.keys.any fun id => (inferred.get id).join.isNone with
  | false =>
    exact ⟨inferred, rfl, fun _ hid => hid, fun _ _ hget => hget, fun id hid =>
      iff_of_true (known_of_hasNone_false hnone hid) (.inl (known_of_hasNone_false hnone hid))⟩
  | true =>
    simp only [extractPlaceholderCastTypes, hreads.visits, bind, Except.bind]
    refine ⟨_, rfl, fun id hid => ?_, fun id dataType hget => ?_, fun id _ => ?_⟩
    · exact merged_invariant (id ∈ ·.keys) (fun _ _ _ h => mergeCastType_keys h _) _ _ hid
    · exact merged_invariant (·.get id = some (some dataType))
        (fun _ _ _ h => mergeCastType_keeps h _) _ _ hget
    · rw [merged_known]
      refine or_congr_right ?_
      have hcast := placeholderTypes_foldl ((tree plan).visits false) ⟨.empty, []⟩ id
      rw [or_iff_right (by rintro ⟨_, ⟨⟩⟩)] at hcast
      rw [← hcast]
      simp only [Option.join_eq_some_iff]
      refine and_iff_right_of_imp ?_
      rintro ⟨dataType, hget⟩
      exact (HashMap.mem_keys_iff _ _).mpr ⟨_, hget⟩

/-- Every placeholder has an entry, and every cast one a type, if casts of placeholders of
unknown type are found outside of subqueries. -/
theorem coversPlan_iff (E : Engine) (tree : E.Plan → LogicalPlan) (plan : E.Plan)
    (hreads : ReadsPlans E tree) :
    (∃ inferred types, E.getParameterTypes plan = .ok inferred ∧
        getInferredParameterTypes E plan = .ok types ∧ CoversPlan (tree plan) inferred types) ↔
      ∃ inferred, E.getParameterTypes plan = .ok inferred ∧ CastOutside (tree plan) inferred := by
  constructor
  · rintro ⟨inferred, types, hinferred, htypes, hcovers⟩
    refine ⟨inferred, hinferred, fun id dataType hcast hunknown => ?_⟩
    obtain ⟨types', htypes', -, -, hknown⟩ := getInferredParameterTypes_spec hreads hinferred
    cases htypes.symm.trans htypes'
    have hid := hreads.types plan inferred hinferred id ((tree plan).placeholder_of_cast hcast)
    exact ((hknown id hid).mp (hcovers.casts id dataType hcast)).resolve_left hunknown
  · rintro ⟨inferred, hinferred, houtside⟩
    obtain ⟨types, htypes, hkeys, hkeeps, hknown⟩ := getInferredParameterTypes_spec hreads hinferred
    have hids := hreads.types plan inferred hinferred
    refine ⟨inferred, types, hinferred, htypes, fun id hid => hkeys id (hids id hid), hkeeps, ?_⟩
    intro id dataType hcast
    rw [hknown id (hids id ((tree plan).placeholder_of_cast hcast)), or_iff_not_imp_left]
    exact houtside id dataType hcast

end Inferred

section Regclass

/-- The reference engine on plans as trees; it infers no type. -/
def planEngine : Engine :=
  { referenceEngine with
    Plan := LogicalPlan
    statementToPlan := fun _ _ => .ok (.node [] [])
    optimize := fun plan _ => .ok plan
    executeLogicalPlan := fun _ _ _ => ⟨.ok .one, (), false⟩
    replaceParamsWithValues := fun plan _ => .ok plan
    getParameterTypes := fun plan => .ok ⟨(plan.visits true).filterMap fun
      | .placeholder id => some (id, none)
      | .cast _ _ => none⟩
    placeholderVisits := fun plan => .ok (plan.visits false)
    emptyRelation := fun _ _ => .node [] [] }

private theorem planEngine_reads : ReadsPlans planEngine id where
  visits _ := rfl
  types plan inferred h id hid := by
    cases h
    rw [HashMap.keys, List.mem_dedup]
    exact List.mem_map.mpr ⟨(id, none), List.mem_filterMap.mpr ⟨_, hid, rfl⟩, rfl⟩

/-- `SELECT $1, $1::TEXT`. -/
def castedTwice : LogicalPlan :=
  .node [.placeholder "$1", .cast (.placeholder "$1") .utf8] [.node [] []]

/-- `SELECT $1::regclass`, rewritten: the operand is in `parse_ident($1::TEXT)`. -/
def regclassPlan : LogicalPlan :=
  .node [.subquery (.node [.other []] [.node [.other [.other []]] [.node [] [], .node
    [.other [.cast (.placeholder "$1") .utf8]] [.node [] []]]]) []] [.node [] []]

theorem castedTwice_covered : ∃ inferred types,
    planEngine.getParameterTypes castedTwice = .ok inferred ∧
      getInferredParameterTypes planEngine castedTwice = .ok types ∧
      CoversPlan castedTwice inferred types :=
  (coversPlan_iff planEngine id castedTwice planEngine_reads).mpr
    ⟨_, rfl, fun _ dataType hcast _ => ⟨dataType, hcast⟩⟩

theorem regclassPlan_not_covered : ¬ ∀ plan : LogicalPlan, ∃ inferred types,
    planEngine.getParameterTypes plan = .ok inferred ∧
      getInferredParameterTypes planEngine plan = .ok types ∧ CoversPlan plan inferred types := by
  intro h
  obtain ⟨inferred, types, -, htypes, hcovers⟩ := h regclassPlan
  obtain ⟨dataType, hget⟩ := hcovers.casts "$1" .utf8 List.mem_cons_self
  cases htypes
  cases hget

end Regclass

end DatafusionPostgres.Session
