import DatafusionPostgres.Sql.Outline
import DatafusionPostgres.Sql.ProjectionSubqueries

/-! Items of the projections that the last two rules leave alone. -/
namespace DatafusionPostgres.Sql
open DatafusionPostgres.Library

section Items

/-- The change keeps every item of the query, if that is a single SELECT. -/
def Fixes (g : SelectItem Node → SelectItem Node) (q : Query) : Prop :=
  ∀ fields select, q = .mk (.query fields) → fields.body = .mk (.select select) →
    ∀ item ∈ select.projection, g item = item

def FixesAt (g : SelectItem Node → SelectItem Node) : (Σ k, Node k) → Prop
  | ⟨.query, q⟩ => Fixes g q
  | _ => True

variable {f g : SelectItem Node → SelectItem Node} {v : Visitor Node}

theorem Fixes.mapItems_eq_self {q : Query} (h : Fixes g q) : mapItems g q = q := by
  obtain ⟨fields, rfl⟩ := query_eq_mk q
  have hbody : mapProjection g fields.body = fields.body := by
    unfold mapProjection
    split
    · rename_i select hselect
      have hitems : select.projection.map g = select.projection :=
        (List.map_congr_left (h fields select rfl hselect)).trans (List.map_id' _)
      rw [hitems, hselect]
    · rfl
  rw [mapItems, hbody]

/-- The items of a visited query are visited items of the query. -/
theorem fixes_visit (hquery : ∀ q, v.pre .query q = mapItems f q)
    (hbody : ∀ body, v.pre .setExpr body = body) {q : Query}
    (h : ∀ fields select, q = .mk (.query fields) → fields.body = .mk (.select select) →
      ∀ item ∈ select.projection, g (Container.map v.visit (f item)) =
        Container.map v.visit (f item)) : Fixes g (v.visit .query q) := by
  obtain ⟨fields, rfl⟩ := query_eq_mk q
  rw [visit_queryFields hquery]
  intro fields' select' hfields hselect item' hitem'
  cases hfields
  change v.visit .setExpr (mapProjection f fields.body) = _ at hselect
  cases hform : fields.body with
  | mk form =>
    rw [hform] at hselect
    cases form with
    | select select =>
      have hvisit := (visit_setExpr hbody _).symm.trans hselect
      cases hvisit
      obtain ⟨changed, hchanged, rfl⟩ := List.mem_map.mp hitem'
      obtain ⟨item, hitem, rfl⟩ := List.mem_map.mp (show changed ∈ select.projection.map f from hchanged)
      exact h fields select rfl hform item hitem
    | _ => cases (visit_setExpr hbody _).symm.trans hselect

theorem correlates_map (aliases : List String) (f : ∀ k, Node k → Node k) {k : Kind} (n : Node k) :
    RemoveSubqueryFromProjection.correlates aliases
        ⟨k, Trees.roll (Forms.map f (Trees.form n))⟩ =
      RemoveSubqueryFromProjection.correlates aliases ⟨k, n⟩ := by
  obtain ⟨form⟩ := n
  cases form with
  | value value => cases value <;> rfl
  | compoundIdentifier idents => cases idents <;> rfl
  | _ => rfl

end Items

namespace RemoveSubqueryFromProjection

theorem hasCorrelation_of_select {fields : QueryFields Node} {select : Select Node}
    (h : fields.body = .mk (.select select)) : hasCorrelation (.mk (.query fields)) = false ↔
      ∀ m ∈ nodes (Node.mk (.query fields)), correlates
        (ResolveUnqualifiedIdentifier.getTableAliases select.fromClause) m = false := by
  rw [hasCorrelation, h]
  simp only [List.any_eq_false, Bool.not_eq_true]

theorem hasCorrelation_of_not_select {fields : QueryFields Node}
    (h : ∀ select, fields.body ≠ .mk (.select select)) :
    hasCorrelation (.mk (.query fields)) = false := by
  rw [hasCorrelation]
  split
  · rename_i select hselect
    exact absurd hselect (h select)
  · rfl

theorem hasCorrelation_addLimit {q : Query} (h : hasCorrelation q = false) :
    hasCorrelation (addLimit q) = false := by
  obtain ⟨fields, rfl⟩ := query_eq_mk q
  by_cases hselect : ∃ select, fields.body = .mk (.select select)
  · obtain ⟨select, hselect⟩ := hselect
    have hnodes := (hasCorrelation_of_select hselect).mp h
    have hbody : ({ fields with limitClause := some limitOne } : QueryFields Node).body =
        .mk (.select select) := hselect
    refine (hasCorrelation_of_select hbody).mpr (forall_nodes_iff.mpr ⟨rfl, fun c hc => ?_⟩)
    have hchildren : c ∈ children (addLimit (.mk (.query fields))) := hc
    rcases mem_children_addLimit hchildren with rfl | hold
    · exact forall_nodes_iff.mpr ⟨rfl, nofun⟩
    · exact (forall_nodes_iff.mp hnodes).2 c hold
  · exact hasCorrelation_of_not_select fun select hbody => hselect ⟨select, hbody⟩

theorem treatExpr_subquery_iff (q : Query) :
    treatExpr (.mk (.subquery q)) = .mk (.subquery q) ↔
      hasCorrelation q = false ∧ hasLimit q := by
  constructor
  · intro h
    rw [treatExpr] at h
    split at h
    · cases h
    · rename_i hcorrelation
      split at h
      · rename_i hlimit
        have hq : addLimit q = q := Form.subquery.inj (Node.mk.inj h)
        rw [← hq, hasLimit_addLimit] at hlimit
        cases hlimit
      · rename_i hlimit
        rw [Bool.not_eq_true, Bool.not_eq_false'] at hlimit
        exact ⟨eq_false_of_ne_true hcorrelation, hlimit⟩
  · rintro ⟨hcorrelation, hlimit⟩
    rw [treatExpr, if_neg (Bool.eq_false_iff.mp hcorrelation), hlimit]
    rfl

theorem treatExpr_treatExpr (e : Expr) : treatExpr (treatExpr e) = treatExpr e := by
  rcases treatExpr_cases e with ⟨q, -, -, he⟩ | ⟨q, -, hcorrelation, -, he⟩ | he
  · rw [he]
    rfl
  · rw [he]
    exact (treatExpr_subquery_iff _).mpr ⟨hasCorrelation_addLimit hcorrelation, hasLimit_addLimit q⟩
  · rw [he, he]

variable {f : SelectItem Node → SelectItem Node} {hf : ∀ item, ∀ c ∈ Container.parts (f item),
  ∃ c' ∈ Container.parts item, level c.1 c.2 ≤ level c'.1 c'.2}

/-- A change of items that brings in no reference keeps a query without one. -/
theorem hasCorrelation_visit
    (hparts : ∀ aliases k (n : Node k), (∀ m ∈ nodes n, correlates aliases m = false) →
      ∀ c ∈ children ((projectionVisitor f hf).pre k n), ∀ m ∈ nodes c.2,
        correlates aliases m = false) {q : Query} (h : hasCorrelation q = false) :
    hasCorrelation ((projectionVisitor f hf).visit .query q) = false := by
  have hvisit : ∀ aliases, (∀ m ∈ nodes q, correlates aliases m = false) →
      ∀ m ∈ nodes ((projectionVisitor f hf).visit .query q), correlates aliases m = false := by
    intro aliases
    refine Visitor.forall_nodes_visit _ (fun k n h => ?_) (hparts aliases)
    rw [Visitor.visit_eq, correlates_map]
    cases k with
    | query => rfl
    | _ => exact h _ (mem_nodes_self n)
  obtain ⟨fields, rfl⟩ := query_eq_mk q
  rw [visit_queryFields (fun _ => rfl)] at hvisit ⊢
  cases hform : fields.body with
  | mk form =>
    cases form with
    | select select =>
      have hselect : (Container.map (projectionVisitor f hf).visit
          { fields with body := mapProjection f (.mk (.select select)) }).body =
          .mk (.select (Container.map (projectionVisitor f hf).visit
            { select with projection := select.projection.map f })) :=
        visit_setExpr (fun _ => rfl) _
      have haliases := tableAliases_map (tableAlias_visit (v := projectionVisitor f hf)
        fun _ => rfl) select.fromClause
      refine (hasCorrelation_of_select hselect).mpr fun m hm => ?_
      rw [hform] at hvisit
      have hm' := hvisit _ ((hasCorrelation_of_select hform).mp h) m hm
      rwa [← haliases] at hm'
    | _ =>
      refine hasCorrelation_of_not_select fun select => ?_
      change (projectionVisitor f hf).visit .setExpr (.mk _) ≠ _
      rw [visit_setExpr (fun _ => rfl)]
      nofun

theorem treatExpr_visit
    (hparts : ∀ aliases k (n : Node k), (∀ m ∈ nodes n, correlates aliases m = false) →
      ∀ c ∈ children ((projectionVisitor f hf).pre k n), ∀ m ∈ nodes c.2,
        correlates aliases m = false) {e : Expr} (h : treatExpr e = e) :
    treatExpr ((projectionVisitor f hf).visit .expr e) =
      (projectionVisitor f hf).visit .expr e := by
  obtain ⟨form⟩ := e
  rw [Visitor.visit_eq]
  cases form with
  | subquery q =>
    obtain ⟨hcorrelation, hlimit⟩ := (treatExpr_subquery_iff q).mp h
    refine (treatExpr_subquery_iff _).mpr ⟨hasCorrelation_visit hparts hcorrelation, ?_⟩
    rwa [hasLimit_visit]
  | _ => rfl

private theorem parts_uncorrelated (aliases : List String) (k : Kind) (n : Node k)
    (h : ∀ m ∈ nodes n, correlates aliases m = false) :
    ∀ c ∈ children (visitor.pre k n), ∀ m ∈ nodes c.2, correlates aliases m = false :=
  fun _ hc m hm => forall_nodes_pre (P := fun m => correlates aliases m = false) (fun _ => rfl)
    (fun _ => rfl) (fun _ => rfl) rfl rfl h m (mem_nodes_of_mem_children hc hm)

/-- The rule leaves no item for itself. -/
theorem fixesAt_visit {k : Kind} (n : Node k) :
    ∀ m ∈ nodes (visitor.visit k n), FixesAt treatItem m := by
  refine visitor.nodes_visit_of_forall (fun k n => ?_) n
  cases k with
  | query =>
    refine fixes_visit (f := treatItem) (fun _ => rfl) (fun _ => rfl) fun _ _ _ _ item _ => ?_
    cases item with
    | unnamedExpr e =>
      exact congrArg _ (treatExpr_visit parts_uncorrelated (treatExpr_treatExpr e))
    | exprWithAlias e aliasName =>
      exact congrArg (SelectItem.exprWithAlias · aliasName)
        (treatExpr_visit parts_uncorrelated (treatExpr_treatExpr e))
    | _ => rfl
  | _ => trivial

theorem pre_of_fixesAt {k : Kind} {n : Node k} (h : FixesAt treatItem ⟨k, n⟩) :
    visitor.pre k n = n := by
  cases k with
  | query => exact Fixes.mapItems_eq_self h
  | _ => rfl

end RemoveSubqueryFromProjection

namespace FixVersionColumnName

theorem nameItem_cases (item : SelectItem Node) :
    (∃ call, item = .unnamedExpr (.mk (.function call)) ∧ isVersionCall call ∧
      nameItem item = .exprWithAlias (.mk (.function call)) (Ident.new "version")) ∨
    nameItem item = item := by
  unfold nameItem
  split
  · split
    · exact .inl ⟨_, rfl, ‹_›, rfl⟩
    · exact .inr rfl
  · exact .inr rfl

theorem isVersionCall_map (f : ∀ k, Node k → Node k) (call : Function Node) :
    isVersionCall (Container.map f call) = isVersionCall call := by
  obtain ⟨name, args, rest⟩ := call
  match name, args with
  | [_], .list [] _ => rfl
  | [_], .list (_ :: _) _ => rfl
  | [_], .none => rfl
  | [_], .subquery _ => rfl
  | [], .list [] _ => rfl
  | [], .list (_ :: _) _ => rfl
  | [], .none => rfl
  | [], .subquery _ => rfl
  | _ :: _ :: _, .list [] _ => rfl
  | _ :: _ :: _, .list (_ :: _) _ => rfl
  | _ :: _ :: _, .none => rfl
  | _ :: _ :: _, .subquery _ => rfl

private theorem parts_uncorrelated (aliases : List String) (k : Kind) (n : Node k)
    (h : ∀ m ∈ nodes n, RemoveSubqueryFromProjection.correlates aliases m = false) :
    ∀ c ∈ children (visitor.pre k n), ∀ m ∈ nodes c.2,
      RemoveSubqueryFromProjection.correlates aliases m = false :=
  forall_parts_pre (P := fun m => RemoveSubqueryFromProjection.correlates aliases m = false)
    (fun _ => rfl) h

open RemoveSubqueryFromProjection in
theorem fixesAt_treatItem {k : Kind} {n : Node k} (h : ∀ m ∈ nodes n, FixesAt treatItem m) :
    ∀ m ∈ nodes (visitor.visit k n), FixesAt treatItem m := by
  refine visitor.forall_nodes_visit (fun k n h => ?_)
    (fun k n h => forall_parts_pre (fun _ => trivial) h) h
  cases k with
  | query =>
    refine fixes_visit (f := nameItem) (fun _ => rfl) (fun _ => rfl) ?_
    intro fields select hfields hselect item hitem
    have hfixed : treatItem item = item := h _ (mem_nodes_self n) fields select hfields hselect item
      hitem
    rcases nameItem_cases item with ⟨call, rfl, -, hname⟩ | hname
    · rw [hname]
      exact congrArg (SelectItem.exprWithAlias · _)
        (treatExpr_visit parts_uncorrelated (SelectItem.unnamedExpr.inj hfixed))
    · rw [hname]
      cases item with
      | unnamedExpr e =>
        exact congrArg _ (treatExpr_visit parts_uncorrelated (SelectItem.unnamedExpr.inj hfixed))
      | exprWithAlias e aliasName =>
        exact congrArg (SelectItem.exprWithAlias · aliasName)
          (treatExpr_visit parts_uncorrelated (SelectItem.exprWithAlias.inj hfixed).1)
      | _ => rfl
  | _ => trivial

theorem fixesAt_visit {k : Kind} (n : Node k) :
    ∀ m ∈ nodes (visitor.visit k n), FixesAt nameItem m := by
  refine visitor.nodes_visit_of_forall (fun k n => ?_) n
  cases k with
  | query =>
    refine fixes_visit (f := nameItem) (fun _ => rfl) (fun _ => rfl) fun _ _ _ _ item _ => ?_
    rcases nameItem_cases item with ⟨call, rfl, -, hname⟩ | hname
    · rw [hname]
      rfl
    · rw [hname]
      cases item with
      | unnamedExpr e =>
        change nameItem (.unnamedExpr (visitor.visit .expr e)) =
          .unnamedExpr (visitor.visit .expr e)
        rw [visitor.visit_eq]
        obtain ⟨form⟩ := e
        cases form with
        | function call =>
          have hcall : isVersionCall call = false := by
            refine Bool.eq_false_iff.mpr fun hversion => ?_
            rw [nameItem, if_pos hversion] at hname
            cases hname
          refine if_neg ?_
          rw [isVersionCall_map, hcall]
          exact Bool.false_ne_true
        | _ => rfl
      | _ => rfl
  | _ => trivial

theorem pre_of_fixesAt {k : Kind} {n : Node k} (h : FixesAt nameItem ⟨k, n⟩) :
    visitor.pre k n = n := by
  cases k with
  | query => exact Fixes.mapItems_eq_self h
  | _ => rfl

end FixVersionColumnName
end DatafusionPostgres.Sql
