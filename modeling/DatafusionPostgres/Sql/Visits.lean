import DatafusionPostgres.Sql.SettledItems

/-! One pass of the rules that visit a whole statement leaves these rules nothing to do, unless a
collation hid something from one of them; and what the pass makes of an outline. -/
namespace DatafusionPostgres.Sql
open DatafusionPostgres.Library

namespace Shape

/-- A text, under whatever collations. -/
def isText : Shape → Bool
  | .name (.singleQuotedString _) => true
  | .collate s => isText s
  | _ => false

/-- A cast that reads a text as an array, under whatever collations. -/
def isTextArray : Shape → Bool
  | .cast .doubleColon s (.array _) => isText s
  | _ => false

/-- A collation that a rule before the one for collations does not look through. -/
def hides : Shape → Bool
  | .collate (.collate _) => true
  | .cast .doubleColon (.collate s) (.array _) => isText s
  | _ => false

theorem isText_cases {s : Shape} (h : isText s) :
    (∃ text, s = .name (.singleQuotedString text)) ∨ ∃ t, s = .collate t ∧ isText t := by
  unfold isText at h
  split at h
  · exact .inl ⟨_, rfl⟩
  · exact .inr ⟨_, rfl, h⟩
  · cases h

theorem isDoubled_cases {s : Shape} (h : StripCollate.isDoubled s) :
    ∃ t, s = .collate (.collate t) := by
  unfold StripCollate.isDoubled at h
  split at h
  · exact ⟨_, rfl⟩
  · cases h

/-- A change that keeps names, operators and collations, and makes none. -/
structure Faithful (r : Shape → Shape) : Prop where
  name (s : Shape) (operand : Value) : r s = .name operand ↔ s = .name operand
  collate (s t : Shape) : r s = .collate t ↔ s = .collate t
  binaryOp (s t u : Shape) : r s = .binaryOp t u ↔ s = .binaryOp t u

/-- Names, collations and binary operators. -/
def isFrame : Shape → Bool
  | .name _ => true
  | .collate _ => true
  | .binaryOp _ _ => true
  | _ => false

theorem Faithful.of_cases {r : Shape → Shape}
    (h : ∀ s, r s = s ∨ isFrame s = false ∧ isFrame (r s) = false) : Faithful r := by
  have hframe : ∀ s t, isFrame t → (r s = t ↔ s = t) := by
    intro s t ht
    rcases h s with hkeep | ⟨hs, hrs⟩
    · rw [hkeep]
    · constructor
      · rintro rfl
        exact absurd (hrs.symm.trans ht) Bool.false_ne_true
      · rintro rfl
        exact absurd (hs.symm.trans ht) Bool.false_ne_true
  exact ⟨fun s operand => hframe s _ rfl, fun s t => hframe s _ rfl, fun s t u => hframe s _ rfl⟩

section Faithful
variable {r : Shape → Shape} (hr : Faithful r)
include hr

theorem Faithful.bottomUp_collate (s : Shape) :
    bottomUp r (.collate s) = .collate (bottomUp r s) :=
  (hr.collate _ _).mpr rfl

theorem Faithful.eq_name {s : Shape} {operand : Value} (h : bottomUp r s = .name operand) :
    s = .name operand := by
  cases s <;> cases (hr.name _ _).mp h
  rfl

theorem Faithful.eq_collate {s t : Shape} (h : bottomUp r s = .collate t) :
    ∃ s', s = .collate s' ∧ bottomUp r s' = t := by
  cases s <;> cases (hr.collate _ _).mp h
  exact ⟨_, rfl, rfl⟩

theorem Faithful.isText_of_bottomUp {s : Shape} (h : isText (bottomUp r s)) : isText s := by
  induction s with
  | collate s ih =>
    rw [hr.bottomUp_collate] at h
    exact ih h
  | _ =>
    rcases isText_cases h with ⟨text, htext⟩ | ⟨t, hcollate, -⟩
    · rw [hr.eq_name htext]
      rfl
    · obtain ⟨s', hs, -⟩ := hr.eq_collate hcollate
      cases hs

theorem Faithful.isDoubled_of_bottomUp {s : Shape}
    (h : StripCollate.isDoubled (bottomUp r s)) : StripCollate.isDoubled s := by
  obtain ⟨t, ht⟩ := isDoubled_cases h
  obtain ⟨s', rfl, hs'⟩ := hr.eq_collate ht
  obtain ⟨s'', rfl, -⟩ := hr.eq_collate hs'
  rfl

end Faithful


theorem faithful_fixArrayLiteral : Faithful FixArrayLiteral.onShape := by
  refine .of_cases fun s => ?_
  rcases FixArrayLiteral.onShape_cases s with ⟨text, elem, rfl⟩ | h
  · exact .inr ⟨rfl, rfl⟩
  · exact .inl h

theorem faithful_currentUser :
    Faithful CurrentUserVariableToSessionUserFunctionCall.onShape := by
  refine .of_cases fun s => ?_
  rcases CurrentUserVariableToSessionUserFunctionCall.onShape_cases s with ⟨ident, rfl, h⟩ | h
  · rw [CurrentUserVariableToSessionUserFunctionCall.onShape, if_pos h]
    exact .inr ⟨rfl, rfl⟩
  · exact .inl h

theorem faithful_regCast : Faithful RewriteRegCastToSubquery.onShape := by
  refine .of_cases fun s => ?_
  rcases RewriteRegCastToSubquery.onShape_cases s with ⟨kind, operand, dataType, r, rfl, h⟩ | h
  · rw [RewriteRegCastToSubquery.onShape, if_pos (Option.isSome_iff_exists.mpr ⟨r, h⟩)]
    exact .inr ⟨rfl, rfl⟩
  · exact .inl h

/-- Past the rule for array literals, no text is left to be read as an array. -/
theorem isTextArray_fixArrayLiteral {s : Shape} (h : hides s = false) :
    isTextArray (bottomUp FixArrayLiteral.onShape s) = false := by
  cases s with
  | cast kind e dataType =>
    change isTextArray (FixArrayLiteral.onShape
      (.cast kind (bottomUp FixArrayLiteral.onShape e) dataType)) = false
    rcases FixArrayLiteral.onShape_cases
      (.cast kind (bottomUp FixArrayLiteral.onShape e) dataType) with ⟨text, elem, heq⟩ | hkeep
    · rw [heq]
      rfl
    · rw [hkeep]
      refine Bool.eq_false_iff.mpr fun htext => ?_
      unfold isTextArray at htext
      split at htext
      · rename_i elem heq
        cases heq
        rcases isText_cases htext with ⟨text, hname⟩ | ⟨t, hcollate, ht⟩
        · rw [hname] at hkeep
          cases hkeep
        · obtain ⟨e', rfl, rfl⟩ := faithful_fixArrayLiteral.eq_collate hcollate
          rw [hides, faithful_fixArrayLiteral.isText_of_bottomUp ht] at h
          cases h
      · cases htext
  | _ => rfl

theorem isTextArray_currentUser {s : Shape} (h : isTextArray s = false) :
    isTextArray (bottomUp CurrentUserVariableToSessionUserFunctionCall.onShape s) = false := by
  cases s with
  | cast kind e dataType =>
    refine Bool.eq_false_iff.mpr fun htext => ?_
    change isTextArray (.cast kind (bottomUp _ e) dataType) at htext
    unfold isTextArray at htext
    split at htext
    · rename_i elem heq
      cases heq
      rw [isTextArray, faithful_currentUser.isText_of_bottomUp htext] at h
      cases h
    · cases htext
  | identifier ident =>
    change isTextArray (if _ then _ else _) = false
    split <;> rfl
  | _ => rfl

private theorem isText_of_stripCollate {s : Shape} {text : String}
    (h : bottomUp StripCollate.onShape s = .name (.singleQuotedString text)) : isText s := by
  induction s with
  | collate s ih => exact ih h
  | name operand =>
    cases h
    rfl
  | _ => cases h

theorem fixed_stripCollate {s : Shape} (hcollate : StripCollate.onShape s = s)
    (h : isTextArray s = false) :
    FixArrayLiteral.onShape (bottomUp StripCollate.onShape s) =
      bottomUp StripCollate.onShape s := by
  rcases FixArrayLiteral.onShape_cases (bottomUp StripCollate.onShape s) with
    ⟨text, elem, heq⟩ | hkeep
  · cases s with
    | cast kind e dataType =>
      change Shape.cast kind (bottomUp StripCollate.onShape e) dataType = _ at heq
      rw [Shape.cast.injEq] at heq
      obtain ⟨rfl, he, rfl⟩ := heq
      rw [isTextArray, isText_of_stripCollate he] at h
      cases h
    | collate e =>
      have hsize := congrArg sizeOf hcollate
      simp [StripCollate.onShape] at hsize
    | _ => cases heq
  · exact hkeep

theorem fixed_regCast {s : Shape} (h : FixArrayLiteral.onShape s = s) :
    FixArrayLiteral.onShape (bottomUp RewriteRegCastToSubquery.onShape s) =
      bottomUp RewriteRegCastToSubquery.onShape s := by
  cases s with
  | cast kind e dataType =>
    change FixArrayLiteral.onShape (RewriteRegCastToSubquery.onShape
      (.cast kind (bottomUp RewriteRegCastToSubquery.onShape e) dataType)) =
      RewriteRegCastToSubquery.onShape
        (.cast kind (bottomUp RewriteRegCastToSubquery.onShape e) dataType)
    rcases RewriteRegCastToSubquery.onShape_cases
      (.cast kind (bottomUp RewriteRegCastToSubquery.onShape e) dataType) with
      ⟨kind', operand, dataType', r, heq, hr⟩ | hkeep
    · rw [heq, RewriteRegCastToSubquery.onShape, if_pos (Option.isSome_iff_exists.mpr ⟨r, hr⟩)]
      rfl
    · rw [hkeep]
      rcases FixArrayLiteral.onShape_cases
        (.cast kind (bottomUp RewriteRegCastToSubquery.onShape e) dataType) with
        ⟨text, elem, heq⟩ | hfixed
      · rw [Shape.cast.injEq] at heq
        obtain ⟨rfl, he, rfl⟩ := heq
        rw [faithful_regCast.eq_name he] at h
        cases h
      · exact hfixed
  | _ => rfl

end Shape

section Visits

/-- Nothing is left for the rules that visit a whole statement. -/
structure Settled (s : Statement) : Prop where
  quiet (r : LocalRule) : Quiet r s
  shaped : Shaped (fun t => FixArrayLiteral.onShape t = t ∧
    RewriteRegCastToSubquery.onShape t = t) s
  subqueries : ∀ m ∈ nodes s, FixesAt RemoveSubqueryFromProjection.treatItem m
  versions : ∀ m ∈ nodes s, FixesAt FixVersionColumnName.nameItem m

/-- The rules that visit a whole statement. -/
def visits (s : Statement) : Statement :=
  (PostgresCompatibilityParser.rewriteRules.drop 2).foldl (fun s rule => rule s) s

theorem rewrite_eq (s : Statement) : PostgresCompatibilityParser.rewrite s =
    visits (ResolveUnqualifiedIdentifier.rewrite (AliasDuplicatedProjectionRewrite.rewrite s)) := by
  simp only [PostgresCompatibilityParser.rewrite, visits, PostgresCompatibilityParser.rewriteRules,
    List.drop_succ_cons, List.drop_zero, List.foldl_cons, List.foldl_nil]

theorem Settled.visits_eq_self {s : Statement} (h : Settled s) : visits s = s := by
  have hcomparison : RewriteArrayAnyAllOperation.rewrite s = s :=
    Visitor.visit_eq_self _ fun m hm =>
      RewriteArrayAnyAllOperation.pre_of_quiet (h.quiet .comparison m hm)
  have htable : PrependUnqualifiedPgTableName.rewrite s = s :=
    Visitor.visit_eq_self _ fun m hm =>
      PrependUnqualifiedPgTableName.pre_of_quiet (h.quiet .table m hm)
  have hcallable : StripCallableQualifier.rewrite s = s :=
    Visitor.visit_eq_self _ fun m hm =>
      StripCallableQualifier.pre_of_quiet (h.quiet .callable m hm)
  have harray : FixArrayLiteral.rewrite s = s :=
    Visitor.visit_eq_self _ fun m hm => FixArrayLiteral.pre_of_onShape (h.shaped m hm).1
  have huser : CurrentUserVariableToSessionUserFunctionCall.rewrite s = s :=
    Visitor.visit_eq_self _ fun m hm =>
      CurrentUserVariableToSessionUserFunctionCall.pre_of_quiet (h.quiet .user m hm)
  have hcollate : StripCollate.rewrite s = s :=
    Visitor.visit_eq_self _ fun m hm => StripCollate.pre_of_quiet (h.quiet .collate m hm)
  have hoperator : RewritePgCatalogOperator.rewrite s = s :=
    Visitor.visit_eq_self _ fun m hm =>
      RewritePgCatalogOperator.pre_of_quiet (h.quiet .operator m hm)
  have hcast : RewriteRegCastToSubquery.rewrite s = s :=
    Visitor.visit_eq_self _ fun m hm => RewriteRegCastToSubquery.pre_of_onShape (h.shaped m hm).2
  have hsubquery : RemoveSubqueryFromProjection.rewrite s = s :=
    Visitor.visit_eq_self _ fun m hm =>
      RemoveSubqueryFromProjection.pre_of_fixesAt (h.subqueries m hm)
  have hversion : FixVersionColumnName.rewrite s = s :=
    Visitor.visit_eq_self _ fun m hm => FixVersionColumnName.pre_of_fixesAt (h.versions m hm)
  simp only [visits, PostgresCompatibilityParser.rewriteRules, List.drop_succ_cons, List.drop_zero,
    List.foldl_cons, List.foldl_nil, hcomparison, htable, hcallable, harray, huser, hcollate,
    hoperator, hcast, hsubquery, hversion]

end Visits

section Stages

/-- What the rule for array literals leaves: a text under one collation is no longer read as an
array, nor is one collation under another. -/
def Unhidden (t : Shape) : Prop :=
  StripCollate.isDoubled t = false ∧ t.isTextArray = false

variable {k : Kind} {n : Node k}

theorem isDoubled_of_hides {t : Shape} (h : t.hides = false) :
    StripCollate.isDoubled t = false := by
  refine Bool.eq_false_iff.mpr fun hdoubled => ?_
  obtain ⟨s, rfl⟩ := Shape.isDoubled_cases hdoubled
  cases h

theorem hides_comparison (h : Shaped (Shape.hides · = false) n) :
    Shaped (Shape.hides · = false) (RewriteArrayAnyAllOperation.visitor.visit k n) := by
  refine Shaped.visit (p := (Shape.hides · = false))
    (RewriteArrayAnyAllOperation.shaped_parts rfl fun _ => rfl) (fun k n h => ?_) h
  rw [RewriteArrayAnyAllOperation.shape_visitor]
  exact h _ (mem_nodes_self n)

theorem hides_table (h : Shaped (Shape.hides · = false) n) :
    Shaped (Shape.hides · = false) (PrependUnqualifiedPgTableName.visitor.visit k n) := by
  refine Shaped.visit (Shaped.parts_of_keep fun _ => PrependUnqualifiedPgTableName.children_pre)
    (fun k n h => ?_) h
  rw [PrependUnqualifiedPgTableName.shape_visitor]
  exact h _ (mem_nodes_self n)

theorem hides_callable (h : Shaped (Shape.hides · = false) n) :
    Shaped (Shape.hides · = false) (StripCallableQualifier.visitor.visit k n) := by
  refine Shaped.visit (Shaped.parts_of_keep fun _ => StripCallableQualifier.children_pre)
    (fun k n h => ?_) h
  rw [StripCallableQualifier.shape_visitor]
  exact h _ (mem_nodes_self n)

theorem unhidden_fixArrayLiteral (h : Shaped (Shape.hides · = false) n) :
    Shaped Unhidden (FixArrayLiteral.visitor.visit k n) := by
  refine Shaped.visit (p := (Shape.hides · = false))
    (FixArrayLiteral.shaped_parts rfl fun _ => rfl) (fun k n h => ?_) h
  have hself := h _ (mem_nodes_self n)
  rw [FixArrayLiteral.shape_visitor]
  refine ⟨Bool.eq_false_iff.mpr fun hdoubled => ?_, Shape.isTextArray_fixArrayLiteral hself⟩
  have hold := Shape.faithful_fixArrayLiteral.isDoubled_of_bottomUp hdoubled
  rw [isDoubled_of_hides hself] at hold
  cases hold

theorem unhidden_currentUser (h : Shaped Unhidden n) :
    Shaped Unhidden (CurrentUserVariableToSessionUserFunctionCall.visitor.visit k n) := by
  refine Shaped.visit
    (Shaped.parts_of_keep fun _ => CurrentUserVariableToSessionUserFunctionCall.children_pre)
    (fun k n h => ?_) h
  obtain ⟨hdoubled, htext⟩ := h _ (mem_nodes_self n)
  rw [CurrentUserVariableToSessionUserFunctionCall.shape_visitor]
  refine ⟨Bool.eq_false_iff.mpr fun hnew => ?_, Shape.isTextArray_currentUser htext⟩
  rw [Shape.faithful_currentUser.isDoubled_of_bottomUp hnew] at hdoubled
  cases hdoubled

theorem Shaped.imp {p q : Shape → Prop} (hpq : ∀ t, p t → q t) (h : Shaped p n) : Shaped q n :=
  fun m hm => hpq _ (h m hm)

theorem fixed_collate (h : Shaped Unhidden n) :
    Shaped (fun t => FixArrayLiteral.onShape t = t) (StripCollate.visitor.visit k n) := by
  refine Shaped.visit (fun k n h c hc m hm => h m (StripCollate.mem_nodes_of_pre hc hm))
    (fun k n h => ?_) h
  have hdoubled : Shaped (StripCollate.isDoubled · = false) n := h.imp fun _ => And.left
  have hpre : Unhidden (shape k (StripCollate.visitor.pre k n)) := by
    refine hooks_expr (P := fun k n n' => Shaped Unhidden n → Unhidden (shape k n'))
      (fun _ n h => h _ (mem_nodes_self n)) (fun e h => ?_) k n h
    rcases StripCollate.preVisitExpr_cases e with ⟨inner, collation, rfl, he⟩ | he
    · rw [he]
      exact h ⟨.expr, inner⟩ (mem_nodes_of_mem_children (List.mem_singleton_self _)
        (mem_nodes_self inner))
    · rw [he]
      exact h _ (mem_nodes_self e)
  rw [StripCollate.shape_visitor hdoubled, ← StripCollate.bottomUp_pre]
  exact Shape.fixed_stripCollate (StripCollate.onShape_of_quiet
    (StripCollate.quiet_pre_of_not_doubled (hdoubled _ (mem_nodes_self n)))) hpre.2

theorem fixed_operator (h : Shaped (fun t => FixArrayLiteral.onShape t = t) n) :
    Shaped (fun t => FixArrayLiteral.onShape t = t)
      (RewritePgCatalogOperator.visitor.visit k n) := by
  refine Shaped.visit (Shaped.parts_of_keep fun _ => RewritePgCatalogOperator.children_pre)
    (fun k n h => ?_) h
  rw [RewritePgCatalogOperator.shape_visitor]
  exact h _ (mem_nodes_self n)

theorem fixed_regCast (h : Shaped (fun t => FixArrayLiteral.onShape t = t) n) :
    Shaped (fun t => FixArrayLiteral.onShape t = t ∧ RewriteRegCastToSubquery.onShape t = t)
      (RewriteRegCastToSubquery.visitor.visit k n) := by
  refine Shaped.visit RewriteRegCastToSubquery.shaped_parts
    (fun k n h => ⟨?_, RewriteRegCastToSubquery.onShape_visit k n⟩) h
  rw [RewriteRegCastToSubquery.shape_visitor]
  exact Shape.fixed_regCast (h _ (mem_nodes_self n))

theorem fixed_subquery
    (h : Shaped (fun t => FixArrayLiteral.onShape t = t ∧ RewriteRegCastToSubquery.onShape t = t) n) :
    Shaped (fun t => FixArrayLiteral.onShape t = t ∧ RewriteRegCastToSubquery.onShape t = t)
      (RemoveSubqueryFromProjection.visitor.visit k n) := by
  refine Shaped.visit (RemoveSubqueryFromProjection.shaped_parts ⟨rfl, rfl⟩ fun _ => ⟨rfl, rfl⟩)
    (fun k n h => ?_) h
  rw [RemoveSubqueryFromProjection.visitor, shape_projectionVisitor]
  exact h _ (mem_nodes_self n)

theorem fixed_version
    (h : Shaped (fun t => FixArrayLiteral.onShape t = t ∧ RewriteRegCastToSubquery.onShape t = t) n) :
    Shaped (fun t => FixArrayLiteral.onShape t = t ∧ RewriteRegCastToSubquery.onShape t = t)
      (FixVersionColumnName.visitor.visit k n) := by
  refine Shaped.visit (FixVersionColumnName.shaped_parts ⟨rfl, rfl⟩) (fun k n h => ?_) h
  rw [FixVersionColumnName.visitor, shape_projectionVisitor]
  exact h _ (mem_nodes_self n)

theorem visits_eq (s : Statement) : visits s =
    FixVersionColumnName.rewrite (RemoveSubqueryFromProjection.rewrite
      (RewriteRegCastToSubquery.rewrite (RewritePgCatalogOperator.rewrite (StripCollate.rewrite
        (CurrentUserVariableToSessionUserFunctionCall.rewrite (FixArrayLiteral.rewrite
          (StripCallableQualifier.rewrite (PrependUnqualifiedPgTableName.rewrite
            (RewriteArrayAnyAllOperation.rewrite s))))))))) := by
  simp only [visits, PostgresCompatibilityParser.rewriteRules, List.drop_succ_cons, List.drop_zero,
    List.foldl_cons, List.foldl_nil]

private theorem quiet_visits {s : Statement} (h : Shaped (Shape.hides · = false) s)
    (r : LocalRule) : Quiet r (visits s) := by
  have hdoubled := (unhidden_currentUser (unhidden_fixArrayLiteral (hides_callable (hides_table
    (hides_comparison h))))).imp fun _ => And.left
  have h9 : ∀ {s}, Quiet r s → Quiet r (FixVersionColumnName.rewrite
      (RemoveSubqueryFromProjection.rewrite (RewriteRegCastToSubquery.rewrite s))) := fun h =>
    FixVersionColumnName.quiet_of_quiet (RemoveSubqueryFromProjection.quiet_of_quiet
      (RewriteRegCastToSubquery.quiet_of_quiet h))
  have h8 : ∀ {s}, Quiet r s → Quiet r _ := fun h =>
    h9 (RewritePgCatalogOperator.quiet_of_quiet h)
  have h7 : ∀ {s}, Quiet r s → Quiet r _ := fun h => h8 (StripCollate.quiet_of_quiet h)
  have h5 : ∀ {s}, Quiet r s → Quiet r _ := fun h =>
    h7 (CurrentUserVariableToSessionUserFunctionCall.quiet_of_quiet
      (FixArrayLiteral.quiet_of_quiet h))
  have h4 : ∀ {s}, Quiet r s → Quiet r _ := fun h => h5 (StripCallableQualifier.quiet_of_quiet h)
  rw [visits_eq]
  cases r with
  | comparison =>
    exact h4 (PrependUnqualifiedPgTableName.quiet_of_quiet
      (RewriteArrayAnyAllOperation.quiet_comparison s))
  | table => exact h4 (PrependUnqualifiedPgTableName.quiet_table _)
  | callable => exact h5 (StripCallableQualifier.quiet_callable _)
  | user => exact h7 (CurrentUserVariableToSessionUserFunctionCall.quiet_user _)
  | collate => exact h8 (StripCollate.quiet_collate hdoubled)
  | operator => exact h9 (RewritePgCatalogOperator.quiet_operator _)

/-- One pass of the visitors leaves them nothing to do. -/
theorem settled_visits {s : Statement} (h : Shaped (Shape.hides · = false) s) :
    Settled (visits s) where
  quiet := quiet_visits h
  shaped := by
    rw [visits_eq]
    exact fixed_version (fixed_subquery (fixed_regCast (fixed_operator (fixed_collate
      (unhidden_currentUser (unhidden_fixArrayLiteral (hides_callable (hides_table
        (hides_comparison h)))))))))
  subqueries := by
    rw [visits_eq]
    exact FixVersionColumnName.fixesAt_treatItem (RemoveSubqueryFromProjection.fixesAt_visit _)
  versions := by
    rw [visits_eq]
    exact FixVersionColumnName.fixesAt_visit _

end Stages

section Outlines

/-- What the visitors make of a shape. -/
def Shape.visited (t : Shape) : Shape :=
  bottomUp RewriteRegCastToSubquery.onShape (bottomUp StripCollate.onShape
    (bottomUp CurrentUserVariableToSessionUserFunctionCall.onShape
      (bottomUp FixArrayLiteral.onShape t)))

def Item.nameVersion : Item → Item
  | .unnamed .versionCall => .named "version"
  | item => item

def Outline.visited (o : Outline) : Outline :=
  ⟨o.items.map fun item => (item.map Shape.visited).nameVersion, o.tables,
    o.exprs.map Shape.visited⟩

private theorem Outline.map_id (o : Outline) : o.map (fun t => t) = o := by
  have hitem : ∀ item : Item, item.map (fun t => t) = item := by
    intro item
    cases item <;> rfl
  obtain ⟨items, tables, exprs⟩ := o
  rw [Outline.map, List.map_id', List.map_congr_left fun item _ => hitem item, List.map_id']

private theorem outline_visit_same {v : Visitor Node} (hstatement : ∀ s, v.pre .statement s = s)
    (hquery : ∀ q, v.pre .query q = q) (hbody : ∀ body, v.pre .setExpr body = body)
    (halias : ∀ t, ResolveUnqualifiedIdentifier.tableAlias? (v.pre .tableFactor t) =
      ResolveUnqualifiedIdentifier.tableAlias? t)
    (hshape : ∀ e, shape .expr (v.visit .expr e) = shape .expr e) (s : Statement) :
    outline? (v.visit .statement s) = outline? s := by
  have hmap : outline? (v.visit .statement s) = (outline? s).map (Outline.map fun t => t) :=
    outline_visit_of_keep (P := fun _ => True) hstatement hquery hbody halias
      (fun e _ => hshape e) fun _ _ => trivial
  rw [hmap]
  cases outline? s with
  | none => rfl
  | some o => exact congrArg some o.map_id

theorem RewriteArrayAnyAllOperation.outline_rewrite (s : Statement) :
    outline? (RewriteArrayAnyAllOperation.rewrite s) = outline? s :=
  outline_visit_same (fun _ => rfl) (fun _ => rfl) (fun _ => rfl) (fun _ => rfl)
    (fun _ => RewriteArrayAnyAllOperation.shape_visitor _) s

theorem PrependUnqualifiedPgTableName.outline_rewrite (s : Statement) :
    outline? (PrependUnqualifiedPgTableName.rewrite s) = outline? s := by
  refine outline_visit_same (fun _ => rfl) (fun _ => rfl) (fun _ => rfl) (fun t => ?_)
    (fun _ => PrependUnqualifiedPgTableName.shape_visitor _) s
  change ResolveUnqualifiedIdentifier.tableAlias?
    (PrependUnqualifiedPgTableName.preVisitTableFactor t) = _
  rcases PrependUnqualifiedPgTableName.preVisitTableFactor_cases t with
    ⟨ident, aliasName, rest, rfl, -, ht⟩ | ht
  · rw [ht]
    cases aliasName <;> rfl
  · rw [ht]

theorem StripCallableQualifier.outline_rewrite (s : Statement) :
    outline? (StripCallableQualifier.rewrite s) = outline? s := by
  refine outline_visit_same (fun _ => rfl) (fun _ => rfl) (fun _ => rfl) (fun t => ?_)
    (fun _ => StripCallableQualifier.shape_visitor _) s
  change ResolveUnqualifiedIdentifier.tableAlias? (StripCallableQualifier.preVisitTableFactor t) = _
  unfold StripCallableQualifier.preVisitTableFactor
  split
  · rename_i name aliasName args rest
    cases aliasName <;> rfl
  · rfl

theorem FixArrayLiteral.outline_rewrite (s : Statement) : outline? (FixArrayLiteral.rewrite s) =
    (outline? s).map (Outline.map (Shape.bottomUp FixArrayLiteral.onShape)) :=
  outline_visit_of_keep (P := fun _ => True) (fun _ => rfl) (fun _ => rfl) (fun _ => rfl)
    (fun _ => rfl) (fun _ _ => FixArrayLiteral.shape_visitor _) fun _ _ => trivial

theorem CurrentUserVariableToSessionUserFunctionCall.outline_rewrite (s : Statement) :
    outline? (CurrentUserVariableToSessionUserFunctionCall.rewrite s) = (outline? s).map
      (Outline.map (Shape.bottomUp CurrentUserVariableToSessionUserFunctionCall.onShape)) :=
  outline_visit_of_keep (P := fun _ => True) (fun _ => rfl) (fun _ => rfl) (fun _ => rfl)
    (fun _ => rfl) (fun _ _ => CurrentUserVariableToSessionUserFunctionCall.shape_visitor _)
    fun _ _ => trivial

theorem StripCollate.outline_rewrite {s : Statement}
    (h : Shaped (StripCollate.isDoubled · = false) s) : outline? (StripCollate.rewrite s) =
      (outline? s).map (Outline.map (Shape.bottomUp StripCollate.onShape)) :=
  outline_visit_of_keep (P := fun e => Shaped (StripCollate.isDoubled · = false) e)
    (fun _ => rfl) (fun _ => rfl) (fun _ => rfl) (fun _ => rfl)
    (fun _ h => StripCollate.shape_visitor h) fun _ he m hm => h m (nodes_trans he hm)

theorem RewritePgCatalogOperator.outline_rewrite (s : Statement) :
    outline? (RewritePgCatalogOperator.rewrite s) = outline? s :=
  outline_visit_same (fun _ => rfl) (fun _ => rfl) (fun _ => rfl) (fun _ => rfl)
    (fun _ => RewritePgCatalogOperator.shape_visitor _) s

theorem RewriteRegCastToSubquery.outline_rewrite (s : Statement) :
    outline? (RewriteRegCastToSubquery.rewrite s) =
      (outline? s).map (Outline.map (Shape.bottomUp RewriteRegCastToSubquery.onShape)) :=
  outline_visit_of_keep (P := fun _ => True) (fun _ => rfl) (fun _ => rfl) (fun _ => rfl)
    (fun _ => rfl) (fun _ _ => RewriteRegCastToSubquery.shape_visitor _) fun _ _ => trivial

private theorem shape_treatExpr (e : Expr) :
    shape .expr (RemoveSubqueryFromProjection.treatExpr e) = shape .expr e := by
  rcases RemoveSubqueryFromProjection.treatExpr_cases e with
    ⟨q, rfl, -, he⟩ | ⟨q, rfl, -, -, he⟩ | he
  · rw [he, shape_value, shape_mk]
    rfl
  · rw [he, shape_mk, shape_mk]
    rfl
  · rw [he]

theorem RemoveSubqueryFromProjection.outline_rewrite (s : Statement) :
    outline? (RemoveSubqueryFromProjection.rewrite s) = outline? s := by
  have hmap : outline? (RemoveSubqueryFromProjection.rewrite s) = (outline? s).map
      fun o => ⟨o.items.map fun item => item, o.tables, o.exprs.map fun t => t⟩ := by
    refine outline_visit (f := RemoveSubqueryFromProjection.treatItem) (P := fun _ => True)
      (fun _ => rfl) (fun _ => rfl) (fun _ => rfl) (tableAlias_visit fun _ => rfl)
      (fun item _ => ?_) (fun _ _ => shape_projectionVisitor _) fun _ _ => trivial
    cases item with
    | unnamedExpr e =>
      exact congrArg Item.unnamed ((shape_projectionVisitor _).trans (shape_treatExpr e))
    | qualifiedWildcard kind rest => cases kind <;> rfl
    | _ => rfl
  rw [hmap]
  simp only [List.map_id']
  exact Option.map_id'

private theorem isVersionCall_eq {call : Function Node} (h : call.name.length ≤ 1) :
    FixVersionColumnName.isVersionCall call = callsVersion call := by
  obtain ⟨name, args, rest⟩ := call
  match name, args with
  | [], .list [] _ => rfl
  | [], .list (_ :: _) _ => rfl
  | [], .none => rfl
  | [], .subquery _ => rfl
  | [_], .list [] _ => rfl
  | [_], .list (_ :: _) _ => rfl
  | [_], .none => rfl
  | [_], .subquery _ => rfl
  | _ :: _ :: _, _ => exact absurd h (by simp)

private theorem nameVersion_of {e : Expr} (hquiet : quiet .callable ⟨.expr, e⟩)
    (h : FixVersionColumnName.nameItem (.unnamedExpr e) = .unnamedExpr e) :
    Item.nameVersion (.unnamed (shape .expr e)) = .unnamed (shape .expr e) := by
  cases hshape : shape .expr e with
  | versionCall =>
    obtain ⟨call, rfl, hcall⟩ := shape_eq_versionCall hshape
    rw [← isVersionCall_eq (of_decide_eq_true hquiet)] at hcall
    rw [FixVersionColumnName.nameItem, if_pos hcall] at h
    cases h
  | _ => rfl

theorem FixVersionColumnName.outline_rewrite {s : Statement} (h : Quiet .callable s) :
    outline? (FixVersionColumnName.rewrite s) =
      (outline? s).map fun o => ⟨o.items.map Item.nameVersion, o.tables, o.exprs⟩ := by
  have hmap : outline? (FixVersionColumnName.rewrite s) = (outline? s).map
      fun o => ⟨o.items.map Item.nameVersion, o.tables, o.exprs.map fun t => t⟩ := by
    refine outline_visit (f := FixVersionColumnName.nameItem)
      (P := fun e => quiet .callable ⟨.expr, e⟩)
      (fun _ => rfl) (fun _ => rfl) (fun _ => rfl) (tableAlias_visit fun _ => rfl)
      (fun item hitem => ?_) (fun _ _ => shape_projectionVisitor _) fun e he => h _ he
    rcases FixVersionColumnName.nameItem_cases item with ⟨call, rfl, hversion, hname⟩ | hname
    · have hquiet := hitem _ (List.mem_singleton_self _)
      have hcall := (isVersionCall_eq (of_decide_eq_true hquiet)).symm.trans hversion
      rw [hname, Item.of, shape_function, if_pos hcall]
      rfl
    · rw [hname]
      cases item with
      | unnamedExpr e =>
        rw [Item.of, nameVersion_of (hitem e (List.mem_singleton_self _)) hname]
        exact congrArg Item.unnamed (shape_projectionVisitor e)
      | qualifiedWildcard kind rest => cases kind <;> rfl
      | _ => rfl
  rw [hmap]
  simp only [List.map_id']

/-- What the visitors make of the outline. -/
theorem outline_visits {s : Statement} (h : Shaped (Shape.hides · = false) s) :
    outline? (visits s) = (outline? s).map Outline.visited := by
  have hdoubled : Shaped (StripCollate.isDoubled · = false)
      (CurrentUserVariableToSessionUserFunctionCall.rewrite (FixArrayLiteral.rewrite
        (StripCallableQualifier.rewrite (PrependUnqualifiedPgTableName.rewrite
          (RewriteArrayAnyAllOperation.rewrite s))))) :=
    (unhidden_currentUser (unhidden_fixArrayLiteral (hides_callable (hides_table
      (hides_comparison h))))).imp fun _ => And.left
  have hcallable : Quiet .callable (RemoveSubqueryFromProjection.rewrite
      (RewriteRegCastToSubquery.rewrite (RewritePgCatalogOperator.rewrite (StripCollate.rewrite
        (CurrentUserVariableToSessionUserFunctionCall.rewrite (FixArrayLiteral.rewrite
          (StripCallableQualifier.rewrite (PrependUnqualifiedPgTableName.rewrite
            (RewriteArrayAnyAllOperation.rewrite s))))))))) :=
    RemoveSubqueryFromProjection.quiet_of_quiet
    (RewriteRegCastToSubquery.quiet_of_quiet (RewritePgCatalogOperator.quiet_of_quiet
      (StripCollate.quiet_of_quiet (CurrentUserVariableToSessionUserFunctionCall.quiet_of_quiet
        (FixArrayLiteral.quiet_of_quiet (StripCallableQualifier.quiet_callable
          (PrependUnqualifiedPgTableName.rewrite (RewriteArrayAnyAllOperation.rewrite s))))))))
  rw [visits_eq, FixVersionColumnName.outline_rewrite hcallable,
    RemoveSubqueryFromProjection.outline_rewrite, RewriteRegCastToSubquery.outline_rewrite,
    RewritePgCatalogOperator.outline_rewrite, StripCollate.outline_rewrite hdoubled,
    CurrentUserVariableToSessionUserFunctionCall.outline_rewrite, FixArrayLiteral.outline_rewrite,
    StripCallableQualifier.outline_rewrite, PrependUnqualifiedPgTableName.outline_rewrite,
    RewriteArrayAnyAllOperation.outline_rewrite]
  cases outline? s with
  | none => rfl
  | some o =>
    simp only [Option.map_some, Outline.map, Outline.visited, List.map_map]
    refine congrArg some (congrArg₂ (Outline.mk · o.tables ·) ?_ ?_)
    · refine List.map_congr_left fun item _ => ?_
      cases item <;> rfl
    · exact List.map_congr_left fun t _ => rfl

end Outlines

section Names

namespace Shape

/-- The names that are reached through binary operators and collations. -/
def reach : Shape → List Ident
  | .identifier ident => [ident]
  | .binaryOp left right => left.reach ++ right.reach
  | .collate s => s.reach
  | _ => []

/-- The names that are reached through binary operators and at least one collation. -/
def hidden : Shape → List Ident
  | .binaryOp left right => left.hidden ++ right.hidden
  | .collate s => s.reach
  | _ => []

def uncollated : Shape → Shape
  | .collate s => s.uncollated
  | s => s

private theorem fixArrayLiteral_cast (kind : CastKind) (s : Shape) (dataType : DataType) :
    ∃ t, FixArrayLiteral.onShape (.cast kind s dataType) = .cast kind t dataType := by
  rcases FixArrayLiteral.onShape_cases (.cast kind s dataType) with ⟨text, elem, h⟩ | h
  · cases h
    exact ⟨.other, rfl⟩
  · exact ⟨s, h⟩

private theorem regCast_cast (kind : CastKind) (s : Shape) (dataType : DataType) :
    RewriteRegCastToSubquery.onShape (.cast kind s dataType) = .other ∨
      RewriteRegCastToSubquery.onShape (.cast kind s dataType) = .cast kind s dataType := by
  rcases RewriteRegCastToSubquery.onShape_cases (.cast kind s dataType) with
    ⟨kind', operand, dataType', r, heq, hr⟩ | h
  · refine .inl ?_
    rw [heq, RewriteRegCastToSubquery.onShape, if_pos (Option.isSome_iff_exists.mpr ⟨r, hr⟩)]
  · exact .inr h

theorem reach_fixArrayLiteral (s : Shape) :
    (bottomUp FixArrayLiteral.onShape s).reach = s.reach := by
  induction s with
  | cast kind e dataType ih =>
    change reach (FixArrayLiteral.onShape (.cast kind _ dataType)) = []
    obtain ⟨e', h⟩ := fixArrayLiteral_cast kind (bottomUp FixArrayLiteral.onShape e) dataType
    rw [h]
    rfl
  | binaryOp left right ihleft ihright => exact congrArg₂ (· ++ ·) ihleft ihright
  | collate s ih => exact ih
  | _ => rfl

theorem reach_currentUser (s : Shape) :
    (bottomUp CurrentUserVariableToSessionUserFunctionCall.onShape s).reach =
      s.reach.filter (!isBareFunction ·) := by
  induction s with
  | identifier ident =>
    change reach (if isBareFunction ident then .other else .identifier ident) =
      [ident].filter (!isBareFunction ·)
    cases h : isBareFunction ident with
    | true => simp [reach, h]
    | false => simp [reach, h]
  | binaryOp left right ihleft ihright =>
    exact (congrArg₂ (· ++ ·) ihleft ihright).trans (List.filter_append _ _).symm
  | collate s ih => exact ih
  | _ => rfl

theorem spine_stripCollate (s : Shape) :
    (bottomUp StripCollate.onShape s).spine = s.reach := by
  induction s with
  | binaryOp left right ihleft ihright => exact congrArg₂ (· ++ ·) ihleft ihright
  | collate s ih => exact ih
  | _ => rfl

theorem spine_regCast (s : Shape) :
    (bottomUp RewriteRegCastToSubquery.onShape s).spine = s.spine := by
  induction s with
  | cast kind e dataType ih =>
    change spine (RewriteRegCastToSubquery.onShape (.cast kind _ dataType)) = []
    rcases regCast_cast kind (bottomUp RewriteRegCastToSubquery.onShape e) dataType with h | h
    · rw [h]
      rfl
    · rw [h]
      rfl
  | binaryOp left right ihleft ihright => exact congrArg₂ (· ++ ·) ihleft ihright
  | collate s ih => rfl
  | _ => rfl

theorem spine_visited (s : Shape) :
    s.visited.spine = s.reach.filter (!isBareFunction ·) := by
  rw [visited, spine_regCast, spine_stripCollate, reach_currentUser, reach_fixArrayLiteral]

/-- What is left of the names: those that were in scope, and those that a collation hid. -/
theorem mem_reach_resolve {table : String} {tables aliases : List String} {s : Shape}
    {ident : Ident} (h : ident ∈ (s.resolve table tables aliases).reach) :
    ident.value ∈ tables ∨ ident.value ∈ aliases ∨ ident ∈ s.hidden := by
  induction s with
  | identifier name =>
    rw [resolve] at h
    split at h
    · exact absurd h List.not_mem_nil
    · rename_i hcovered
      rw [List.mem_singleton.mp h]
      by_cases htable : name.value ∈ tables
      · exact .inl htable
      · refine .inr (.inl ?_)
        by_contra halias
        exact hcovered ⟨htable, halias⟩
  | binaryOp left right ihleft ihright =>
    rcases List.mem_append.mp h with h | h
    · rcases ihleft h with h | h | h
      · exact .inl h
      · exact .inr (.inl h)
      · exact .inr (.inr (List.mem_append_left _ h))
    · rcases ihright h with h | h | h
      · exact .inl h
      · exact .inr (.inl h)
      · exact .inr (.inr (List.mem_append_right _ h))
  | collate s _ => exact .inr (.inr h)
  | _ => exact absurd h List.not_mem_nil

theorem uncollated_fixArrayLiteral (wildcardTables : List String) (s : Shape) :
    (bottomUp FixArrayLiteral.onShape s).uncollated.aliasPartial wildcardTables =
      s.uncollated.aliasPartial wildcardTables := by
  induction s with
  | cast kind e dataType _ =>
    change (uncollated (FixArrayLiteral.onShape (.cast kind _ dataType))).aliasPartial _ = none
    obtain ⟨e', h⟩ := fixArrayLiteral_cast kind (bottomUp FixArrayLiteral.onShape e) dataType
    rw [h]
    rfl
  | collate s ih => exact ih
  | _ => rfl

theorem bare_fixArrayLiteral {s : Shape} {ident : Ident}
    (h : s.uncollated = .identifier ident) :
    (bottomUp FixArrayLiteral.onShape s).uncollated = .identifier ident := by
  induction s with
  | collate s ih => exact ih h
  | identifier name => exact h
  | _ => cases h

theorem uncollated_currentUser {wildcardTables : List String} {s : Shape} {name : Ident}
    (h : (bottomUp CurrentUserVariableToSessionUserFunctionCall.onShape s).uncollated.aliasPartial
      wildcardTables = some name) :
    s.uncollated.aliasPartial wildcardTables = some name ∧
      ∀ ident, s.uncollated = .identifier ident → isBareFunction ident = false := by
  induction s with
  | identifier ident =>
    change (uncollated (if isBareFunction ident then .other else .identifier ident)).aliasPartial _
      = some name at h
    split at h
    · cases h
    · rename_i hbare
      refine ⟨h, fun ident' hident => ?_⟩
      cases hident
      exact eq_false_of_ne_true hbare
  | compoundIdentifier idents => exact ⟨h, nofun⟩
  | collate s ih => exact ih h
  | _ => cases h

theorem aliasPartial_stripCollate (wildcardTables : List String) (s : Shape) :
    (bottomUp StripCollate.onShape s).aliasPartial wildcardTables =
      s.uncollated.aliasPartial wildcardTables := by
  induction s with
  | collate s ih => exact ih
  | _ => rfl

theorem aliasPartial_regCast (wildcardTables : List String) (s : Shape) :
    (bottomUp RewriteRegCastToSubquery.onShape s).aliasPartial wildcardTables =
      s.aliasPartial wildcardTables := by
  cases s with
  | cast kind e dataType =>
    change (RewriteRegCastToSubquery.onShape (.cast kind _ dataType)).aliasPartial _ = none
    rcases regCast_cast kind (bottomUp RewriteRegCastToSubquery.onShape e) dataType with h | h
    · rw [h]
      rfl
    · rw [h]
      rfl
  | _ => rfl

/-- An item that gets an alias only now was one under collations before. -/
theorem aliasPartial_visited {wildcardTables : List String} {s : Shape} {name : Ident}
    (h : s.visited.aliasPartial wildcardTables = some name) :
    s.uncollated.aliasPartial wildcardTables = some name ∧
      ∀ ident, s.uncollated = .identifier ident → isBareFunction ident = false := by
  rw [visited, aliasPartial_regCast, aliasPartial_stripCollate] at h
  obtain ⟨halias, hbare⟩ := uncollated_currentUser h
  rw [uncollated_fixArrayLiteral] at halias
  exact ⟨halias, fun ident hident => hbare ident (bare_fixArrayLiteral hident)⟩

theorem visited_versionCall {s : Shape} (h : s.uncollated = .versionCall) :
    s.visited = .versionCall := by
  induction s with
  | collate s ih => exact ih h
  | versionCall => rfl
  | _ => cases h

theorem uncollated_of_visited {s : Shape} (h : s.visited = .versionCall) :
    s.uncollated = .versionCall := by
  have hcast : ∀ t, bottomUp RewriteRegCastToSubquery.onShape t = .versionCall →
      t = .versionCall := by
    intro t ht
    cases t with
    | cast kind e dataType =>
      rcases regCast_cast kind (bottomUp RewriteRegCastToSubquery.onShape e) dataType with h | h
      · cases h.symm.trans ht
      · cases h.symm.trans ht
    | versionCall => rfl
    | _ => cases ht
  have hcollate : ∀ t, bottomUp StripCollate.onShape t = .versionCall →
      t.uncollated = .versionCall := by
    intro t ht
    induction t with
    | collate t ih => exact ih ht
    | versionCall => rfl
    | _ => cases ht
  have huser : ∀ t, (bottomUp CurrentUserVariableToSessionUserFunctionCall.onShape t).uncollated =
      .versionCall → t.uncollated = .versionCall := by
    intro t ht
    induction t with
    | collate t ih => exact ih ht
    | versionCall => rfl
    | identifier ident =>
      change uncollated (if isBareFunction ident then .other else .identifier ident) = _ at ht
      split at ht <;> cases ht
    | _ => cases ht
  have harray : ∀ t, (bottomUp FixArrayLiteral.onShape t).uncollated = .versionCall →
      t.uncollated = .versionCall := by
    intro t ht
    induction t with
    | collate t ih => exact ih ht
    | versionCall => rfl
    | cast kind e dataType _ =>
      obtain ⟨e', h⟩ := fixArrayLiteral_cast kind (bottomUp FixArrayLiteral.onShape e) dataType
      change uncollated (FixArrayLiteral.onShape (.cast kind _ dataType)) = _ at ht
      rw [h] at ht
      cases ht
    | _ => cases ht
  exact harray s (huser _ (hcollate _ (hcast _ h)))

theorem visited_identifier {ident : Ident} (h : isBareFunction ident = false) :
    (Shape.identifier ident).visited = .identifier ident := by
  have huser : CurrentUserVariableToSessionUserFunctionCall.onShape (.identifier ident) =
      .identifier ident := if_neg (Bool.eq_false_iff.mp h)
  have hbottomUp : bottomUp CurrentUserVariableToSessionUserFunctionCall.onShape
      (bottomUp FixArrayLiteral.onShape (.identifier ident)) = .identifier ident := huser
  rw [visited, hbottomUp]
  rfl

private theorem stripCollate_ne_collate (s t : Shape) :
    bottomUp StripCollate.onShape s ≠ .collate t := by
  induction s with
  | collate s ih => exact ih
  | _ => nofun

theorem visited_ne_collate (s t : Shape) : s.visited ≠ .collate t := by
  intro h
  obtain ⟨s', hs', -⟩ := faithful_regCast.eq_collate h
  exact stripCollate_ne_collate _ _ hs'

theorem uncollated_visited (s : Shape) : s.visited.uncollated = s.visited := by
  cases h : s.visited with
  | collate t => exact absurd h (visited_ne_collate s t)
  | _ => rfl

theorem reach_regCast (s : Shape) :
    (bottomUp RewriteRegCastToSubquery.onShape s).reach = s.reach := by
  induction s with
  | cast kind e dataType ih =>
    change reach (RewriteRegCastToSubquery.onShape (.cast kind _ dataType)) = []
    rcases regCast_cast kind (bottomUp RewriteRegCastToSubquery.onShape e) dataType with h | h
    · rw [h]
      rfl
    · rw [h]
      rfl
  | binaryOp left right ihleft ihright => exact congrArg₂ (· ++ ·) ihleft ihright
  | collate s ih => exact ih
  | _ => rfl

private theorem hidden_stripCollate (s : Shape) :
    (bottomUp StripCollate.onShape s).hidden = [] := by
  induction s with
  | binaryOp left right ihleft ihright =>
    exact List.append_eq_nil_iff.mpr ⟨ihleft, ihright⟩
  | collate s ih => exact ih
  | _ => rfl

theorem hidden_visited (s : Shape) : s.visited.hidden = [] := by
  have hhidden : ∀ t : Shape, (bottomUp RewriteRegCastToSubquery.onShape t).hidden = t.hidden := by
    intro t
    induction t with
    | cast kind e dataType _ =>
      change hidden (RewriteRegCastToSubquery.onShape (.cast kind _ dataType)) = []
      rcases regCast_cast kind (bottomUp RewriteRegCastToSubquery.onShape e) dataType with h | h
      · rw [h]
        rfl
      · rw [h]
        rfl
    | binaryOp left right ihleft ihright => exact congrArg₂ (· ++ ·) ihleft ihright
    | collate t _ => exact reach_regCast t
    | _ => rfl
  rw [visited, hhidden, hidden_stripCollate]

theorem mem_reach_of_hidden {table : String} {tables aliases : List String} {s : Shape}
    {ident : Ident} (h : ident ∈ s.hidden) : ident ∈ (s.resolve table tables aliases).reach := by
  induction s with
  | binaryOp left right ihleft ihright =>
    rcases List.mem_append.mp h with h | h
    · exact List.mem_append_left _ (ihleft h)
    · exact List.mem_append_right _ (ihright h)
  | collate s _ => exact h
  | _ => exact absurd h List.not_mem_nil

end Shape
end Names
end DatafusionPostgres.Sql
