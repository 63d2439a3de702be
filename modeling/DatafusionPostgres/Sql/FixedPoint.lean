import DatafusionPostgres.Sql.Visits

/-! A second rewriting finds nothing to do, unless a collation hid something from the first. -/
namespace DatafusionPostgres.Sql
open DatafusionPostgres.Library

namespace Outline

/-- No item that is to get an alias stands under a collation. -/
def ItemsBare (o : Outline) : Prop :=
  o.hasWildcard → ∀ s name, .unnamed (.collate s) ∈ o.items →
    s.aliasPartial o.wildcardTables = some name → ∃ ident, s = .identifier ident ∧
      isBareFunction ident

/-- A call of `version` without a name. -/
def callsVersion (o : Outline) : Prop :=
  ∃ s, .unnamed s ∈ o.items ∧ s.uncollated = .versionCall

/-- Every name that a collation hides from the rule for unqualified names is one that it leaves
alone. -/
def NamesCovered (o : Outline) : Prop :=
  ∀ table, o.wildcardTables = [table] → o.tables ≠ [] → ∀ s ∈ o.exprs, ∀ ident ∈ s.hidden,
    isBareFunction ident ∨ ident.value ∈ o.tables ∨ ident.value ∈ o.aliased.aliases ∨
      ident.value = "version" ∧ o.callsVersion

/-- What the whole list of rules makes of an outline. -/
def rewritten (o : Outline) : Outline := o.aliased.resolved.visited

section Items
variable (o : Outline)

private theorem aliased_wildcards (wildcardTables : List String) (item : Item) :
    (item.aliased wildcardTables).table? = item.table? ∧
      (item.aliased wildcardTables).isWildcard = item.isWildcard := by
  cases item with
  | unnamed s =>
    rw [Item.aliased]
    split <;> exact ⟨rfl, rfl⟩
  | _ => exact ⟨rfl, rfl⟩

private theorem nameVersion_wildcards (f : Shape → Shape) (item : Item) :
    (item.map f).nameVersion.table? = item.table? ∧
      (item.map f).nameVersion.isWildcard = item.isWildcard := by
  cases item with
  | unnamed s =>
    change (Item.nameVersion (.unnamed (f s))).table? = none ∧
      (Item.nameVersion (.unnamed (f s))).isWildcard = false
    cases f s <;> exact ⟨rfl, rfl⟩
  | _ => exact ⟨rfl, rfl⟩

theorem resolved_items : o.resolved.items = o.items := by
  rw [resolved]
  split
  · split <;> rfl
  · rfl

theorem resolved_tables : o.resolved.tables = o.tables := by
  rw [resolved]
  split
  · split <;> rfl
  · rfl

theorem aliased_tables : o.aliased.tables = o.tables := by
  rw [aliased]
  split <;> rfl

theorem aliased_exprs : o.aliased.exprs = o.exprs := by
  rw [aliased]
  split <;> rfl

variable {o}

theorem wildcardTables_aliased : o.aliased.wildcardTables = o.wildcardTables := by
  rw [aliased]
  split
  · rw [wildcardTables, List.filterMap_map]
    exact List.filterMap_congr fun item _ => (aliased_wildcards _ item).1
  · rfl

theorem wildcardTables_rewritten : o.rewritten.wildcardTables = o.wildcardTables := by
  have hvisited : o.rewritten.wildcardTables = o.aliased.wildcardTables := by
    rw [rewritten, visited, wildcardTables, List.filterMap_map, resolved_items]
    exact List.filterMap_congr fun item _ => (nameVersion_wildcards _ item).1
  rw [hvisited, wildcardTables_aliased]

theorem hasWildcard_of_rewritten (h : o.rewritten.hasWildcard) : o.hasWildcard := by
  rw [hasWildcard, wildcardTables_rewritten, Bool.or_eq_true] at h
  rw [hasWildcard, Bool.or_eq_true]
  refine h.imp_right fun h => ?_
  obtain ⟨item', hitem', hwildcard⟩ := List.any_eq_true.mp h
  obtain ⟨item, hitem, rfl⟩ := List.mem_map.mp hitem'
  rw [resolved_items, aliased] at hitem
  rw [(nameVersion_wildcards _ _).2] at hwildcard
  split at hitem
  · obtain ⟨old, hold, rfl⟩ := List.mem_map.mp hitem
    rw [(aliased_wildcards _ _).2] at hwildcard
    exact List.any_eq_true.mpr ⟨old, hold, hwildcard⟩
  · exact List.any_eq_true.mpr ⟨item, hitem, hwildcard⟩

theorem mem_aliased (hw : o.hasWildcard) {item : Item} :
    item ∈ o.aliased.items ↔ ∃ item' ∈ o.items, item'.aliased o.wildcardTables = item := by
  rw [aliased, if_pos hw]
  exact List.mem_map

theorem unnamed_aliased {wildcardTables : List String} {item : Item} {s : Shape}
    (h : item.aliased wildcardTables = .unnamed s) :
    item = .unnamed s ∧ s.aliasPartial wildcardTables = none := by
  cases item with
  | unnamed t =>
    rw [Item.aliased] at h
    split at h
    · cases h
    · rename_i hnone
      cases h
      exact ⟨rfl, hnone⟩
  | _ => cases h

theorem unnamed_of_rewritten (hw : o.hasWildcard) {t : Shape}
    (h : .unnamed t ∈ o.rewritten.items) : ∃ s, .unnamed s ∈ o.items ∧
      s.aliasPartial o.wildcardTables = none ∧ t = s.visited := by
  obtain ⟨item, hitem, heq⟩ := List.mem_map.mp h
  rw [resolved_items, mem_aliased hw] at hitem
  obtain ⟨item', hitem', rfl⟩ := hitem
  cases hcase : item'.aliased o.wildcardTables with
  | unnamed s =>
    obtain ⟨rfl, hnone⟩ := unnamed_aliased hcase
    refine ⟨s, hitem', hnone, ?_⟩
    rw [hcase] at heq
    change Item.nameVersion (.unnamed s.visited) = _ at heq
    unfold Item.nameVersion at heq
    split at heq
    · cases heq
    · cases heq
      rfl
  | _ =>
    rw [hcase] at heq
    cases heq

/-- A second look finds no item that needs an alias. -/
theorem items_settled (hitems : o.ItemsBare)
    (hdoubled : ∀ s, .unnamed s ∈ o.items → StripCollate.isDoubled s = false)
    (hw : o.rewritten.hasWildcard) (t : Shape) (ht : .unnamed t ∈ o.rewritten.items) :
    t.aliasPartial o.rewritten.wildcardTables = none := by
  have hw := hasWildcard_of_rewritten hw
  obtain ⟨s, hs, hnone, rfl⟩ := unnamed_of_rewritten hw ht
  rw [wildcardTables_rewritten]
  refine Option.eq_none_iff_forall_not_mem.mpr fun name hname => ?_
  obtain ⟨halias, hbare⟩ := Shape.aliasPartial_visited (Option.mem_def.mp hname)
  cases s with
  | collate s =>
    have huncollated : s.uncollated = s := by
      have hlone := hdoubled _ hs
      cases s with
      | collate s => cases hlone
      | _ => rfl
    rw [Shape.uncollated, huncollated] at halias hbare
    obtain ⟨ident, rfl, hident⟩ := hitems hw s name hs halias
    rw [hbare ident rfl] at hident
    cases hident
  | _ => cases hnone.symm.trans halias

end Items

section Names
variable {o : Outline}

theorem aliases_aliased_subset (hw : o.hasWildcard) {aliasName : String}
    (h : aliasName ∈ o.aliased.aliases) : aliasName ∈ o.rewritten.aliases := by
  obtain ⟨item, hitem, hname⟩ := List.mem_filterMap.mp h
  cases item with
  | named name =>
    refine List.mem_filterMap.mpr ⟨.named name, List.mem_map.mpr ⟨.named name, ?_, rfl⟩, hname⟩
    rwa [resolved_items]
  | unnamed s =>
    obtain ⟨item', -, hcase⟩ := (mem_aliased hw).mp hitem
    obtain ⟨-, hnone⟩ := unnamed_aliased hcase
    unfold Item.aliasName? at hname
    split at hname
    · rename_i heq
      cases heq
    · rename_i heq
      cases heq
      cases hnone
    · cases hname
  | _ => cases hname

theorem version_mem_aliases (hw : o.hasWildcard) (h : o.callsVersion) :
    "version" ∈ o.rewritten.aliases := by
  obtain ⟨s, hs, hversion⟩ := h
  have hnone : s.aliasPartial o.wildcardTables = none := by
    cases s with
    | identifier ident => cases hversion
    | compoundIdentifier idents => cases hversion
    | _ => rfl
  refine List.mem_filterMap.mpr ⟨.named "version", List.mem_map.mpr ⟨.unnamed s, ?_, ?_⟩, rfl⟩
  · rw [resolved_items]
    refine (mem_aliased hw).mpr ⟨.unnamed s, hs, ?_⟩
    rw [Item.aliased, hnone]
  · change Item.nameVersion (.unnamed s.visited) = _
    rw [Shape.visited_versionCall hversion]
    rfl

theorem tables_rewritten : o.rewritten.tables = o.tables :=
  (resolved_tables _).trans (aliased_tables _)

theorem exprs_rewritten {table : String} (htable : o.wildcardTables = [table])
    (htables : o.tables ≠ []) : o.rewritten.exprs =
      o.exprs.map fun s => (s.resolve table o.tables o.aliased.aliases).visited := by
  have hempty : ¬ o.aliased.tables.isEmpty := by
    rw [aliased_tables]
    exact fun h => htables (List.isEmpty_iff.mp h)
  have hresolved : o.aliased.resolved.exprs =
      o.exprs.map (Shape.resolve table o.tables o.aliased.aliases) := by
    rw [resolved, wildcardTables_aliased, htable]
    dsimp only
    rw [if_neg hempty, aliased_exprs, aliased_tables]
  change o.aliased.resolved.exprs.map Shape.visited = _
  rw [hresolved, List.map_map]
  rfl

/-- A second look finds no name that needs a qualifier. -/
theorem names_settled (hnames : o.NamesCovered) {table : String}
    (htable : o.rewritten.wildcardTables = [table]) (htables : o.rewritten.tables ≠ [])
    (t : Shape) (ht : t ∈ o.rewritten.exprs) (ident : Ident) (hident : ident ∈ t.spine) :
    ident.value ∈ o.rewritten.tables ∨ ident.value ∈ o.rewritten.aliases := by
  rw [wildcardTables_rewritten] at htable
  rw [tables_rewritten] at htables ⊢
  have hw : o.hasWildcard := by
    rw [hasWildcard, htable]
    rfl
  rw [exprs_rewritten htable htables] at ht
  obtain ⟨s, hs, rfl⟩ := List.mem_map.mp ht
  rw [Shape.spine_visited] at hident
  obtain ⟨hreach, hbare⟩ := List.mem_filter.mp hident
  rcases Shape.mem_reach_resolve hreach with h | h | h
  · exact .inl h
  · exact .inr (aliases_aliased_subset hw h)
  · rcases hnames table htable htables s hs ident h with hb | hcovered | hcovered | ⟨heq, hversion⟩
    · rw [hb] at hbare
      cases hbare
    · exact .inl hcovered
    · exact .inr (aliases_aliased_subset hw hcovered)
    · rw [heq]
      exact .inr (version_mem_aliases hw hversion)

end Names

section Converse
variable {o : Outline}

theorem hasWildcard_rewritten (h : o.hasWildcard) : o.rewritten.hasWildcard := by
  rw [hasWildcard, Bool.or_eq_true] at h
  rw [hasWildcard, wildcardTables_rewritten, Bool.or_eq_true]
  refine h.imp_right fun hany => ?_
  obtain ⟨item, hitem, hwildcard⟩ := List.any_eq_true.mp hany
  have hw : o.hasWildcard := Bool.or_eq_true_iff.mpr h
  refine List.any_eq_true.mpr ⟨_, List.mem_map.mpr
    ⟨item.aliased o.wildcardTables, ?_, rfl⟩, ?_⟩
  · rw [resolved_items]
    exact (mem_aliased hw).mpr ⟨item, hitem, rfl⟩
  · rw [(nameVersion_wildcards _ _).2, (aliased_wildcards _ _).2, hwildcard]

/-- An item that a collation hid gets its alias only now. -/
theorem itemsBare_of_settled (h : o.rewritten.rewritten = o.rewritten) : o.ItemsBare := by
  intro hw s name hs hname
  by_contra hbare
  have hvisited : (Shape.collate s).visited = s := by
    cases s with
    | identifier ident =>
      have hident : isBareFunction ident = false :=
        eq_false_of_ne_true fun h => hbare ⟨ident, rfl, h⟩
      exact Shape.visited_identifier hident
    | compoundIdentifier idents => rfl
    | _ => cases hname
  have hmem : .unnamed s ∈ o.rewritten.items := by
    refine List.mem_map.mpr ⟨.unnamed (.collate s), ?_, ?_⟩
    · rw [resolved_items]
      exact (mem_aliased hw).mpr ⟨_, hs, rfl⟩
    · change Item.nameVersion (.unnamed (Shape.collate s).visited) = _
      rw [hvisited]
      cases s with
      | versionCall => cases hname
      | _ => rfl
  rw [← h] at hmem
  obtain ⟨u, hu, hnone, rfl⟩ := unnamed_of_rewritten (hasWildcard_rewritten hw) hmem
  obtain ⟨u, -, -, rfl⟩ := unnamed_of_rewritten hw hu
  rw [wildcardTables_rewritten] at hnone
  have halias := (Shape.aliasPartial_visited hname).1
  rw [Shape.uncollated_visited, hnone] at halias
  cases halias

theorem aliased_of_settled
    (h : ∀ t, .unnamed t ∈ o.items → t.aliasPartial o.wildcardTables = none) :
    o.aliased = o := by
  rw [aliased]
  split
  · have hitems : o.items.map (Item.aliased o.wildcardTables) = o.items := by
      refine (List.map_congr_left fun item hitem => ?_).trans (List.map_id' _)
      cases item with
      | unnamed t => rw [Item.aliased, h t hitem]
      | _ => rfl
    rw [hitems]
  · rfl

theorem aliases_of_rewritten (hitems : o.ItemsBare)
    (hdoubled : ∀ s, .unnamed s ∈ o.items → StripCollate.isDoubled s = false)
    (hw : o.hasWildcard) {aliasName : String} (h : aliasName ∈ o.rewritten.aliases) :
    aliasName ∈ o.aliased.aliases ∨ aliasName = "version" ∧ o.callsVersion := by
  obtain ⟨item, hitem, hname⟩ := List.mem_filterMap.mp h
  obtain ⟨old, hold, rfl⟩ := List.mem_map.mp hitem
  rw [resolved_items] at hold
  cases old with
  | named name => exact .inl (List.mem_filterMap.mpr ⟨_, hold, hname⟩)
  | unnamed s =>
    obtain ⟨old', hold', heq⟩ := (mem_aliased hw).mp hold
    obtain ⟨rfl, -⟩ := unnamed_aliased heq
    change (Item.nameVersion (.unnamed s.visited)).aliasName? = some aliasName at hname
    change Item.nameVersion (.unnamed s.visited) ∈ o.rewritten.items at hitem
    cases hvisited : s.visited with
    | versionCall =>
      rw [hvisited] at hname
      cases hname
      exact .inr ⟨rfl, s, hold', Shape.uncollated_of_visited hvisited⟩
    | identifier ident =>
      rw [hvisited] at hitem
      cases items_settled hitems hdoubled (hasWildcard_rewritten hw) _ hitem
    | _ =>
      rw [hvisited] at hname
      cases hname
  | _ => cases hname

/-- A name that a collation hid gets its qualifier only now. -/
theorem namesCovered_of_settled
    (hdoubled : ∀ s, .unnamed s ∈ o.items → StripCollate.isDoubled s = false)
    (h : o.rewritten.rewritten = o.rewritten) : o.NamesCovered := by
  intro table htable htables s hs ident hident
  have hitems := itemsBare_of_settled h
  have hw : o.hasWildcard := by
    rw [hasWildcard, htable]
    rfl
  by_contra hcovered
  rw [not_or, not_or, not_or] at hcovered
  obtain ⟨hbare, htab, halias, hversion⟩ := hcovered
  have hmem : (s.resolve table o.tables o.aliased.aliases).visited ∈ o.rewritten.exprs := by
    rw [exprs_rewritten htable htables]
    exact List.mem_map.mpr ⟨s, hs, rfl⟩
  have hspine : ident ∈ ((s.resolve table o.tables o.aliased.aliases).visited).spine := by
    rw [Shape.spine_visited]
    refine List.mem_filter.mpr ⟨Shape.mem_reach_of_hidden hident, ?_⟩
    rw [eq_false_of_ne_true hbare]
    rfl
  have htable' := (wildcardTables_rewritten (o := o)).trans htable
  have htables' : o.rewritten.tables ≠ [] := by rwa [tables_rewritten]
  rw [← h, exprs_rewritten htable' htables', aliased_of_settled
    (items_settled hitems hdoubled (hasWildcard_rewritten hw)), tables_rewritten] at hmem
  obtain ⟨t, ht, heq⟩ := List.mem_map.mp hmem
  rw [← heq, Shape.spine_visited] at hspine
  rcases Shape.mem_reach_resolve (List.mem_filter.mp hspine).1 with hname | hname | hname
  · exact htab hname
  · rcases aliases_of_rewritten hitems hdoubled hw hname with hname | hname
    · exact halias hname
    · exact hversion hname
  · rw [exprs_rewritten htable htables] at ht
    obtain ⟨u, -, rfl⟩ := List.mem_map.mp ht
    rw [Shape.hidden_visited] at hname
    exact absurd hname List.not_mem_nil

end Converse
end Outline

section FixedPoint

/-- No collation is right under another. -/
def LoneCollations (s : Statement) : Prop :=
  ∀ e inner outer, ⟨.expr, .mk (.collate (.mk (.collate e inner)) outer)⟩ ∉ nodes s

/-- No collation is between a text and its cast to an array. -/
def ArraysInView (s : Statement) : Prop :=
  ∀ text collation elem rest, ⟨.expr, .mk (.cast .doubleColon (.mk (.collate
    (.mk (.value (.singleQuotedString text))) collation)) (.array elem) rest)⟩ ∉ nodes s

theorem shape_expr_of_ne_other {m : Σ k, Node k} (h : shape m.1 m.2 ≠ .other) :
    ∃ e : Expr, m = ⟨.expr, e⟩ := by
  obtain ⟨k, n⟩ := m
  by_cases hk : k = .expr
  · cases hk
    exact ⟨n, rfl⟩
  · exact absurd (shape_of_ne_expr hk n) h

theorem shaped_hides {s : Statement} (hcollations : LoneCollations s) (harrays : ArraysInView s) :
    Shaped (Shape.hides · = false) s := by
  intro m hm
  refine Bool.eq_false_iff.mpr fun hhides => ?_
  obtain ⟨e, rfl⟩ := shape_expr_of_ne_other (m := m) (fun h => by rw [h] at hhides; cases hhides)
  have hlone : ∀ e' t, shape .expr e' = .collate (.collate t) → ⟨.expr, e'⟩ ∉ nodes s := by
    intro e' t hshape hmem
    obtain ⟨e₁, outer, rfl, h₁⟩ := shape_eq_collate hshape
    obtain ⟨e₂, inner, rfl, -⟩ := shape_eq_collate h₁
    exact hcollations e₂ inner outer hmem
  unfold Shape.hides at hhides
  split at hhides
  · rename_i t hshape
    exact hlone e t hshape hm
  · rename_i t elem hshape
    obtain ⟨e₁, rest, rfl, h₁⟩ := shape_eq_cast hshape
    have hpart : ⟨.expr, e₁⟩ ∈ nodes s :=
      nodes_trans hm (mem_nodes_of_mem_children List.mem_cons_self (mem_nodes_self e₁))
    rcases Shape.isText_cases hhides with ⟨text, rfl⟩ | ⟨u, rfl, -⟩
    · obtain ⟨e₂, collation, rfl, h₂⟩ := shape_eq_collate h₁
      cases shape_eq_name h₂
      exact harrays text collation elem rest hm
    · exact hlone e₁ u h₁ hpart
  · cases hhides

theorem Settled.shaped_hides {s : Statement} (h : Settled s) :
    Shaped (Shape.hides · = false) s := by
  refine Sql.shaped_hides (fun e inner outer hmem => ?_) fun text collation elem rest hmem => ?_
  · exact absurd (h.quiet .collate _ hmem) Bool.false_ne_true
  · have hpart := nodes_trans hmem (mem_nodes_of_mem_children List.mem_cons_self (mem_nodes_self
      (Node.mk (.collate (.mk (.value (.singleQuotedString text))) collation))))
    exact absurd (h.quiet .collate _ hpart) Bool.false_ne_true

variable {s : Statement}

theorem shaped_topRules (h : Shaped (Shape.hides · = false) s) :
    Shaped (Shape.hides · = false)
      (ResolveUnqualifiedIdentifier.rewrite (AliasDuplicatedProjectionRewrite.rewrite s)) := by
  have hother : ∀ k (n : Node k), k ≠ .expr → (shape k n).hides = false := by
    intro k n hk
    rw [shape_of_ne_expr hk]
    rfl
  refine ResolveUnqualifiedIdentifier.forall_nodes_rewrite
    (P := fun m => (shape m.1 m.2).hides = false) (fun _ => hother _ _ nofun)
    (fun _ => hother _ _ nofun) (fun _ => hother _ _ nofun) (fun _ => ?_) (fun _ _ _ => ?_)
    (AliasDuplicatedProjectionRewrite.forall_nodes_rewrite
      (P := fun m => (shape m.1 m.2).hides = false) (fun _ => hother _ _ nofun)
      (fun _ => hother _ _ nofun) (fun _ => hother _ _ nofun) h)
  · rw [shape_mk]
    rfl
  · rw [shape_mk]
    rfl

theorem settled_rewrite (h : Shaped (Shape.hides · = false) s) :
    Settled (PostgresCompatibilityParser.rewrite s) := by
  rw [rewrite_eq]
  exact settled_visits (shaped_topRules h)

theorem outline_rewrite (h : Shaped (Shape.hides · = false) s) :
    outline? (PostgresCompatibilityParser.rewrite s) = (outline? s).map Outline.rewritten := by
  rw [rewrite_eq, outline_visits (shaped_topRules h), ResolveUnqualifiedIdentifier.outline_rewrite,
    AliasDuplicatedProjectionRewrite.outline_rewrite, Option.map_map, Option.map_map]
  rfl

theorem rewritten_of_fixed (h : Shaped (Shape.hides · = false) s)
    (hfixed : PostgresCompatibilityParser.rewrite (PostgresCompatibilityParser.rewrite s) =
      PostgresCompatibilityParser.rewrite s) {o : Outline} (ho : outline? s = some o) :
    o.rewritten.rewritten = o.rewritten := by
  have hoption : some o.rewritten.rewritten = some o.rewritten := by
    have houtline := congrArg outline? hfixed
    rw [outline_rewrite (settled_rewrite h).shaped_hides, outline_rewrite h, ho] at houtline
    exact houtline
  exact Option.some.inj hoption

theorem isDoubled_items (h : Shaped (Shape.hides · = false) s) {o : Outline}
    (ho : outline? s = some o) (t : Shape) (ht : .unnamed t ∈ o.items) :
    StripCollate.isDoubled t = false := by
  rcases statement_cases s with ⟨fields, select, rfl, hselect⟩ | ⟨hnone, -, -⟩
  · rw [outline_select hselect] at ho
    cases ho
    obtain ⟨item, hitem, heq⟩ := List.mem_map.mp ht
    cases item with
    | unnamedExpr e =>
      cases heq
      exact isDoubled_of_hides (h ⟨.expr, e⟩
        (mem_nodes_item hselect hitem (List.mem_singleton_self _)))
    | qualifiedWildcard kind rest => cases kind <;> cases heq
    | _ => cases heq
  · cases hnone.symm.trans ho

theorem fixed_of_outline (h : Shaped (Shape.hides · = false) s)
    (ho : ∀ o, outline? s = some o → o.ItemsBare ∧ o.NamesCovered) :
    PostgresCompatibilityParser.rewrite (PostgresCompatibilityParser.rewrite s) =
      PostgresCompatibilityParser.rewrite s := by
  have houtline := outline_rewrite h
  have halias : AliasDuplicatedProjectionRewrite.rewrite (PostgresCompatibilityParser.rewrite s) =
      PostgresCompatibilityParser.rewrite s := by
    refine AliasDuplicatedProjectionRewrite.rewrite_eq_self fun o' ho' hw => ?_
    rw [houtline] at ho'
    obtain ⟨o, hs, rfl⟩ := Option.map_eq_some_iff.mp ho'
    exact Outline.items_settled (ho o hs).1 (isDoubled_items h hs) hw
  have hresolve : ResolveUnqualifiedIdentifier.rewrite (PostgresCompatibilityParser.rewrite s) =
      PostgresCompatibilityParser.rewrite s := by
    refine ResolveUnqualifiedIdentifier.rewrite_eq_self fun o' table ho' => ?_
    rw [houtline] at ho'
    obtain ⟨o, hs, rfl⟩ := Option.map_eq_some_iff.mp ho'
    exact Outline.names_settled (ho o hs).2
  rw [rewrite_eq (PostgresCompatibilityParser.rewrite s), halias, hresolve,
    (settled_rewrite h).visits_eq_self]

/-- Where no collation is under another or between a text and its cast to an array, a second
rewriting changes nothing exactly if no collation hides an item without a name, or a name out of
scope, from the first two rules. -/
theorem rewrite_rewrite_iff (hcollations : LoneCollations s) (harrays : ArraysInView s) :
    PostgresCompatibilityParser.rewrite (PostgresCompatibilityParser.rewrite s) =
        PostgresCompatibilityParser.rewrite s ↔
      ∀ o, outline? s = some o → o.ItemsBare ∧ o.NamesCovered := by
  have h := shaped_hides hcollations harrays
  refine ⟨fun hfixed o ho => ?_, fixed_of_outline h⟩
  have hrewritten := rewritten_of_fixed h hfixed ho
  exact ⟨Outline.itemsBare_of_settled hrewritten,
    Outline.namesCovered_of_settled (isDoubled_items h ho) hrewritten⟩

open RemoveSubqueryFromProjection in
/-- `SELECT oid COLLATE "C", <items> FROM pg_class` -/
def collatedColumn (items : List (SelectItem Node)) : Statement :=
  let column : Expr := .mk (.collate (.mk (.identifier (Ident.new "oid"))) [⟨"C", some '"'⟩])
  queryStatement ⟨none, .mk (.select ⟨.unnamedExpr column :: items, [⟨pgClass none, []⟩], none,
    .none⟩), none, none, none, .none⟩

private theorem nodes_collatedColumn {items : List (SelectItem Node)}
    (h : items = [] ∨ items = [.wildcard .none]) {e : Expr}
    (he : ⟨.expr, e⟩ ∈ nodes (collatedColumn items)) :
    e = .mk (.identifier (Ident.new "oid")) ∨
      e = .mk (.collate (.mk (.identifier (Ident.new "oid"))) [⟨"C", some '"'⟩]) := by
  rcases h with rfl | rfl <;>
  · simp [collatedColumn, queryStatement, RemoveSubqueryFromProjection.pgClass, nodes_mk, Form.parts,
      Container.parts, Container.partsOption, Container.partsList, Rest.none] at he
    exact he.symm

private theorem shaped_collatedColumn {items : List (SelectItem Node)}
    (h : items = [] ∨ items = [.wildcard .none]) :
    LoneCollations (collatedColumn items) ∧ ArraysInView (collatedColumn items) := by
  constructor
  · intro e inner outer hmem
    rcases nodes_collatedColumn h hmem with heq | heq <;> cases heq
  · intro text collation elem rest hmem
    rcases nodes_collatedColumn h hmem with heq | heq <;> cases heq

/-- `SELECT oid COLLATE "C" FROM pg_class` -/
theorem collatedColumn_fixed :
    PostgresCompatibilityParser.rewrite (PostgresCompatibilityParser.rewrite (collatedColumn [])) =
      PostgresCompatibilityParser.rewrite (collatedColumn []) := by
  obtain ⟨hcollations, harrays⟩ := shaped_collatedColumn (.inl rfl)
  refine (rewrite_rewrite_iff hcollations harrays).mpr fun o ho => ?_
  cases ho
  exact ⟨nofun, nofun⟩

/-- `SELECT oid COLLATE "C", * FROM pg_class` -/
theorem collatedColumn_not_fixed :
    PostgresCompatibilityParser.rewrite
        (PostgresCompatibilityParser.rewrite (collatedColumn [.wildcard .none])) ≠
      PostgresCompatibilityParser.rewrite (collatedColumn [.wildcard .none]) := by
  intro hfixed
  obtain ⟨hcollations, harrays⟩ := shaped_collatedColumn (.inr rfl)
  have hbare := Outline.itemsBare_of_settled
    (rewritten_of_fixed (shaped_hides hcollations harrays) hfixed rfl)
  have hcolumn : shape .expr (.mk (.identifier (Ident.new "oid"))) =
      .identifier (Ident.new "oid") := shape_mk _
  have hitem : Item.unnamed (.collate (.identifier (Ident.new "oid"))) =
      Item.of (.unnamedExpr (.mk
        (.collate (.mk (.identifier (Ident.new "oid"))) [⟨"C", some '"'⟩]))) := by
    rw [Item.of, shape_mk, ← hcolumn]
    rfl
  obtain ⟨ident, hident, hfunction⟩ := hbare rfl (.identifier (Ident.new "oid")) (Ident.new "oid")
    (List.mem_cons.mpr (.inl hitem)) rfl
  cases hident
  exact absurd hfunction (by decide)

end FixedPoint
end DatafusionPostgres.Sql
