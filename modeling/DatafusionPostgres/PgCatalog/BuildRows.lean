import DatafusionPostgres.Library.KeyedRows
import DatafusionPostgres.PgCatalog.OidStability

/-! The rows of a successful build, as the objects they are about and what else the
joins read of them. They depend on the content of the catalog list alone. -/
namespace DatafusionPostgres.PgCatalog
open Library

/-- The columns of a listed table, unless it is gone when it is read. -/
def CatalogList.columns (content : CatalogList) : OidCacheKey → Option ArrowPg.Schema
  | .table catalogName schemaName tableName => content.tableSchema catalogName schemaName tableName
  | _ => none

def PgClassRow.key (row : PgClassRow) : OidCacheKey :=
  .table row.catalogName row.schemaName row.relname

def PgClassRow.schemaKey (row : PgClassRow) : OidCacheKey := .schema row.catalogName row.schemaName

def PgAttributeRow.key (row : PgAttributeRow) : OidCacheKey :=
  .table row.catalogName row.schemaName row.tableName

def PgNamespaceRow.key (row : PgNamespaceRow) : OidCacheKey := .schema row.catalogName row.nspname

def PgDatabaseRow.key (row : PgDatabaseRow) : OidCacheKey := .catalog row.datname

namespace CatalogList

/-- What `pg_class` says of the columns of an object: their number, for a table. -/
def relnatts (content : CatalogList) (key : OidCacheKey) : List Int16 :=
  (content.columns key).toList.map fun schema => .ofNat schema.fields.length

/-- What `pg_attribute` says of them: their positions. -/
def attnums (content : CatalogList) (key : OidCacheKey) : List Int16 :=
  (content.columns key).toList.flatMap fun schema =>
    (List.range schema.fields.length).map fun columnIdx => .ofNat (columnIdx + 1)

end CatalogList

section Appends
variable {ρ γ α β : Type} {view : ρ → γ}

/-- A successful run adds rows that look like `out`, after the rows it found. -/
def Appends (view : ρ → γ) (prog : Builder ρ α) (out : List γ) : Prop :=
  ∀ work, Meets prog work (fun _ work' => work'.rows.map view = work.rows.map view ++ out)
    fun _ => True

namespace Appends

theorem pure (a : α) : Appends view (Pure.pure a : Builder ρ α) [] :=
  fun _ => Meets.pure (by simp)

theorem assign (oidCache : HashMap OidCacheKey Oid) (key : OidCacheKey) :
    Appends view (assign oidCache key) [] :=
  fun _ => Meets.modifyGet (by simp)

theorem pushRow (row : ρ) : Appends view (pushRow row) [view row] :=
  fun _ => Meets.modifyGet (by simp)

theorem bind {prog : Builder ρ α} {next : α → Builder ρ β} {out out' : List γ}
    (h : Appends view prog out) (hnext : ∀ a, Appends view (next a) out') :
    Appends view (prog >>= next) (out ++ out') := by
  intro work
  apply Meets.bind
  apply (h work).mono
  intro a work₁ h₁
  apply (hnext a work₁).mono
  intro b work₂ h₂
  rw [h₂, h₁, List.append_assoc]

theorem call {answer : Except DataFusionError α} {next : α → Builder ρ β} {out : List γ}
    (hnext : ∀ a, answer = .ok a → Appends view (next a) out) :
    Appends view (liftExcept answer >>= next) out := by
  intro work
  apply Meets.bind
  exact Meets.call (fun a ha => hnext a ha work) trivial

theorem forM {as : List α} {body : α → Builder ρ PUnit} {out : α → List γ}
    (hbody : ∀ a, Appends view (body a) (out a)) :
    Appends view (ForM.forM as body) (as.flatMap out) := by
  intro work
  apply Meets.loop fun done (work' : Work ρ) =>
    work'.rows.map view = work.rows.map view ++ done.flatMap out
  · intro done a work₁ _ h₁
    apply (hbody a work₁).mono
    intro _ work₂ h₂
    rw [h₂, h₁, List.flatMap_append, List.append_assoc, List.flatMap_singleton]
  · simp

theorem forNames {names : Option (List String)} {body : String → Builder ρ PUnit}
    {out : String → List γ} (hbody : ∀ name, Appends view (body name) (out name)) :
    Appends view (forNames names body) ((names.getD []).flatMap out) := by
  cases names with
  | none => exact pure PUnit.unit
  | some names => exact forM hbody

end Appends

private theorem rows_of_meets {collect : HashMap OidCacheKey Oid → Builder ρ PUnit}
    {reconcile : HashMap OidCacheKey Oid → HashMap OidCacheKey Oid → HashMap OidCacheKey Oid}
    {provider : PgCatalogSchemaProvider} {out : List γ} {rows : List ρ}
    (h : Meets (collect provider.oidCache) ⟨provider.oidCounter, .empty, []⟩
      (fun _ work => work.rows.map view = out) fun _ => True)
    (hrows : (getDataWith collect reconcile provider).1 = .ok rows) : rows.map view = out := by
  unfold Meets at h
  unfold getDataWith at hrows
  cases hc : collect provider.oidCache ⟨provider.oidCounter, .empty, []⟩ with
  | ok _ work =>
    rw [hc] at h hrows
    cases hrows
    exact h
  | error error work =>
    rw [hc] at hrows
    cases hrows

private theorem Appends.rows {collect : HashMap OidCacheKey Oid → Builder ρ PUnit}
    {reconcile : HashMap OidCacheKey Oid → HashMap OidCacheKey Oid → HashMap OidCacheKey Oid}
    {provider : PgCatalogSchemaProvider} {out : List γ} {rows : List ρ}
    (h : Appends view (collect provider.oidCache) out)
    (hrows : (getDataWith collect reconcile provider).1 = .ok rows) : rows.map view = out := by
  apply rows_of_meets _ hrows
  apply (h _).mono
  intro _ work hwork
  simpa using hwork

end Appends

section Rows
variable {catalogList : CatalogInfo} {provider : PgCatalogSchemaProvider}

private theorem pgClass_appends (oidCache : HashMap OidCacheKey Oid) :
    Appends (fun row : PgClassRow => (row.key, row.relnatts))
      (PgClassTable.collect catalogList oidCache)
      (keyed catalogList.content.relnatts (SystemTable.pgAttribute.visits catalogList.content)) := by
  rw [SystemTable.visits, keyed_flatMap]
  apply Appends.call
  intro catalogNames hnames
  cases CatalogInfo.answer_ok hnames
  apply Appends.forM
  intro c
  rw [keyed_flatMap]
  apply (Appends.assign oidCache _).bind
  intro _
  apply Appends.call
  intro schemaNames hnames
  cases CatalogInfo.answer_ok hnames
  apply Appends.forNames
  intro s
  rw [keyed_map]
  apply (Appends.assign oidCache _).bind
  intro schemaOid
  apply Appends.call
  intro tableNames hnames
  cases CatalogInfo.answer_ok hnames
  apply Appends.forNames
  intro t
  apply (Appends.assign oidCache _).bind
  intro tableOid
  apply Appends.call
  intro tableSchema hschema
  cases CatalogInfo.answer_ok hschema
  simp only [CatalogList.relnatts, CatalogList.columns]
  cases catalogList.content.tableSchema c s t with
  | none => exact Appends.pure PUnit.unit
  | some tableSchema =>
    apply Appends.call
    intro tableType _
    exact Appends.pushRow _

private theorem pgAttribute_appends (oidCache : HashMap OidCacheKey Oid) :
    Appends (fun row : PgAttributeRow => (row.key, row.attnum))
      (PgAttributeTable.collect catalogList oidCache)
      (keyed catalogList.content.attnums (SystemTable.pgAttribute.visits catalogList.content)) := by
  rw [SystemTable.visits, keyed_flatMap]
  apply Appends.call
  intro catalogNames hnames
  cases CatalogInfo.answer_ok hnames
  apply Appends.forM
  intro c
  rw [keyed_flatMap]
  apply Appends.call
  intro schemaNames hnames
  cases CatalogInfo.answer_ok hnames
  apply Appends.forNames
  intro s
  rw [keyed_map]
  apply Appends.call
  intro tableNames hnames
  cases CatalogInfo.answer_ok hnames
  apply Appends.forNames
  intro t
  apply (Appends.assign oidCache _).bind
  intro tableOid
  apply Appends.call
  intro tableSchema hschema
  cases CatalogInfo.answer_ok hschema
  simp only [CatalogList.attnums, CatalogList.columns]
  cases catalogList.content.tableSchema c s t with
  | none => exact Appends.pure PUnit.unit
  | some tableSchema =>
    have hout : (tableSchema.fields.zipIdx.flatMap fun column =>
        [(OidCacheKey.table c s t, Int16.ofNat (column.2 + 1))]) =
        ((some tableSchema).toList.flatMap fun schema => (List.range schema.fields.length).map
          fun columnIdx => Int16.ofNat (columnIdx + 1)).map (Prod.mk (.table c s t)) := by
      have hpositions := congrArg (List.map fun columnIdx => (OidCacheKey.table c s t,
        Int16.ofNat (columnIdx + 1))) (List.zipIdx_map_snd 0 tableSchema.fields)
      rw [List.map_map] at hpositions
      rw [← List.map_eq_flatMap, Option.toList_some, List.flatMap_singleton, List.map_map,
        List.range_eq_range']
      exact hpositions
    rw [← hout]
    apply Appends.forM
    rintro ⟨field, columnIdx⟩
    exact Appends.pushRow _

private theorem pgNamespace_appends (oidCache : HashMap OidCacheKey Oid) :
    Appends PgNamespaceRow.key (PgNamespaceTable.collect catalogList oidCache)
      (SystemTable.pgNamespace.visits catalogList.content) := by
  apply Appends.call
  intro catalogNames hnames
  cases CatalogInfo.answer_ok hnames
  apply Appends.forM
  intro c
  rw [List.map_eq_flatMap]
  apply Appends.call
  intro schemaNames hnames
  cases CatalogInfo.answer_ok hnames
  apply Appends.forNames
  intro s
  apply (Appends.assign oidCache _).bind
  intro schemaOid
  exact Appends.pushRow _

private theorem pgDatabase_visitCatalog_appends (oidCache : HashMap OidCacheKey Oid) (c : String) :
    Appends PgDatabaseRow.key (PgDatabaseTable.visitCatalog oidCache c) [.catalog c] := by
  apply (Appends.assign oidCache _).bind
  intro catalogOid
  exact Appends.pushRow _

private theorem pgDatabase_meets (oidCache : HashMap OidCacheKey Oid) (oidCounter : AtomicU32) :
    Meets (PgDatabaseTable.collect catalogList oidCache) ⟨oidCounter, .empty, []⟩
      (fun _ work => work.rows.map PgDatabaseRow.key =
        SystemTable.pgDatabase.visits catalogList.content)
      fun _ => True := by
  apply Meets.bind
  refine Meets.call ?_ trivial
  intro catalogNames hnames
  cases CatalogInfo.answer_ok hnames
  apply Meets.bind
  apply (Appends.forM (pgDatabase_visitCatalog_appends oidCache) _).mono
  intro _ work hrows
  rw [List.map_nil, List.nil_append, ← List.map_eq_flatMap] at hrows
  have hnames : work.rows.map PgDatabaseRow.datname = catalogList.content.catalogNames := by
    have h := congrArg (List.map OidCacheKey.catalogPart) hrows
    simpa [Function.comp_def, PgDatabaseRow.key, OidCacheKey.catalogPart] using h
  apply Meets.bind
  apply Meets.get
  simp only [hnames, SystemTable.visits]
  split
  · exact Meets.pure hrows
  · apply (pgDatabase_visitCatalog_appends oidCache _ work).mono
    intro _ work' hrows'
    rw [hrows', hrows, List.map_append, List.map_singleton]

/-- The rows of `pg_class`: one for each listed table that is there. -/
theorem pgClass_rows {rows : List PgClassRow}
    (h : (PgClassTable.getData catalogList provider).1 = .ok rows) :
    (rows.map fun row => (row.key, row.relnatts)) =
      keyed catalogList.content.relnatts (SystemTable.pgAttribute.visits catalogList.content) :=
  (pgClass_appends _).rows h

/-- The rows of `pg_attribute`: for each of these tables, one a column. -/
theorem pgAttribute_rows {rows : List PgAttributeRow}
    (h : (PgAttributeTable.getData catalogList provider).1 = .ok rows) :
    (rows.map fun row => (row.key, row.attnum)) =
      keyed catalogList.content.attnums (SystemTable.pgAttribute.visits catalogList.content) :=
  (pgAttribute_appends _).rows h

/-- The rows of `pg_namespace`: one for each listed schema. -/
theorem pgNamespace_rows {rows : List PgNamespaceRow}
    (h : (PgNamespaceTable.getData catalogList provider).1 = .ok rows) :
    rows.map PgNamespaceRow.key = SystemTable.pgNamespace.visits catalogList.content :=
  (pgNamespace_appends _).rows h

/-- The rows of `pg_database`: one for each catalog, and the default one. -/
theorem pgDatabase_rows {rows : List PgDatabaseRow}
    (h : (PgDatabaseTable.getData catalogList provider).1 = .ok rows) :
    rows.map PgDatabaseRow.key = SystemTable.pgDatabase.visits catalogList.content :=
  rows_of_meets (pgDatabase_meets _ _) h

end Rows
end DatafusionPostgres.PgCatalog
