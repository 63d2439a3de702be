import DatafusionPostgres.Library.StateProgram
import DatafusionPostgres.PgCatalog.Builders

/-! What one build does: the keys it resolves and in which order, what it reports,
and what it stores. -/
namespace DatafusionPostgres.PgCatalog
open Library

/-- The keys that a build of the table resolves, in order. -/
def SystemTable.visits (content : CatalogList) : SystemTable → List OidCacheKey
  | .pgClass =>
    content.catalogNames.flatMap fun c => .catalog c ::
      (content.schemas c).flatMap fun s => .schema c s ::
        (content.tables c s).map fun t => .table c s t
  | .pgAttribute =>
    content.catalogNames.flatMap fun c =>
      (content.schemas c).flatMap fun s => (content.tables c s).map fun t => .table c s t
  | .pgNamespace =>
    content.catalogNames.flatMap fun c => (content.schemas c).map fun s => .schema c s
  | .pgDatabase =>
    let names := content.catalogNames
    let default := PgDatabaseTable.defaultDatname
    (if names.contains default then names else names ++ [default]).map fun c => .catalog c

def SystemTable.reconcile :
    SystemTable → HashMap OidCacheKey Oid → HashMap OidCacheKey Oid → HashMap OidCacheKey Oid
  | .pgClass => PgClassTable.reconcile
  | .pgAttribute => PgAttributeTable.reconcile
  | .pgNamespace => PgNamespaceTable.reconcile
  | .pgDatabase => PgDatabaseTable.reconcile

section Collecting
variable {ρ : Type} (oidCache : HashMap OidCacheKey Oid) (reports : ρ → List Report) (count : Nat)

/-- A build that began at `count` has resolved `visits` and nothing else, and every
OID in its rows is one it resolved. -/
structure Collected (visits : List OidCacheKey) (work : Work ρ) : Prop where
  keys : work.localCache.entries.map Prod.fst = visits.reverse
  assigned : Assigned fixedOid UInt32.ofNat oidCache.get count work.localCache.entries.reverse
    work.oidCounter.count
  reported : ∀ row ∈ work.rows, ∀ report ∈ reports row, ∃ oid,
    (report.1, oid) ∈ work.localCache.entries ∧ report.2 = oid.toInt32

/-- Wherever a build stops, its counter has been moved by assignments only. -/
def Advanced (work : Work ρ) : Prop :=
  ∃ events, Assigned fixedOid UInt32.ofNat oidCache.get count events work.oidCounter.count

variable {oidCache reports count} {visits : List OidCacheKey} {work : Work ρ}

theorem Collected.advanced (h : Collected oidCache reports count visits work) :
    Advanced oidCache count work := ⟨_, h.assigned⟩

theorem Collected.start (oidCounter : AtomicU32) :
    Collected oidCache reports oidCounter.count [] ⟨oidCounter, .empty, []⟩ where
  keys := rfl
  assigned := .done _
  reported := by simp

theorem assign_meets (h : Collected oidCache reports count visits work) (key : OidCacheKey) :
    Meets (assign oidCache key) work
      (fun oid work' => Collected oidCache reports count (visits ++ [key]) work' ∧
        work'.localCache.entries = (key, oid) :: work.localCache.entries ∧
        work'.rows = work.rows)
      (Advanced oidCache count) := by
  apply Meets.modifyGet
  refine ⟨⟨?_, ?_, ?_⟩, rfl, rfl⟩
  · simp [HashMap.insert, h.keys]
  · simp only [HashMap.insert, List.reverse_cons]
    exact h.assigned.append (resolveOid_assigned key oidCache work.oidCounter)
  · intro row hrow report hreport
    obtain ⟨oid, hmem, heq⟩ := h.reported row hrow report hreport
    exact ⟨oid, List.mem_cons_of_mem _ hmem, heq⟩

theorem pushRow_meets (h : Collected oidCache reports count visits work) (row : ρ)
    (hrow : ∀ report ∈ reports row, ∃ oid,
      (report.1, oid) ∈ work.localCache.entries ∧ report.2 = oid.toInt32) :
    Meets (pushRow row) work
      (fun _ work' => Collected oidCache reports count visits work' ∧
        work'.localCache.entries = work.localCache.entries ∧ work'.rows = work.rows ++ [row])
      (Advanced oidCache count) := by
  apply Meets.modifyGet
  refine ⟨⟨h.keys, h.assigned, ?_⟩, rfl, rfl⟩
  intro row' hrow' report hreport
  rcases List.mem_append.mp hrow' with hold | hnew
  · exact h.reported row' hold report hreport
  · rw [List.mem_singleton.mp hnew] at hreport
    exact hrow report hreport

theorem forNames_meets {names : Option (List String)} {body : String → Builder ρ PUnit}
    (inv : List String → Work ρ → Prop)
    (hbody : ∀ done name work', inv done work' →
      Meets (body name) work' (fun _ work'' => inv (done ++ [name]) work'') (Advanced oidCache count))
    (h0 : inv [] work) :
    Meets (forNames names body) work (fun _ work' => inv (names.getD []) work')
      (Advanced oidCache count) := by
  cases names with
  | none => exact Meets.pure h0
  | some names => exact Meets.loop inv (fun done name work' _ h => hbody done name work' h) h0

end Collecting

section PgClass
variable {catalogList : CatalogInfo} {oidCache : HashMap OidCacheKey Oid} {count : Nat}
  {visits : List OidCacheKey} {work : Work PgClassRow}
open PgClassTable

private theorem pgClass_visitTable {c s : String} {schemaOid : Oid}
    (h : Collected oidCache PgClassRow.reports count visits work)
    (hschema : (.schema c s, schemaOid) ∈ work.localCache.entries) (t : String) :
    Meets (visitTable catalogList oidCache c s schemaOid t) work
      (fun _ work' => Collected oidCache PgClassRow.reports count (visits ++ [.table c s t]) work' ∧
        (.schema c s, schemaOid) ∈ work'.localCache.entries)
      (Advanced oidCache count) := by
  apply Meets.bind
  apply (assign_meets h (.table c s t)).mono
  rintro tableOid work₁ ⟨h₁, hentries, _⟩
  have htable : (.table c s t, tableOid) ∈ work₁.localCache.entries := by simp [hentries]
  have hschema₁ : (.schema c s, schemaOid) ∈ work₁.localCache.entries := by simp [hentries, hschema]
  apply Meets.bind
  apply Meets.call _ h₁.advanced
  intro tableSchema _
  cases tableSchema with
  | none => exact Meets.pure ⟨h₁, hschema₁⟩
  | some tableSchema =>
    apply Meets.bind
    apply Meets.call _ h₁.advanced
    intro tableType _
    apply (pushRow_meets h₁ _ _).mono
    · rintro _ work₂ ⟨h₂, hsame, _⟩
      exact ⟨h₂, by rw [hsame]; exact hschema₁⟩
    · intro report hreport
      simp only [PgClassRow.reports, List.mem_cons, List.not_mem_nil, or_false] at hreport
      rcases hreport with rfl | rfl | rfl
      · exact ⟨tableOid, htable, rfl⟩
      · exact ⟨schemaOid, hschema₁, rfl⟩
      · exact ⟨tableOid, htable, rfl⟩

private theorem pgClass_visitSchema {c : String}
    (h : Collected oidCache PgClassRow.reports count visits work) (s : String) :
    Meets (visitSchema catalogList oidCache c s) work
      (fun _ work' => Collected oidCache PgClassRow.reports count
        (visits ++ .schema c s :: (catalogList.content.tables c s).map fun t => .table c s t) work')
      (Advanced oidCache count) := by
  apply Meets.bind
  apply (assign_meets h (.schema c s)).mono
  rintro schemaOid work₁ ⟨h₁, hentries, _⟩
  apply Meets.bind
  apply Meets.call _ h₁.advanced
  intro tableNames hnames
  cases CatalogInfo.answer_ok hnames
  apply (forNames_meets (fun done work' => Collected oidCache PgClassRow.reports count
    (visits ++ [.schema c s] ++ done.map fun t => .table c s t) work' ∧
      (.schema c s, schemaOid) ∈ work'.localCache.entries) _ _).mono
  · rintro _ work₂ ⟨h₂, _⟩
    simpa [CatalogList.tables] using h₂
  · rintro done t work₂ ⟨h₂, hschema⟩
    simpa using pgClass_visitTable h₂ hschema t
  · exact ⟨by simpa using h₁, by simp [hentries]⟩

private theorem pgClass_visitCatalog
    (h : Collected oidCache PgClassRow.reports count visits work) (c : String) :
    Meets (visitCatalog catalogList oidCache c) work
      (fun _ work' => Collected oidCache PgClassRow.reports count
        (visits ++ .catalog c :: (catalogList.content.schemas c).flatMap fun s => .schema c s ::
          (catalogList.content.tables c s).map fun t => .table c s t) work')
      (Advanced oidCache count) := by
  apply Meets.bind
  apply (assign_meets h (.catalog c)).mono
  rintro _ work₁ ⟨h₁, _⟩
  apply Meets.bind
  apply Meets.call _ h₁.advanced
  intro schemaNames hnames
  cases CatalogInfo.answer_ok hnames
  apply (forNames_meets (fun done work' => Collected oidCache PgClassRow.reports count
    (visits ++ [.catalog c] ++ done.flatMap fun s => .schema c s ::
      (catalogList.content.tables c s).map fun t => .table c s t) work') _ _).mono
  · rintro _ work₂ h₂
    simpa [CatalogList.schemas] using h₂
  · rintro done s work₂ h₂
    simpa using pgClass_visitSchema h₂ s
  · simpa using h₁

private theorem pgClass_collect (h : Collected oidCache PgClassRow.reports count [] work) :
    Meets (collect catalogList oidCache) work
      (fun _ work' => Collected oidCache PgClassRow.reports count
        (SystemTable.pgClass.visits catalogList.content) work')
      (Advanced oidCache count) := by
  apply Meets.bind
  apply Meets.call _ h.advanced
  intro catalogNames hnames
  cases CatalogInfo.answer_ok hnames
  apply Meets.loop (fun done work' => Collected oidCache PgClassRow.reports count
    (done.flatMap fun c => .catalog c ::
      (catalogList.content.schemas c).flatMap fun s => .schema c s ::
        (catalogList.content.tables c s).map fun t => .table c s t) work')
  · intro done c work₁ _ h₁
    simpa using pgClass_visitCatalog h₁ c
  · exact h

end PgClass

section PgAttribute
variable {catalogList : CatalogInfo} {oidCache : HashMap OidCacheKey Oid} {count : Nat}
  {visits : List OidCacheKey} {work : Work PgAttributeRow}
open PgAttributeTable

private theorem attributeRow_reports (c s t : String) (tableOid : Oid) (columnIdx : Nat)
    (field : ArrowPg.Field) :
    (attributeRow c s t tableOid columnIdx field).reports = [(.table c s t, tableOid.toInt32)] := rfl

private theorem pgAttribute_visitTable {c s : String}
    (h : Collected oidCache PgAttributeRow.reports count visits work) (t : String) :
    Meets (visitTable catalogList oidCache c s t) work
      (fun _ work' =>
        Collected oidCache PgAttributeRow.reports count (visits ++ [.table c s t]) work')
      (Advanced oidCache count) := by
  apply Meets.bind
  apply (assign_meets h (.table c s t)).mono
  rintro tableOid work₁ ⟨h₁, hentries, _⟩
  have htable : (.table c s t, tableOid) ∈ work₁.localCache.entries := by simp [hentries]
  apply Meets.bind
  apply Meets.call _ h₁.advanced
  intro tableSchema _
  cases tableSchema with
  | none => exact Meets.pure h₁
  | some tableSchema =>
    apply (Meets.loop (fun _ work' =>
      Collected oidCache PgAttributeRow.reports count (visits ++ [.table c s t]) work' ∧
        (.table c s t, tableOid) ∈ work'.localCache.entries) _ ⟨h₁, htable⟩).mono
    · exact fun _ _ h₂ => h₂.1
    · rintro _ ⟨field, columnIdx⟩ work₂ _ ⟨h₂, htable₂⟩
      apply (pushRow_meets h₂ _ _).mono
      · rintro _ work₃ ⟨h₃, hsame, _⟩
        exact ⟨h₃, by rw [hsame]; exact htable₂⟩
      · intro report hreport
        rw [attributeRow_reports, List.mem_singleton] at hreport
        exact ⟨tableOid, by rw [hreport]; exact htable₂, by rw [hreport]⟩

private theorem pgAttribute_visitSchema {c : String}
    (h : Collected oidCache PgAttributeRow.reports count visits work) (s : String) :
    Meets (visitSchema catalogList oidCache c s) work
      (fun _ work' => Collected oidCache PgAttributeRow.reports count
        (visits ++ (catalogList.content.tables c s).map fun t => .table c s t) work')
      (Advanced oidCache count) := by
  apply Meets.bind
  apply Meets.call _ h.advanced
  intro tableNames hnames
  cases CatalogInfo.answer_ok hnames
  apply forNames_meets (fun done work' => Collected oidCache PgAttributeRow.reports count
    (visits ++ done.map fun t => OidCacheKey.table c s t) work')
  · intro done t work₂ h₂
    simpa using pgAttribute_visitTable h₂ t
  · simpa using h

private theorem pgAttribute_visitCatalog
    (h : Collected oidCache PgAttributeRow.reports count visits work) (c : String) :
    Meets (visitCatalog catalogList oidCache c) work
      (fun _ work' => Collected oidCache PgAttributeRow.reports count
        (visits ++ (catalogList.content.schemas c).flatMap fun s =>
          (catalogList.content.tables c s).map fun t => .table c s t) work')
      (Advanced oidCache count) := by
  apply Meets.bind
  apply Meets.call _ h.advanced
  intro schemaNames hnames
  cases CatalogInfo.answer_ok hnames
  apply forNames_meets (fun done work' => Collected oidCache PgAttributeRow.reports count
    (visits ++ done.flatMap fun s =>
      (catalogList.content.tables c s).map fun t => OidCacheKey.table c s t) work')
  · intro done s work₂ h₂
    simpa using pgAttribute_visitSchema h₂ s
  · simpa using h

private theorem pgAttribute_collect (h : Collected oidCache PgAttributeRow.reports count [] work) :
    Meets (collect catalogList oidCache) work
      (fun _ work' => Collected oidCache PgAttributeRow.reports count
        (SystemTable.pgAttribute.visits catalogList.content) work')
      (Advanced oidCache count) := by
  apply Meets.bind
  apply Meets.call _ h.advanced
  intro catalogNames hnames
  cases CatalogInfo.answer_ok hnames
  apply Meets.loop (fun done work' => Collected oidCache PgAttributeRow.reports count
    (done.flatMap fun c => (catalogList.content.schemas c).flatMap fun s =>
      (catalogList.content.tables c s).map fun t => OidCacheKey.table c s t) work')
  · intro done c work₁ _ h₁
    simpa using pgAttribute_visitCatalog h₁ c
  · exact h

end PgAttribute

section PgNamespace
variable {catalogList : CatalogInfo} {oidCache : HashMap OidCacheKey Oid} {count : Nat}
  {visits : List OidCacheKey} {work : Work PgNamespaceRow}
open PgNamespaceTable

private theorem pgNamespace_visitSchema {c : String}
    (h : Collected oidCache PgNamespaceRow.reports count visits work) (s : String) :
    Meets (visitSchema oidCache c s) work
      (fun _ work' => Collected oidCache PgNamespaceRow.reports count (visits ++ [.schema c s]) work')
      (Advanced oidCache count) := by
  apply Meets.bind
  apply (assign_meets h (.schema c s)).mono
  rintro schemaOid work₁ ⟨h₁, hentries, _⟩
  apply (pushRow_meets h₁ _ _).mono
  · exact fun _ _ h₂ => h₂.1
  · intro report hreport
    simp only [PgNamespaceRow.reports, List.mem_singleton] at hreport
    exact ⟨schemaOid, by simp [hentries, hreport], by rw [hreport]⟩

private theorem pgNamespace_visitCatalog
    (h : Collected oidCache PgNamespaceRow.reports count visits work) (c : String) :
    Meets (visitCatalog catalogList oidCache c) work
      (fun _ work' => Collected oidCache PgNamespaceRow.reports count
        (visits ++ (catalogList.content.schemas c).map fun s => .schema c s) work')
      (Advanced oidCache count) := by
  apply Meets.bind
  apply Meets.call _ h.advanced
  intro schemaNames hnames
  cases CatalogInfo.answer_ok hnames
  apply forNames_meets (fun done work' => Collected oidCache PgNamespaceRow.reports count
    (visits ++ done.map fun s => OidCacheKey.schema c s) work')
  · intro done s work₂ h₂
    simpa using pgNamespace_visitSchema h₂ s
  · simpa using h

private theorem pgNamespace_collect (h : Collected oidCache PgNamespaceRow.reports count [] work) :
    Meets (collect catalogList oidCache) work
      (fun _ work' => Collected oidCache PgNamespaceRow.reports count
        (SystemTable.pgNamespace.visits catalogList.content) work')
      (Advanced oidCache count) := by
  apply Meets.bind
  apply Meets.call _ h.advanced
  intro catalogNames hnames
  cases CatalogInfo.answer_ok hnames
  apply Meets.loop (fun done work' => Collected oidCache PgNamespaceRow.reports count
    (done.flatMap fun c => (catalogList.content.schemas c).map fun s => .schema c s) work')
  · intro done c work₁ _ h₁
    simpa using pgNamespace_visitCatalog h₁ c
  · exact h

end PgNamespace

section PgDatabase
variable {catalogList : CatalogInfo} {oidCache : HashMap OidCacheKey Oid} {count : Nat}
  {visits : List OidCacheKey} {work : Work PgDatabaseRow}
open PgDatabaseTable

private theorem pgDatabase_visitCatalog
    (h : Collected oidCache PgDatabaseRow.reports count visits work) (c : String) :
    Meets (visitCatalog oidCache c) work
      (fun _ work' =>
        Collected oidCache PgDatabaseRow.reports count (visits ++ [.catalog c]) work' ∧
          work'.rows.map PgDatabaseRow.datname = work.rows.map PgDatabaseRow.datname ++ [c])
      (Advanced oidCache count) := by
  apply Meets.bind
  apply (assign_meets h (.catalog c)).mono
  rintro catalogOid work₁ ⟨h₁, hentries, hrows⟩
  apply (pushRow_meets h₁ _ _).mono
  · rintro _ work₂ ⟨h₂, _, hrows₂⟩
    exact ⟨h₂, by simp [hrows₂, hrows]⟩
  · intro report hreport
    simp only [PgDatabaseRow.reports, List.mem_singleton] at hreport
    exact ⟨catalogOid, by simp [hentries, hreport], by rw [hreport]⟩

private theorem pgDatabase_collect (h : Collected oidCache PgDatabaseRow.reports count [] work)
    (hrows : work.rows = []) :
    Meets (collect catalogList oidCache) work
      (fun _ work' => Collected oidCache PgDatabaseRow.reports count
        (SystemTable.pgDatabase.visits catalogList.content) work')
      (Advanced oidCache count) := by
  apply Meets.bind
  apply Meets.call _ h.advanced
  intro catalogNames hnames
  cases CatalogInfo.answer_ok hnames
  apply Meets.bind
  apply (Meets.loop (fun done work' => Collected oidCache PgDatabaseRow.reports count
    (done.map fun c => .catalog c) work' ∧
      work'.rows.map PgDatabaseRow.datname = done) _ ⟨h, by simp [hrows]⟩).mono
  · rintro _ work₁ ⟨h₁, hnames₁⟩
    apply Meets.bind
    apply Meets.get
    simp only [hnames₁, SystemTable.visits]
    split
    · exact Meets.pure h₁
    · apply (pgDatabase_visitCatalog h₁ defaultDatname).mono
      rintro _ work₂ ⟨h₂, _⟩
      simpa using h₂
  · rintro done c work₁ _ ⟨h₁, hnames₁⟩
    apply (pgDatabase_visitCatalog h₁ c).mono
    rintro _ work₂ ⟨h₂, hnames₂⟩
    exact ⟨by simpa using h₂, by rw [hnames₂, hnames₁]⟩

end PgDatabase

/-- The outcome of a build: all of it, or a counter that has moved. -/
inductive Built (build : Build) (provider : PgCatalogSchemaProvider) :
    List Report → PgCatalogSchemaProvider → Prop where
  | stored {reports : List Report} {oidCounter : AtomicU32} {localCache : HashMap OidCacheKey Oid}
      (hkeys : localCache.entries.map Prod.fst =
        (build.table.visits build.catalogList.content).reverse)
      (hassigned : Assigned fixedOid UInt32.ofNat provider.oidCache.get provider.oidCounter.count
        localCache.entries.reverse oidCounter.count)
      (hreported : ∀ report ∈ reports, ∃ oid, (report.1, oid) ∈ localCache.entries ∧
        report.2 = oid.toInt32) :
      Built build provider reports
        ⟨oidCounter, build.table.reconcile provider.oidCache localCache⟩
  | failed {oidCounter : AtomicU32} {events : List (OidCacheKey × Oid)}
      (hassigned : Assigned fixedOid UInt32.ofNat provider.oidCache.get provider.oidCounter.count
        events oidCounter.count) :
      Built build provider [] { provider with oidCounter }

private theorem getDataWith_built {ρ : Type} {reports : ρ → List Report} (build : Build)
    {collect : HashMap OidCacheKey Oid → Builder ρ PUnit} {provider : PgCatalogSchemaProvider}
    (h : Meets (collect provider.oidCache) ⟨provider.oidCounter, .empty, []⟩
      (fun _ work => Collected provider.oidCache reports provider.oidCounter.count
        (build.table.visits build.catalogList.content) work)
      (Advanced provider.oidCache provider.oidCounter.count)) :
    Built build provider
      (reportsOf reports (getDataWith collect build.table.reconcile provider).1)
      (getDataWith collect build.table.reconcile provider).2 := by
  unfold getDataWith
  unfold Meets at h
  cases hc : collect provider.oidCache ⟨provider.oidCounter, .empty, []⟩ with
  | ok _ work =>
    rw [hc] at h
    refine .stored h.keys h.assigned ?_
    intro report hreport
    obtain ⟨row, hrow, hr⟩ := List.mem_flatMap.mp hreport
    exact h.reported row hrow report hr
  | error error work =>
    rw [hc] at h
    obtain ⟨events, hassigned⟩ := h
    exact .failed hassigned

theorem getData_built (build : Build) (provider : PgCatalogSchemaProvider) :
    Built build provider (provider.getData build).1 (provider.getData build).2 := by
  obtain ⟨table, catalogList⟩ := build
  cases table with
  | pgClass => exact getDataWith_built ⟨.pgClass, catalogList⟩ (pgClass_collect (.start _))
  | pgAttribute =>
    exact getDataWith_built ⟨.pgAttribute, catalogList⟩ (pgAttribute_collect (.start _))
  | pgNamespace =>
    exact getDataWith_built ⟨.pgNamespace, catalogList⟩ (pgNamespace_collect (.start _))
  | pgDatabase =>
    exact getDataWith_built ⟨.pgDatabase, catalogList⟩
      (pgDatabase_collect (.start _) rfl)

/-- After a successful build of `pg_class` the cache holds the keys it resolved, no others. -/
theorem pgClass_cache_keys {catalogList : CatalogInfo} {provider : PgCatalogSchemaProvider}
    {rows : List PgClassRow} (h : (PgClassTable.getData catalogList provider).1 = .ok rows) :
    (PgClassTable.getData catalogList provider).2.oidCache.entries.map Prod.fst =
      (SystemTable.pgClass.visits catalogList.content).reverse := by
  have hmeets : Meets (PgClassTable.collect catalogList provider.oidCache)
      ⟨provider.oidCounter, .empty, []⟩ _ _ := pgClass_collect (.start provider.oidCounter)
  unfold Meets at hmeets
  unfold PgClassTable.getData getDataWith at h ⊢
  cases hc : PgClassTable.collect catalogList provider.oidCache ⟨provider.oidCounter, .empty, []⟩ with
  | ok _ work =>
    rw [hc] at hmeets
    exact hmeets.keys
  | error error work =>
    rw [hc] at h
    cases h

end DatafusionPostgres.PgCatalog
