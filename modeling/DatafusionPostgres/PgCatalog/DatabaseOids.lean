import DatafusionPostgres.PgCatalog.JoinIntegrity

/-! The databases keep their OIDs, except that a build of `pg_class` forgets the
database that only `pg_database` lists. -/
namespace DatafusionPostgres.PgCatalog
open Library

section Since
variable {build : Build} {provider provider' : PgCatalogSchemaProvider} {reports : List Report}
  {key : OidCacheKey} {base : Nat}

/-- The cached OID of the key, when it has one, was handed out at a count from `base` on. -/
def PgCatalogSchemaProvider.CachedSince (provider : PgCatalogSchemaProvider) (key : OidCacheKey)
    (base : Nat) : Prop :=
  ∀ oid, provider.oidCache.get key = some oid →
    ∃ n, base ≤ n ∧ n < provider.oidCounter.count ∧ oid = UInt32.ofNat n

theorem Built.count_le (h : Built build provider reports provider') :
    provider.oidCounter.count ≤ provider'.oidCounter.count := by
  have hle : ∀ {events : List (OidCacheKey × Oid)} {count : Nat}, Assigned fixedOid UInt32.ofNat
      provider.oidCache.get provider.oidCounter.count events count →
      provider.oidCounter.count ≤ count := by
    intro events count hassigned
    obtain ⟨log, hcount, _⟩ := hassigned.issues
    omega
  cases h with
  | failed hassigned => exact hle hassigned
  | stored hkeys hassigned hreported => exact hle hassigned

private theorem since_of_assigned {events : List (OidCacheKey × Oid)} {count : Nat}
    (hassigned : Assigned fixedOid UInt32.ofNat provider.oidCache.get provider.oidCounter.count
      events count) (hf : fixedOid key = none) (hbase : base ≤ provider.oidCounter.count)
    (hsince : provider.CachedSince key base) {oid : Oid} (hmem : (key, oid) ∈ events) :
    ∃ n, base ≤ n ∧ n < count ∧ oid = UInt32.ofNat n := by
  obtain ⟨log, hcount, hissues⟩ := hassigned.issues
  rcases hissues key oid hmem with hknown | hissued
  · rw [knownId, hf, Option.none_or] at hknown
    obtain ⟨n, hle, hlt, hoid⟩ := hsince oid hknown
    exact ⟨n, hle, by omega, hoid⟩
  · obtain ⟨n, hle, hlt, hoid⟩ := hissued.bounds
    exact ⟨n, hbase.trans hle, hcount ▸ hlt, hoid⟩

theorem Built.cachedSince (h : Built build provider reports provider') (hf : fixedOid key = none)
    (hbase : base ≤ provider.oidCounter.count) (hsince : provider.CachedSince key base) :
    provider'.CachedSince key base := by
  have hcount := h.count_le
  intro oid hget
  have hold : provider.oidCache.get key = some oid →
      ∃ n, base ≤ n ∧ n < provider'.oidCounter.count ∧ oid = UInt32.ofNat n := by
    intro hcache
    obtain ⟨n, hle, hlt, hoid⟩ := hsince oid hcache
    exact ⟨n, hle, by omega, hoid⟩
  cases h with
  | failed hassigned => exact hold hget
  | stored hkeys hassigned hreported =>
    rcases reconcile_get_cases hget with hlocal | hcache
    · exact since_of_assigned hassigned hf hbase hsince
        (List.mem_reverse.mpr (HashMap.mem_entries_of_get hlocal))
    · exact hold hcache

theorem Built.reportedSince (h : Built build provider reports provider') (hf : fixedOid key = none)
    (hbase : base ≤ provider.oidCounter.count) (hsince : provider.CachedSince key base)
    {shown : Int32} (hmem : (key, shown) ∈ reports) :
    ∃ n, base ≤ n ∧ n < provider'.oidCounter.count ∧ shown = (UInt32.ofNat n).toInt32 := by
  cases h with
  | failed hassigned => cases hmem
  | stored hkeys hassigned hreported =>
    obtain ⟨oid, hentry, hshown⟩ := hreported _ hmem
    obtain ⟨n, hle, hlt, rfl⟩ :=
      since_of_assigned hassigned hf hbase hsince (List.mem_reverse.mpr hentry)
    exact ⟨n, hle, hlt, hshown⟩

end Since

namespace PgCatalogSchemaProvider
variable {content : CatalogList} {builds : List Build}

/-- Each row of a build of `pg_database` is in all of them, with its OID. -/
def DatabaseOidsStable (builds : List Build) : Prop :=
  ∀ i j rows rows', DatabaseRows builds i rows → DatabaseRows builds j rows' →
    ∀ row ∈ rows, ∃ row' ∈ rows', row'.datname = row.datname ∧ row'.oid = row.oid

/-- `pg_class` is read between two reads of `pg_database`. -/
def ClassReadBetween (builds : List Build) : Prop :=
  ∃ i j k, i < j ∧ j < k ∧ (∃ rows, DatabaseRows builds i rows) ∧
    (∃ rows, ClassRows builds j rows) ∧ ∃ rows, DatabaseRows builds k rows

private theorem after_take_of_le {P : PgCatalogSchemaProvider → Prop} {m n : Nat} (hle : m ≤ n)
    (hstep : ∀ k build, m ≤ k → P (after (builds.take k)) →
      P ((after (builds.take k)).getData build).2)
    (h : P (after (builds.take m))) : P (after (builds.take n)) := by
  induction n, hle using Nat.le_induction with
  | base => exact h
  | succ n hle ih =>
    cases hbuild : builds[n]? with
    | none => rwa [List.take_add_one, hbuild, Option.toList_none, List.append_nil]
    | some build =>
      rw [after_take_succ hbuild]
      exact hstep n build hle ih

private theorem count_mono {m n : Nat} (hle : m ≤ n) :
    (after (builds.take m)).oidCounter.count ≤ (after (builds.take n)).oidCounter.count := by
  refine after_take_of_le (P := fun provider =>
    (after (builds.take m)).oidCounter.count ≤ provider.oidCounter.count) hle ?_ le_rfl
  intro k build _ ih
  exact ih.trans (getData_built build _).count_le

private theorem cachedSince_from {key : OidCacheKey} {base m n : Nat} (hf : fixedOid key = none)
    (hle : m ≤ n) (hbase : base ≤ (after (builds.take m)).oidCounter.count)
    (hsince : (after (builds.take m)).CachedSince key base) :
    (after (builds.take n)).CachedSince key base := by
  refine after_take_of_le (P := fun provider => provider.CachedSince key base) hle ?_ hsince
  intro k build hk ih
  exact (getData_built build _).cachedSince hf (hbase.trans (count_mono hk)) ih

private theorem reported_since {key : OidCacheKey} {base m n : Nat} (hf : fixedOid key = none)
    (hle : m ≤ n) (hbase : base ≤ (after (builds.take m)).oidCounter.count)
    (hsince : (after (builds.take m)).CachedSince key base) {shown : Int32}
    (h : Reported builds n key shown) :
    ∃ count, base ≤ count ∧ count < (after (builds.take (n + 1))).oidCounter.count ∧
      shown = (UInt32.ofNat count).toInt32 := by
  obtain ⟨build, hbuild, hreport⟩ := h
  rw [after_take_succ hbuild]
  exact (getData_built build _).reportedSince hf (hbase.trans (count_mono hle))
    (cachedSince_from hf hle hbase hsince) hreport

private theorem oidCache_of_failed {k : Nat} {catalogList : CatalogInfo}
    (hbuild : builds[k]? = some ⟨.pgClass, catalogList⟩)
    (hfailed : ¬ ∃ rows, ClassRows builds k rows) :
    (after (builds.take (k + 1))).oidCache = (after (builds.take k)).oidCache := by
  rw [after_take_succ hbuild]
  change (PgClassTable.getData catalogList _).2.oidCache = _
  cases hrows : (PgClassTable.getData catalogList (after (builds.take k))).1 with
  | ok rows => exact absurd ⟨rows, catalogList, hbuild, hrows⟩ hfailed
  | error error =>
    unfold PgClassTable.getData getDataWith at hrows ⊢
    split
    · rename_i hrun
      rw [hrun] at hrows
      cases hrows
    · rfl

private theorem oidCache_of_classRows {k : Nat} {rows : List PgClassRow}
    (hcontent : ∀ build ∈ builds, build.catalogList.content = content)
    (h : ClassRows builds k rows) {c : String} (hc : c ∉ content.catalogNames) :
    (after (builds.take (k + 1))).oidCache.get (.catalog c) = none := by
  obtain ⟨catalogList, hbuild, hrows⟩ := h
  have hkeys := pgClass_cache_keys hrows
  rw [hcontent _ (List.mem_of_getElem? hbuild)] at hkeys
  rw [after_take_succ hbuild, ← Option.not_isSome_iff_eq_none]
  intro hsome
  have hmem := (HashMap.containsKey_iff _ _).mp hsome
  change _ ∈ (PgClassTable.getData catalogList _).2.oidCache.entries.map Prod.fst at hmem
  rw [hkeys, List.mem_reverse] at hmem
  exact hc (catalog_of_mem_pgClass hmem)

private theorem database_kept {c : String} {i j k : Nat} {oid : Oid}
    (hcontent : ∀ build ∈ builds, build.catalogList.content = content)
    (hvisit : .catalog c ∈ SystemTable.pgDatabase.visits content)
    (hcond : PgDatabaseTable.defaultDatname ∈ content.catalogNames ∨ ¬ ClassReadBetween builds)
    (hi : ∃ rows, DatabaseRows builds i rows) (hj : ∃ rows, DatabaseRows builds j rows)
    (hik : i < k) (hkj : k ≤ j) (hknown : (after (builds.take k)).known (.catalog c) = some oid) :
    (after (builds.take (k + 1))).known (.catalog c) = some oid := by
  obtain ⟨_, databases, hdatabases, _⟩ := id hj
  obtain ⟨build, hbuild⟩ : ∃ build, builds[k]? = some build :=
    ⟨_, List.getElem?_eq_getElem (lt_of_le_of_lt hkj (List.getElem?_eq_some_iff.mp hdatabases).1)⟩
  have hsame := hcontent build (List.mem_of_getElem? hbuild)
  by_cases hlose : build.table = .pgClass ∧ c ∉ content.catalogNames
  · obtain ⟨table, catalogList⟩ := build
    obtain ⟨rfl, hc⟩ := hlose
    have hfailed : ¬ ∃ rows, ClassRows builds k rows := by
      intro hk
      have hne : k ≠ j := by
        rintro rfl
        rw [hbuild] at hdatabases
        cases hdatabases
      rcases hcond with hlisted | hbetween
      · have hmem := catalog_of_mem_pgDatabase hvisit
        rcases hmem with hmem | rfl
        · exact hc hmem
        · exact hc hlisted
      · exact hbetween ⟨i, k, j, hik, by omega, hi, hk, hj⟩
    unfold PgCatalogSchemaProvider.known at hknown ⊢
    rw [oidCache_of_failed hbuild hfailed]
    exact hknown
  · rw [after_take_succ hbuild]
    apply (getData_built build _).known_kept _ hknown
    apply Build.retains_catalog
    · rw [hsame]
      exact hvisit
    · intro hclass
      rw [hsame]
      by_contra hc
      exact hlose ⟨hclass, hc⟩

private theorem database_eq {c : String} {i j : Nat} {shown shown' : Int32}
    (hcontent : ∀ build ∈ builds, build.catalogList.content = content)
    (hnodup : content.catalogNames.Nodup)
    (hvisit : .catalog c ∈ SystemTable.pgDatabase.visits content)
    (hcond : PgDatabaseTable.defaultDatname ∈ content.catalogNames ∨ ¬ ClassReadBetween builds)
    (hi : ∃ rows, DatabaseRows builds i rows) (hj : ∃ rows, DatabaseRows builds j rows)
    (hle : i ≤ j) (hfirst : Reported builds i (.catalog c) shown)
    (hlast : Reported builds j (.catalog c) shown') : shown = shown' := by
  apply reported_eq_of_kept hle _ _ hfirst hlast
  · rintro k shown hk ⟨build, hbuild, hreport⟩
    have hdatabase : ∃ rows, DatabaseRows builds k rows := by
      rcases hk with rfl | rfl
      · exact hi
      · exact hj
    obtain ⟨_, catalogList, hbuild', _⟩ := hdatabase
    rw [hbuild] at hbuild'
    cases hbuild'
    have hsame := hcontent _ (List.mem_of_getElem? hbuild)
    rw [after_take_succ hbuild]
    apply (getData_built _ _).known_of_reported _ _ hreport
    · rw [hsame]
      exact pgDatabase_visits_nodup hnodup
    · exact Build.retains_catalog (hsame ▸ hvisit) fun hclass => nomatch hclass
  · intro k oid hik hkj hknown
    exact database_kept hcontent hvisit hcond hi hj hik hkj hknown

private theorem stable_of_not_between
    (hcontent : ∀ build ∈ builds, build.catalogList.content = content)
    (hnodup : content.catalogNames.Nodup)
    (hcond : PgDatabaseTable.defaultDatname ∈ content.catalogNames ∨ ¬ ClassReadBetween builds) :
    DatabaseOidsStable builds := by
  intro i j rows rows' hrows hrows' row hrow
  have hvisit : row.key ∈ SystemTable.pgDatabase.visits content := by
    rw [← hrows.keys hcontent]
    exact List.mem_map_of_mem hrow
  obtain ⟨row', hrow', hkey⟩ : ∃ row' ∈ rows', row'.key = row.key := by
    rw [← hrows'.keys hcontent] at hvisit
    exact List.mem_map.mp hvisit
  refine ⟨row', hrow', OidCacheKey.catalog.inj hkey, ?_⟩
  have hreported := hrows.reported hrow
  have hreported' := hrows'.reported hrow'
  rw [hkey] at hreported'
  rcases Nat.le_total i j with hle | hle
  · exact (database_eq hcontent hnodup hvisit hcond ⟨rows, hrows⟩ ⟨rows', hrows'⟩ hle
      hreported hreported').symm
  · exact database_eq hcontent hnodup hvisit hcond ⟨rows', hrows'⟩ ⟨rows, hrows⟩ hle
      hreported' hreported

private theorem not_stable_of_between
    (hcontent : ∀ build ∈ builds, build.catalogList.content = content)
    (hwrap : (after builds).oidCounter.NotWrapped)
    (hunlisted : PgDatabaseTable.defaultDatname ∉ content.catalogNames)
    (hbetween : ClassReadBetween builds) : ¬ DatabaseOidsStable builds := by
  intro hstable
  obtain ⟨i, j, k, hij, hjk, ⟨rows, hrows⟩, ⟨classes, hclasses⟩, ⟨rows', hrows'⟩⟩ := hbetween
  obtain ⟨row, hrow, hkey⟩ : ∃ row ∈ rows, row.key = .catalog PgDatabaseTable.defaultDatname := by
    have hmem : .catalog PgDatabaseTable.defaultDatname ∈ SystemTable.pgDatabase.visits content :=
      default_mem_pgDatabase
    rw [← hrows.keys hcontent] at hmem
    exact List.mem_map.mp hmem
  obtain ⟨row', hrow', hname, hoid⟩ := hstable i k rows rows' hrows hrows' row hrow
  have hkey' : row'.key = row.key := congrArg OidCacheKey.catalog hname
  have hfirst := hrows.reported hrow
  have hlast := hrows'.reported hrow'
  rw [hkey', hkey] at hlast
  rw [hkey] at hfirst
  have hempty : (after (builds.take 0)).CachedSince (.catalog PgDatabaseTable.defaultDatname) 0 :=
    fun oid hget => nomatch hget
  have hforgot : (after (builds.take (j + 1))).CachedSince
      (.catalog PgDatabaseTable.defaultDatname)
      (after (builds.take (j + 1))).oidCounter.count := by
    intro oid hget
    rw [oidCache_of_classRows hcontent hclasses hunlisted] at hget
    cases hget
  obtain ⟨n, _, hn, hshown⟩ := reported_since rfl (Nat.zero_le i) (Nat.zero_le _) hempty hfirst
  have hafter : j + 1 ≤ k := hjk
  obtain ⟨m, hm, hmlt, hshown'⟩ := reported_since rfl hafter le_rfl hforgot hlast
  have hmono : (after (builds.take (i + 1))).oidCounter.count ≤
      (after (builds.take (j + 1))).oidCounter.count := count_mono (by omega)
  have hend : (after (builds.take (k + 1))).oidCounter.count ≤ (after builds).oidCounter.count := by
    have hall : builds.take (max (k + 1) builds.length) = builds :=
      List.take_of_length_le (Nat.le_max_right _ _)
    calc (after (builds.take (k + 1))).oidCounter.count
        ≤ (after (builds.take (max (k + 1) builds.length))).oidCounter.count :=
          count_mono (Nat.le_max_left _ _)
      _ = (after builds).oidCounter.count := by rw [hall]
  have hsize : (after builds).oidCounter.count < UInt32.size := hwrap
  have hsame : UInt32.ofNat m = UInt32.ofNat n :=
    toInt32_injective (hshown'.symm.trans (hoid.trans hshown))
  have hval := congrArg UInt32.toNat hsame
  rw [UInt32.toNat_ofNat_of_lt' (by omega), UInt32.toNat_ofNat_of_lt' (by omega)] at hval
  omega

/-- The reads of `pg_database` over one catalog list agree if the list names the default
database or `pg_class` is not read between them; else they do not. -/
theorem databaseOids_stable (content : CatalogList) (builds : List Build)
    (hcontent : ∀ build ∈ builds, build.catalogList.content = content)
    (hnodup : content.catalogNames.Nodup) :
    ((PgDatabaseTable.defaultDatname ∈ content.catalogNames ∨ ¬ ClassReadBetween builds) →
      DatabaseOidsStable builds) ∧
    ((after builds).oidCounter.NotWrapped → DatabaseOidsStable builds →
      PgDatabaseTable.defaultDatname ∈ content.catalogNames ∨ ¬ ClassReadBetween builds) := by
  refine ⟨stable_of_not_between hcontent hnodup, ?_⟩
  intro hwrap hstable
  by_contra hnot
  rw [not_or, not_not] at hnot
  exact not_stable_of_between hcontent hwrap hnot.1 hnot.2 hstable

section Examples

def namesPostgres : CatalogList := { userTable with catalogNames := ["postgres", "datafusion"] }

theorem namesPostgres_stable :
    DatabaseOidsStable (readsOf namesPostgres [.pgDatabase, .pgClass, .pgDatabase]) :=
  (databaseOids_stable namesPostgres _ (readsOf_content _ _) (by decide)).1 (.inl (by decide))

theorem userTable_database_not_stable :
    ¬ ∀ (content : CatalogList) (builds : List Build),
      (∀ build ∈ builds, build.catalogList.content = content) → DatabaseOidsStable builds := by
  intro h
  have hstable := h userTable (readsOf userTable [.pgDatabase, .pgClass, .pgDatabase])
    (readsOf_content _ _)
  have hlast := hstable 0 2 _ _ ⟨_, rfl, rfl⟩ ⟨_, rfl, rfl⟩
  exact absurd hlast (by decide)

end Examples

end PgCatalogSchemaProvider
end DatafusionPostgres.PgCatalog
