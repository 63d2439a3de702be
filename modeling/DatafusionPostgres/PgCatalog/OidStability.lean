import DatafusionPostgres.PgCatalog.BuildSpec

/-! A schema or table that stays listed keeps its OID, whichever system tables are
built over the shared cache. -/
namespace DatafusionPostgres.PgCatalog
open Library

namespace OidCacheKey

def catalogPart : OidCacheKey → String
  | .catalog name => name
  | .schema catalogName _ => catalogName
  | .table catalogName _ _ => catalogName

def schemaPart : OidCacheKey → Option String
  | .catalog _ => none
  | .schema _ name => some name
  | .table _ schemaName _ => some schemaName

def IsSchemaOrTable : OidCacheKey → Prop
  | .catalog _ => False
  | .schema _ _ => True
  | .table _ _ _ => True

end OidCacheKey

private theorem nodup_flatMap_of_part {α β γ : Type} (part : β → γ) {origin : α → γ}
    (horigin : Function.Injective origin) {as : List α} {f : α → List β} (has : as.Nodup)
    (hf : ∀ a, (f a).Nodup) (hpart : ∀ a, ∀ b ∈ f a, part b = origin a) : (as.flatMap f).Nodup := by
  rw [List.nodup_flatMap]
  refine ⟨fun a _ => hf a, has.imp ?_⟩
  intro a a' hne
  apply List.disjoint_left.mpr
  intro b hb hb'
  exact hne (horigin ((hpart a b hb).symm.trans (hpart a' b hb')))

section Visits
variable {content : CatalogList}

private theorem tables_nodup (h : content.NamesNodup) (c s : String) :
    ((content.tables c s).map fun t => OidCacheKey.table c s t).Nodup :=
  (h.tables c s).map fun _ _ heq => (OidCacheKey.table.inj heq).2.2

private theorem schemas_nodup (h : content.NamesNodup) (c : String) (f : String → List OidCacheKey)
    (hf : ∀ s, (f s).Nodup) (hpart : ∀ s, ∀ key ∈ f s, key.schemaPart = some s) :
    ((content.schemas c).flatMap f).Nodup :=
  nodup_flatMap_of_part OidCacheKey.schemaPart (Option.some_injective _) (h.schemas c) hf hpart

theorem pgDatabase_visits_nodup (h : content.catalogNames.Nodup) :
    (SystemTable.pgDatabase.visits content).Nodup := by
  refine List.Nodup.map (fun _ _ heq => OidCacheKey.catalog.inj heq) ?_
  split
  · exact h
  · rename_i hmem
    refine h.append (List.nodup_singleton _) ?_
    simpa [List.disjoint_singleton] using hmem

/-- When no name is listed twice, no key is resolved twice. -/
theorem visits_nodup (table : SystemTable) (h : content.NamesNodup) :
    (table.visits content).Nodup := by
  cases table with
  | pgClass =>
    apply nodup_flatMap_of_part OidCacheKey.catalogPart Function.injective_id h.catalogs
    · intro c
      rw [List.nodup_cons]
      refine ⟨by simp, schemas_nodup h c _ ?_ ?_⟩
      · intro s
        rw [List.nodup_cons]
        exact ⟨by simp, tables_nodup h c s⟩
      · intro s key hkey
        rcases List.mem_cons.mp hkey with rfl | hkey
        · rfl
        · obtain ⟨t, _, rfl⟩ := List.mem_map.mp hkey
          rfl
    · intro c key hkey
      rcases List.mem_cons.mp hkey with rfl | hkey
      · rfl
      · obtain ⟨s, _, hkey⟩ := List.mem_flatMap.mp hkey
        rcases List.mem_cons.mp hkey with rfl | hkey
        · rfl
        · obtain ⟨t, _, rfl⟩ := List.mem_map.mp hkey
          rfl
  | pgAttribute =>
    apply nodup_flatMap_of_part OidCacheKey.catalogPart Function.injective_id h.catalogs
    · intro c
      refine schemas_nodup h c _ (tables_nodup h c) ?_
      intro s key hkey
      obtain ⟨t, _, rfl⟩ := List.mem_map.mp hkey
      rfl
    · intro c key hkey
      obtain ⟨s, _, hkey⟩ := List.mem_flatMap.mp hkey
      obtain ⟨t, _, rfl⟩ := List.mem_map.mp hkey
      rfl
  | pgNamespace =>
    apply nodup_flatMap_of_part OidCacheKey.catalogPart Function.injective_id h.catalogs
    · intro c
      exact (h.schemas c).map fun _ _ heq => (OidCacheKey.schema.inj heq).2
    · intro c key hkey
      obtain ⟨s, _, rfl⟩ := List.mem_map.mp hkey
      rfl
  | pgDatabase => exact pgDatabase_visits_nodup h.catalogs

theorem mem_visits_pgClass {key : OidCacheKey} (h : content.Lists key) :
    key ∈ SystemTable.pgClass.visits content := by
  cases key with
  | catalog c => exact List.mem_flatMap.mpr ⟨c, h, List.mem_cons_self⟩
  | schema c s =>
    exact List.mem_flatMap.mpr ⟨c, h.1, List.mem_cons_of_mem _
      (List.mem_flatMap.mpr ⟨s, h.2, List.mem_cons_self⟩)⟩
  | table c s t =>
    exact List.mem_flatMap.mpr ⟨c, h.1, List.mem_cons_of_mem _
      (List.mem_flatMap.mpr ⟨s, h.2.1, List.mem_cons_of_mem _ (List.mem_map_of_mem h.2.2)⟩)⟩

theorem mem_visits_pgAttribute {c s t : String} (h : content.Lists (.table c s t)) :
    .table c s t ∈ SystemTable.pgAttribute.visits content :=
  List.mem_flatMap.mpr ⟨c, h.1, List.mem_flatMap.mpr ⟨s, h.2.1, List.mem_map_of_mem h.2.2⟩⟩

theorem mem_visits_pgNamespace {c s : String} (h : content.Lists (.schema c s)) :
    .schema c s ∈ SystemTable.pgNamespace.visits content :=
  List.mem_flatMap.mpr ⟨c, h.1, List.mem_map_of_mem h.2⟩

theorem lists_of_mem_visits {table : SystemTable} {key : OidCacheKey}
    (h : key ∈ table.visits content) (hkind : key.IsSchemaOrTable) : content.Lists key := by
  cases table with
  | pgClass =>
    obtain ⟨c, hc, hkey⟩ := List.mem_flatMap.mp h
    rcases List.mem_cons.mp hkey with rfl | hkey
    · exact hkind.elim
    · obtain ⟨s, hs, hkey⟩ := List.mem_flatMap.mp hkey
      rcases List.mem_cons.mp hkey with rfl | hkey
      · exact ⟨hc, hs⟩
      · obtain ⟨t, ht, rfl⟩ := List.mem_map.mp hkey
        exact ⟨hc, hs, ht⟩
  | pgAttribute =>
    obtain ⟨c, hc, hkey⟩ := List.mem_flatMap.mp h
    obtain ⟨s, hs, hkey⟩ := List.mem_flatMap.mp hkey
    obtain ⟨t, ht, rfl⟩ := List.mem_map.mp hkey
    exact ⟨hc, hs, ht⟩
  | pgNamespace =>
    obtain ⟨c, hc, hkey⟩ := List.mem_flatMap.mp h
    obtain ⟨s, hs, rfl⟩ := List.mem_map.mp hkey
    exact ⟨hc, hs⟩
  | pgDatabase =>
    obtain ⟨c, _, rfl⟩ := List.mem_map.mp h
    exact hkind.elim

/-- `pg_class` resolves the listed catalogs only. -/
theorem catalog_of_mem_pgClass {c : String} (h : .catalog c ∈ SystemTable.pgClass.visits content) :
    c ∈ content.catalogNames := by
  obtain ⟨c', hc, hkey⟩ := List.mem_flatMap.mp h
  rcases List.mem_cons.mp hkey with heq | hkey
  · cases heq
    exact hc
  · obtain ⟨s, _, hkey⟩ := List.mem_flatMap.mp hkey
    rcases List.mem_cons.mp hkey with heq | hkey
    · cases heq
    · obtain ⟨t, _, heq⟩ := List.mem_map.mp hkey
      cases heq

/-- `pg_database` adds the default one. -/
theorem catalog_of_mem_pgDatabase {c : String}
    (h : .catalog c ∈ SystemTable.pgDatabase.visits content) :
    c ∈ content.catalogNames ∨ c = PgDatabaseTable.defaultDatname := by
  obtain ⟨c', hc, heq⟩ := List.mem_map.mp h
  cases heq
  split at hc
  · exact .inl hc
  · simpa using hc

theorem default_mem_pgDatabase :
    .catalog PgDatabaseTable.defaultDatname ∈ SystemTable.pgDatabase.visits content := by
  apply List.mem_map_of_mem
  split
  · rename_i h
    simpa using h
  · simp

theorem mem_visits_pgDatabase {c : String} (h : c ∈ content.catalogNames) :
    .catalog c ∈ SystemTable.pgDatabase.visits content := by
  apply List.mem_map_of_mem
  split
  · exact h
  · exact List.mem_append_left _ h

end Visits

/-- What a build stores for a key came from its map or was there before. -/
theorem reconcile_get_cases {table : SystemTable} {oidCache localCache : HashMap OidCacheKey Oid}
    {key : OidCacheKey} {oid : Oid}
    (h : (table.reconcile oidCache localCache).get key = some oid) :
    localCache.get key = some oid ∨ oidCache.get key = some oid := by
  have hextend : ∀ keep : OidCacheKey → Bool,
      ((oidCache.retain keep).extend localCache).get key = some oid →
        localCache.get key = some oid ∨ oidCache.get key = some oid := by
    intro keep hget
    rw [HashMap.get_extend, HashMap.get_retain] at hget
    cases hl : localCache.get key with
    | some _ =>
      rw [hl] at hget
      exact .inl hget
    | none =>
      rw [hl, Option.none_or] at hget
      split at hget
      · exact .inr hget
      · cases hget
  cases table with
  | pgClass => exact .inl h
  | pgAttribute => exact hextend _ h
  | pgNamespace => exact hextend _ h
  | pgDatabase => exact hextend _ h

/-- A build that stores its map keeps the entry of the key: its own wins, else the old
one stays. -/
def Build.Retains (build : Build) (key : OidCacheKey) : Prop :=
  ∀ oidCache localCache : HashMap OidCacheKey Oid,
    localCache.entries.map Prod.fst = (build.table.visits build.catalogList.content).reverse →
      (build.table.reconcile oidCache localCache).get key =
        (localCache.get key).or (oidCache.get key)

section Retains
variable {table : SystemTable} {content : CatalogList} {oidCache localCache : HashMap OidCacheKey Oid}
  {key : OidCacheKey} (hkeys : localCache.entries.map Prod.fst = (table.visits content).reverse)
include hkeys

private theorem containsKey_of_visits (hkey : key ∈ table.visits content) :
    localCache.containsKey key = true := by
  rw [HashMap.containsKey_iff, hkeys]
  exact List.mem_reverse.mpr hkey

private theorem get_or_of_visits (hkey : key ∈ table.visits content) :
    (localCache.get key).or (oidCache.get key) = localCache.get key := by
  obtain ⟨oid, hoid⟩ := Option.isSome_iff_exists.mp (containsKey_of_visits hkeys hkey)
  rw [hoid, Option.some_or]

end Retains

/-- No build drops a listed schema or table. -/
theorem Build.retains_of_listed {build : Build} {key : OidCacheKey}
    (hlists : build.catalogList.content.Lists key) (hkind : key.IsSchemaOrTable) :
    build.Retains key := by
  obtain ⟨table, catalogList⟩ := build
  intro oidCache localCache hkeys
  cases table with
  | pgClass => exact (get_or_of_visits hkeys (mem_visits_pgClass hlists)).symm
  | pgAttribute =>
    simp only [SystemTable.reconcile, PgAttributeTable.reconcile, HashMap.get_extend,
      HashMap.get_retain]
    cases key with
    | catalog c => exact hkind.elim
    | schema c s => simp
    | table c s t => simp [containsKey_of_visits hkeys (mem_visits_pgAttribute hlists)]
  | pgNamespace =>
    simp only [SystemTable.reconcile, PgNamespaceTable.reconcile, HashMap.get_extend,
      HashMap.get_retain]
    cases key with
    | catalog c => exact hkind.elim
    | schema c s =>
      rw [get_or_of_visits hkeys (mem_visits_pgNamespace hlists)]
      simp
    | table c s t =>
      simp [containsKey_of_visits hkeys (mem_visits_pgNamespace ⟨hlists.1, hlists.2.1⟩)]
  | pgDatabase =>
    simp only [SystemTable.reconcile, PgDatabaseTable.reconcile, HashMap.get_extend,
      HashMap.get_retain]
    cases key with
    | catalog c => exact hkind.elim
    | schema c s => simp [containsKey_of_visits hkeys (mem_visits_pgDatabase hlists.1)]
    | table c s t => simp [containsKey_of_visits hkeys (mem_visits_pgDatabase hlists.1)]

/-- No build drops a database, except that `pg_class` knows only the listed ones. -/
theorem Build.retains_catalog {build : Build} {c : String}
    (hvisit : .catalog c ∈ SystemTable.pgDatabase.visits build.catalogList.content)
    (hclass : build.table = .pgClass → c ∈ build.catalogList.content.catalogNames) :
    build.Retains (.catalog c) := by
  obtain ⟨table, catalogList⟩ := build
  intro oidCache localCache hkeys
  cases table with
  | pgClass =>
    have hlists : catalogList.content.Lists (.catalog c) := hclass rfl
    exact (get_or_of_visits hkeys (mem_visits_pgClass hlists)).symm
  | pgAttribute =>
    simp [SystemTable.reconcile, PgAttributeTable.reconcile, HashMap.get_extend,
      HashMap.get_retain]
  | pgNamespace =>
    simp [SystemTable.reconcile, PgNamespaceTable.reconcile, HashMap.get_extend,
      HashMap.get_retain]
  | pgDatabase =>
    rw [get_or_of_visits hkeys hvisit]
    simp [SystemTable.reconcile, PgDatabaseTable.reconcile, HashMap.get_extend,
      HashMap.get_retain]

section Step
variable {build : Build} {provider provider' : PgCatalogSchemaProvider} {reports : List Report}
  {key : OidCacheKey}

/-- What the provider resolves the key to without a new OID. -/
def PgCatalogSchemaProvider.known (provider : PgCatalogSchemaProvider) (key : OidCacheKey) :
    Option Oid := knownId fixedOid provider.oidCache.get key

theorem Built.mem_visits (h : Built build provider reports provider') {shown : Int32}
    (hreport : (key, shown) ∈ reports) : key ∈ build.table.visits build.catalogList.content := by
  cases h with
  | failed hassigned => cases hreport
  | stored hkeys hassigned hreported =>
    obtain ⟨oid, hentry, _⟩ := hreported _ hreport
    rw [← List.mem_reverse, ← hkeys]
    exact List.mem_map_of_mem hentry

/-- An OID that a build shows is the one it leaves behind, for a key that it retains. -/
theorem Built.known_of_reported (h : Built build provider reports provider')
    (hnodup : (build.table.visits build.catalogList.content).Nodup) (hretains : build.Retains key)
    {shown : Int32} (hreport : (key, shown) ∈ reports) :
    ∃ oid, shown = oid.toInt32 ∧ provider'.known key = some oid := by
  cases h with
  | failed hassigned => cases hreport
  | @stored _ oidCounter localCache hkeys hassigned hreported =>
    obtain ⟨oid, hmem, hshown⟩ := hreported _ hreport
    have hnd : (localCache.entries.map Prod.fst).Nodup := by
      rw [hkeys]
      exact List.nodup_reverse.mpr hnodup
    have hlocal : localCache.get key = some oid := HashMap.get_of_mem_of_nodup hnd hmem
    refine ⟨oid, hshown, ?_⟩
    unfold PgCatalogSchemaProvider.known knownId
    rw [hretains _ _ hkeys, hlocal, Option.some_or]
    cases hf : fixedOid key with
    | none => rfl
    | some fixed =>
      have hknown : knownId fixedOid provider.oidCache.get key = some fixed := by
        rw [knownId, hf, Option.some_or]
      rw [hassigned.eq_of_known (List.mem_reverse.mpr hmem) hknown, Option.some_or]

/-- A build that retains the key neither drops nor changes its entry. -/
theorem Built.get_kept (h : Built build provider reports provider') (hretains : build.Retains key)
    {oid : Oid} (hget : provider.oidCache.get key = some oid)
    (hknown : provider.known key = some oid) : provider'.oidCache.get key = some oid := by
  cases h with
  | failed hassigned => exact hget
  | @stored _ oidCounter localCache hkeys hassigned hreported =>
    change (build.table.reconcile provider.oidCache localCache).get key = some oid
    rw [hretains _ _ hkeys]
    cases hl : localCache.get key with
    | none => rw [Option.none_or, hget]
    | some oid' =>
      rw [hassigned.eq_of_known
        (List.mem_reverse.mpr (HashMap.mem_entries_of_get hl)) hknown, Option.some_or]

/-- A known OID stays known while the builds retain the key. -/
theorem Built.known_kept (h : Built build provider reports provider') (hretains : build.Retains key)
    {oid : Oid} (hknown : provider.known key = some oid) : provider'.known key = some oid := by
  cases hf : fixedOid key with
  | some fixed => simpa [PgCatalogSchemaProvider.known, knownId, hf] using hknown
  | none =>
    have hget : provider.oidCache.get key = some oid := by
      simpa [PgCatalogSchemaProvider.known, knownId, hf] using hknown
    simpa [PgCatalogSchemaProvider.known, knownId, hf] using h.get_kept hretains hget hknown

/-- Every build shows a known OID. -/
theorem Built.shown_of_known (h : Built build provider reports provider') {oid : Oid}
    (hknown : provider.known key = some oid) {shown : Int32} (hmem : (key, shown) ∈ reports) :
    shown = oid.toInt32 := by
  cases h with
  | failed hassigned => cases hmem
  | @stored _ oidCounter localCache hkeys hassigned hreported =>
    obtain ⟨oid', hmem', hshown⟩ := hreported _ hmem
    rw [← hassigned.eq_of_known (List.mem_reverse.mpr hmem') hknown]
    exact hshown

/-- A cached entry of an object with a fixed OID holds that OID. -/
def PgCatalogSchemaProvider.FixedKept (provider : PgCatalogSchemaProvider) : Prop :=
  ∀ key oid fixed, provider.oidCache.get key = some oid → fixedOid key = some fixed → oid = fixed

theorem Built.fixedKept (h : Built build provider reports provider') (hfixed : provider.FixedKept) :
    provider'.FixedKept := by
  cases h with
  | failed hassigned => exact hfixed
  | @stored _ oidCounter localCache hkeys hassigned hreported =>
    intro key oid fixed hget hf
    rcases reconcile_get_cases hget with hl | hc
    · have hknown : knownId fixedOid provider.oidCache.get key = some fixed := by
        rw [knownId, hf, Option.some_or]
      exact hassigned.eq_of_known
        (List.mem_reverse.mpr (HashMap.mem_entries_of_get hl)) hknown
    · exact hfixed key oid fixed hc hf

theorem PgCatalogSchemaProvider.FixedKept.known (h : provider.FixedKept) {oid : Oid}
    (hget : provider.oidCache.get key = some oid) : provider.known key = some oid := by
  unfold PgCatalogSchemaProvider.known knownId
  cases hf : fixedOid key with
  | none => rw [hget, Option.none_or]
  | some fixed => rw [h key oid fixed hget hf, Option.some_or]

end Step

namespace PgCatalogSchemaProvider

theorem after_take_succ {builds : List Build} {k : Nat} {build : Build}
    (h : builds[k]? = some build) :
    after (builds.take (k + 1)) = ((after (builds.take k)).getData build).2 := by
  rw [after, List.take_add_one, h, run_append]
  rfl

theorem after_fixedKept (builds : List Build) : (after builds).FixedKept := by
  apply run_invariant (fun provider build h => (getData_built build provider).fixedKept h)
  intro key oid fixed hget
  cases hget

section Run
variable {builds : List Build} {key : OidCacheKey}

private theorem known_from {first last : Nat} {shown : Int32} (hle : first ≤ last)
    (hshows : ∃ oid, shown = oid.toInt32 ∧ (after (builds.take (first + 1))).known key = some oid)
    (hkept : ∀ k oid, first < k → k ≤ last → (after (builds.take k)).known key = some oid →
      (after (builds.take (k + 1))).known key = some oid) :
    ∃ oid, shown = oid.toInt32 ∧ (after (builds.take (last + 1))).known key = some oid := by
  induction last, hle using Nat.le_induction with
  | base => exact hshows
  | succ last hle ih =>
    obtain ⟨oid, hshown, hknown⟩ := ih fun k oid hk hk' => hkept k oid hk (by omega)
    exact ⟨oid, hshown, hkept _ oid (by omega) le_rfl hknown⟩

/-- Two reports of a key agree when no build between them loses its OID. -/
theorem reported_eq_of_kept {first last : Nat} {shown shown' : Int32} (hle : first ≤ last)
    (hshows : ∀ k shown, k = first ∨ k = last → Reported builds k key shown →
      ∃ oid, shown = oid.toInt32 ∧ (after (builds.take (k + 1))).known key = some oid)
    (hkept : ∀ k oid, first < k → k ≤ last → (after (builds.take k)).known key = some oid →
      (after (builds.take (k + 1))).known key = some oid)
    (hfirst : Reported builds first key shown) (hlast : Reported builds last key shown') :
    shown = shown' := by
  obtain ⟨oid, hshown, hknown⟩ := known_from hle (hshows first shown (.inl rfl) hfirst) hkept
  obtain ⟨oid', hshown', hknown'⟩ := hshows last shown' (.inr rfl) hlast
  rw [hknown] at hknown'
  rw [hshown, hshown', Option.some.inj hknown']

/-- Two reports of a schema or table agree when it is listed from one to the other. -/
theorem reported_eq {first last : Nat} {shown shown' : Int32}
    (hnodup : ∀ build ∈ builds, build.catalogList.content.NamesNodup) (hkind : key.IsSchemaOrTable)
    (hle : first ≤ last)
    (hlists : ∀ k build, first ≤ k → k ≤ last → builds[k]? = some build →
      build.catalogList.content.Lists key)
    (hfirst : Reported builds first key shown) (hlast : Reported builds last key shown') :
    shown = shown' := by
  apply reported_eq_of_kept hle _ _ hfirst hlast
  · rintro k shown hk ⟨build, hbuild, hreport⟩
    rw [after_take_succ hbuild]
    have hretains := Build.retains_of_listed (hlists k build (by omega) (by omega) hbuild) hkind
    exact (getData_built build _).known_of_reported
      (visits_nodup _ (hnodup _ (List.mem_of_getElem? hbuild))) hretains hreport
  · intro k oid hk hk' hknown
    obtain ⟨_, hlast, _⟩ := hlast
    obtain ⟨build, hbuild⟩ : ∃ build, builds[k]? = some build :=
      ⟨_, List.getElem?_eq_getElem (lt_of_le_of_lt hk' (List.getElem?_eq_some_iff.mp hlast).1)⟩
    rw [after_take_succ hbuild]
    exact (getData_built build _).known_kept
      (Build.retains_of_listed (hlists k build (by omega) hk' hbuild) hkind) hknown

/-- Two reports of a schema or table agree when it is listed from one to the other, and
no build drops or changes the cached OID of a listed one. -/
theorem oids_stable (builds : List Build)
    (hnodup : ∀ build ∈ builds, build.catalogList.content.NamesNodup) (key : OidCacheKey)
    (hkind : key.IsSchemaOrTable) :
    (∀ first last oid oid', first ≤ last →
      (∀ k build, first ≤ k → k ≤ last → builds[k]? = some build →
        build.catalogList.content.Lists key) →
      Reported builds first key oid → Reported builds last key oid' → oid = oid') ∧
    (∀ k build oid, builds[k]? = some build → build.catalogList.content.Lists key →
      (after (builds.take k)).oidCache.get key = some oid →
      (after (builds.take (k + 1))).oidCache.get key = some oid) := by
  refine ⟨fun first last oid oid' hle hlists hfirst hlast =>
    reported_eq hnodup hkind hle hlists hfirst hlast, ?_⟩
  intro k build oid hbuild hlists hget
  rw [after_take_succ hbuild]
  have hknown := (after_fixedKept (builds.take k)).known hget
  exact (getData_built build _).get_kept (Build.retains_of_listed hlists hkind) hget hknown

end Run

/-- One user table, in the schema that is listed beside the system one. -/
def userTable : CatalogList where
  catalogNames := ["datafusion"]
  schemaNames _ := some ["public", "pg_catalog"]
  tableNames _ schema := if schema = "public" then some ["t"] else none
  tableSchema _ _ _ := some ⟨[.new "x" .int32 false]⟩
  tableType _ _ _ := some .base

theorem userTable_nodup : userTable.NamesNodup where
  catalogs := by decide
  schemas _ := by
    change ["public", "pg_catalog"].Nodup
    decide
  tables _ schema := by
    by_cases h : schema = "public" <;> simp [CatalogList.tables, userTable, h]

/-- Two reads of the namespaces with a read of the columns between them. -/
def namespaceReads : List Build :=
  [.pgNamespace, .pgAttribute, .pgNamespace].map fun table => ⟨table, userTable, fun _ => none⟩

theorem namespaceReads_stable :
    ∃ oid, Reported namespaceReads 0 (.schema "datafusion" "public") oid ∧
      Reported namespaceReads 2 (.schema "datafusion" "public") oid := by
  have hnodup : ∀ build ∈ namespaceReads, build.catalogList.content.NamesNodup := by
    intro build hbuild
    obtain ⟨table, _, rfl⟩ := List.mem_map.mp hbuild
    exact userTable_nodup
  have hlists : ∀ k build, 0 ≤ k → k ≤ 2 → namespaceReads[k]? = some build →
      build.catalogList.content.Lists (.schema "datafusion" "public") := by
    intro k build _ _ hbuild
    obtain ⟨table, _, rfl⟩ := List.mem_map.mp (List.mem_of_getElem? hbuild)
    exact ⟨List.mem_cons_self, List.mem_cons_self⟩
  have hfirst : Reported namespaceReads 0 (.schema "datafusion" "public") 16384 :=
    ⟨_, rfl, by decide⟩
  have hlast : ∃ oid, Reported namespaceReads 2 (.schema "datafusion" "public") oid :=
    ⟨_, _, rfl, List.mem_cons_self⟩
  obtain ⟨oid, hlast⟩ := hlast
  have hstable := (oids_stable namespaceReads hnodup (.schema "datafusion" "public") trivial).1
    0 2 16384 oid (by decide) hlists
  exact ⟨16384, hfirst, hstable hfirst hlast ▸ hlast⟩

end PgCatalogSchemaProvider
end DatafusionPostgres.PgCatalog
