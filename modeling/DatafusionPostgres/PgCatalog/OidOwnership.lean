import DatafusionPostgres.PgCatalog.OidStability

/-! An OID from the counter belongs to one key for the whole run. The log of what the
counter was moved for is a ghost: it says for which key each OID was issued. -/
namespace DatafusionPostgres.PgCatalog
open Library

/-- The value that `tryNew` starts the counter with. -/
def firstOid : Nat := 16384

/-- The log accounts for the counter, and for each key without a fixed OID that is
cached or was reported. -/
structure Owned (log : List OidCacheKey) (provider : PgCatalogSchemaProvider)
    (reported : OidCacheKey → Int32 → Prop) : Prop where
  count : provider.oidCounter.count = firstOid + log.length
  cached : ∀ key oid, provider.oidCache.get key = some oid → fixedOid key = none →
    Issued UInt32.ofNat firstOid log key oid
  shown : ∀ key oid, reported key oid → fixedOid key = none →
    ∃ issued, Issued UInt32.ofNat firstOid log key issued ∧ oid = issued.toInt32

section Step
variable {build : Build} {provider provider' : PgCatalogSchemaProvider} {reports : List Report}
  {log : List OidCacheKey} {reported : OidCacheKey → Int32 → Prop}

private theorem issued_of_assigned (h : Owned log provider reported)
    {events : List (OidCacheKey × Oid)} {count' : Nat}
    (hassigned : Assigned fixedOid UInt32.ofNat provider.oidCache.get provider.oidCounter.count
      events count') :
    ∃ more, count' = firstOid + (log ++ more).length ∧
      ∀ key oid, (key, oid) ∈ events → fixedOid key = none →
        Issued UInt32.ofNat firstOid (log ++ more) key oid := by
  obtain ⟨more, hcount, hissues⟩ := hassigned.issues
  refine ⟨more, by rw [hcount, h.count, List.length_append, Nat.add_assoc], ?_⟩
  intro key oid hmem hf
  rcases hissues key oid hmem with hknown | hissued
  · rw [knownId, hf, Option.none_or] at hknown
    exact (h.cached key oid hknown hf).append_right
  · rw [h.count] at hissued
    exact hissued.append_left

theorem Built.owned (h : Built build provider reports provider')
    (howned : Owned log provider reported) :
    ∃ log', Owned log' provider' fun key oid => reported key oid ∨ (key, oid) ∈ reports := by
  cases h with
  | failed hassigned =>
    obtain ⟨more, hcount, _⟩ := issued_of_assigned howned hassigned
    refine ⟨log ++ more, hcount, ?_, ?_⟩
    · intro key oid hget hf
      exact (howned.cached key oid hget hf).append_right
    · intro key oid hreported hf
      obtain ⟨issued, hissued, heq⟩ := howned.shown key oid (by simpa using hreported) hf
      exact ⟨issued, hissued.append_right, heq⟩
  | @stored _ oidCounter localCache hkeys hassigned hreported =>
    obtain ⟨more, hcount, hevents⟩ := issued_of_assigned howned hassigned
    refine ⟨log ++ more, hcount, ?_, ?_⟩
    · intro key oid hget hf
      rcases reconcile_get_cases hget with hlocal | hcache
      · exact hevents key oid (List.mem_reverse.mpr (HashMap.mem_entries_of_get hlocal)) hf
      · exact (howned.cached key oid hcache hf).append_right
    · intro key oid hshown hf
      rcases hshown with hold | hnew
      · obtain ⟨issued, hissued, heq⟩ := howned.shown key oid hold hf
        exact ⟨issued, hissued.append_right, heq⟩
      · obtain ⟨issued, hmem, heq⟩ := hreported _ hnew
        exact ⟨issued, hevents key issued (List.mem_reverse.mpr hmem) hf, heq⟩

end Step

namespace PgCatalogSchemaProvider

private theorem take_owned (builds : List Build) {n : Nat} (hn : n ≤ builds.length) :
    ∃ log, Owned log (after (builds.take n)) fun key oid => ∃ i < n, Reported builds i key oid := by
  induction n with
  | zero =>
    refine ⟨[], rfl, ?_, ?_⟩
    · intro key oid hget
      cases hget
    · rintro key oid ⟨i, hi, _⟩
      omega
  | succ n ih =>
    obtain ⟨log, howned⟩ := ih (by omega)
    obtain ⟨build, hbuild⟩ : ∃ build, builds[n]? = some build :=
      ⟨_, List.getElem?_eq_getElem (by omega)⟩
    obtain ⟨log', howned'⟩ := (getData_built build _).owned howned
    rw [after_take_succ hbuild]
    refine ⟨log', howned'.count, howned'.cached, ?_⟩
    rintro key oid ⟨i, hi, hreported⟩ hf
    apply howned'.shown key oid _ hf
    rcases Nat.lt_succ_iff_lt_or_eq.mp hi with hlt | rfl
    · exact .inl ⟨i, hlt, hreported⟩
    · obtain ⟨build', hbuild', hmem⟩ := hreported
      rw [hbuild] at hbuild'
      cases hbuild'
      exact .inr hmem

/-- Every run has a log that accounts for its cache, its counter and all its reports. -/
theorem after_owned (builds : List Build) :
    ∃ log, Owned log (after builds) fun key oid => ∃ i, Reported builds i key oid := by
  obtain ⟨log, howned⟩ := take_owned builds le_rfl
  rw [List.take_length] at howned
  refine ⟨log, howned.count, howned.cached, ?_⟩
  rintro key oid ⟨i, hreported⟩ hf
  obtain ⟨build, hbuild, _⟩ := id hreported
  exact howned.shown key oid ⟨i, (List.getElem?_eq_some_iff.mp hbuild).1, hreported⟩ hf

theorem ofNat_injOn {n : Nat} (hn : n < UInt32.size) :
    Set.InjOn UInt32.ofNat (Set.Ico firstOid n) := by
  intro a ha b hb hab
  have hval := congrArg UInt32.toNat hab
  rwa [UInt32.toNat_ofNat_of_lt' (lt_trans ha.2 hn),
    UInt32.toNat_ofNat_of_lt' (lt_trans hb.2 hn)] at hval

theorem toInt32_injective {a b : UInt32} (h : a.toInt32 = b.toInt32) : a = b := by
  rw [← UInt32.toUInt32_toInt32 a, h, UInt32.toUInt32_toInt32]

/-- While the counter has not wrapped, no OID it handed out was reported for two keys. -/
theorem reported_key_eq {builds : List Build} (hwrap : (after builds).oidCounter.NotWrapped)
    {i j : Nat} {key key' : OidCacheKey} {oid : Int32} (hi : Reported builds i key oid)
    (hj : Reported builds j key' oid) (hf : fixedOid key = none) (hf' : fixedOid key' = none) :
    key = key' := by
  obtain ⟨log, howned⟩ := after_owned builds
  have hlt : firstOid + log.length < UInt32.size := howned.count ▸ hwrap
  obtain ⟨issued, hissued, heq⟩ := howned.shown key oid ⟨i, hi⟩ hf
  obtain ⟨issued', hissued', heq'⟩ := howned.shown key' oid ⟨j, hj⟩ hf'
  have hsame : issued = issued' := toInt32_injective (heq.symm.trans heq')
  exact hissued.unique (ofNat_injOn hlt) (hsame ▸ hissued')

/-- An OID from the counter is not below the value that the counter starts with. -/
theorem firstOid_le_of_reported {builds : List Build}
    (hwrap : (after builds).oidCounter.NotWrapped) {i : Nat} {key : OidCacheKey} {oid : Int32}
    (hi : Reported builds i key oid) (hf : fixedOid key = none) :
    firstOid ≤ oid.toUInt32.toNat := by
  obtain ⟨log, howned⟩ := after_owned builds
  have hlt : firstOid + log.length < UInt32.size := howned.count ▸ hwrap
  obtain ⟨issued, hissued, rfl⟩ := howned.shown key oid ⟨i, hi⟩ hf
  obtain ⟨n, hbase, hn, rfl⟩ := hissued.bounds
  rw [UInt32.toUInt32_toInt32, UInt32.toNat_ofNat_of_lt' (lt_trans hn hlt)]
  exact hbase

/-- While the counter has not wrapped, cached OIDs without a fixed value come from the
range already issued, and neither the cache nor the reports share one between two keys. -/
theorem oids_unique (builds : List Build) (hwrap : (after builds).oidCounter.NotWrapped) :
    (∀ key oid, (after builds).oidCache.get key = some oid → fixedOid key = none →
      16384 ≤ oid ∧ oid < (after builds).oidCounter.load) ∧
    (∀ key key' oid, (after builds).oidCache.get key = some oid →
      (after builds).oidCache.get key' = some oid →
      fixedOid key = none → fixedOid key' = none → key = key') ∧
    (∀ i j key key' oid, Reported builds i key oid → Reported builds j key' oid →
      fixedOid key = none → fixedOid key' = none → key = key') := by
  obtain ⟨log, howned⟩ := after_owned builds
  have hlt : firstOid + log.length < UInt32.size := howned.count ▸ hwrap
  have hinj := ofNat_injOn hlt
  refine ⟨?_, ?_, ?_⟩
  · intro key oid hget hf
    obtain ⟨n, hbase, hn, rfl⟩ := (howned.cached key oid hget hf).bounds
    have hval : (UInt32.ofNat n).toNat = n := UInt32.toNat_ofNat_of_lt' (lt_trans hn hlt)
    constructor
    · rw [UInt32.le_iff_toNat_le, hval]
      exact hbase
    · rw [UInt32.lt_iff_toNat_lt, hval, AtomicU32.load, howned.count,
        UInt32.toNat_ofNat_of_lt' hlt]
      exact hn
  · intro key key' oid hget hget' hf hf'
    exact (howned.cached key oid hget hf).unique hinj (howned.cached key' oid hget' hf')
  · intro i j key key' oid hi hj hf hf'
    exact reported_key_eq hwrap hi hj hf hf'

/-- The table is dropped while a build fails, and another one is created. -/
def replacedTable : List Build :=
  [⟨.pgClass, userTable, fun _ => none⟩,
    ⟨.pgNamespace, { userTable with tableNames := fun _ _ => some [] },
      fun _ => some ⟨"catalog is gone"⟩⟩,
    ⟨.pgClass, { userTable with tableNames := fun _ schema =>
      if schema = "public" then some ["u"] else none }, fun _ => none⟩]

theorem replacedTable_not_reused :
    (16387 : Oid) ≤ (after replacedTable).oidCounter.load ∧
      ∀ oid, Reported replacedTable 0 (.table "datafusion" "public" "t") oid →
        ¬ Reported replacedTable 2 (.table "datafusion" "public" "u") oid := by
  refine ⟨by decide, fun oid hfirst hlast => ?_⟩
  have hkeys := (oids_unique replacedTable (by decide)).2.2 0 2 _ _ oid hfirst hlast rfl rfl
  exact absurd hkeys (by decide)

end PgCatalogSchemaProvider
end DatafusionPostgres.PgCatalog
