import DatafusionPostgres.Library.StateProgram
import DatafusionPostgres.PgCatalog.Builders

/-! Builds of system tables in which a call on the catalog list fails. -/
namespace DatafusionPostgres.PgCatalog
open Library

/-- The calls of a build in their order, when none of them fails. -/
def SystemTable.calls (content : CatalogList) : SystemTable → List CatalogCall
  | .pgClass =>
    .catalogNames :: content.catalogNames.flatMap fun c =>
      .schemaNames c :: (content.schemas c).flatMap fun s =>
        .tableNames c s :: (content.tables c s).flatMap fun t =>
          .tableSchema c s t ::
            if (content.tableSchema c s t).isSome then [.tableType c s t] else []
  | .pgAttribute =>
    .catalogNames :: content.catalogNames.flatMap fun c =>
      .schemaNames c :: (content.schemas c).flatMap fun s =>
        .tableNames c s :: (content.tables c s).map fun t => .tableSchema c s t
  | .pgNamespace => .catalogNames :: content.catalogNames.map .schemaNames
  | .pgDatabase => [.catalogNames]

/-- A build fails with the first of the calls that fails, and then leaves the cache as it was. -/
structure FailsClean {ρ : Type} (catalogList : CatalogInfo) (calls : List CatalogCall)
    (provider : PgCatalogSchemaProvider)
    (result : Except DataFusionError (List ρ) × PgCatalogSchemaProvider) : Prop where
  error_iff : ∀ error, result.1 = .error error ↔
    calls.findSome? catalogList.failure = some error
  oidCache : ∀ error, result.1 = .error error → result.2.oidCache = provider.oidCache

section Calls
variable {ρ : Type} {catalogList : CatalogInfo}

theorem fails_assign (oidCache : HashMap OidCacheKey Oid) (key : OidCacheKey) :
    Fails catalogList.failure [] (assign oidCache key : Builder ρ Oid) := Fails.modifyGet _

theorem fails_pushRow (row : ρ) : Fails catalogList.failure [] (pushRow row) := Fails.modifyGet _

theorem fails_answer {α : Type} {calls : List CatalogCall} (call : CatalogCall) {value : α}
    {next : α → Builder ρ PUnit} (hnext : Fails catalogList.failure calls (next value)) :
    Fails catalogList.failure (call :: calls) (liftExcept (catalogList.answer call value) >>= next) := by
  refine Fails.call ?_ hnext
  rw [CatalogInfo.answer]
  cases catalogList.failure call <;> rfl

theorem fails_forNames {calls : String → List CatalogCall} {body : String → Builder ρ PUnit}
    (hbody : ∀ name, Fails catalogList.failure (calls name) (body name))
    (names : Option (List String)) :
    Fails catalogList.failure ((names.getD []).flatMap calls) (forNames names body) := by
  cases names with
  | none => exact Fails.pure _
  | some names => exact Fails.forM hbody names

theorem failsClean_getDataWith {calls : List CatalogCall}
    {collect : HashMap OidCacheKey Oid → Builder ρ PUnit}
    (hcollect : ∀ oidCache, Fails catalogList.failure calls (collect oidCache))
    (reconcile : HashMap OidCacheKey Oid → HashMap OidCacheKey Oid → HashMap OidCacheKey Oid)
    (provider : PgCatalogSchemaProvider) :
    FailsClean catalogList calls provider (getDataWith collect reconcile provider) := by
  have hrun := hcollect provider.oidCache ⟨provider.oidCounter, .empty, []⟩
  unfold getDataWith
  cases hc : collect provider.oidCache ⟨provider.oidCounter, .empty, []⟩ with
  | ok _ work =>
    rw [hc] at hrun
    exact ⟨fun error => iff_of_false nofun fun h => (nomatch hrun.symm.trans h), nofun⟩
  | error error' work =>
    rw [hc] at hrun
    refine ⟨fun error => ?_, fun _ _ => rfl⟩
    rw [hrun, Option.some_inj]
    exact ⟨Except.error.inj, congrArg _⟩

end Calls

section Builds
variable (catalogList : CatalogInfo) (oidCache : HashMap OidCacheKey Oid)

theorem PgClassTable.fails_collect :
    Fails catalogList.failure (SystemTable.pgClass.calls catalogList.content)
      (PgClassTable.collect catalogList oidCache) := by
  rw [SystemTable.calls]
  apply fails_answer
  refine Fails.forM (fun c => ?_) _
  apply (fails_assign oidCache _).bind_silent
  intro _
  apply fails_answer
  refine fails_forNames (fun s => ?_) _
  apply (fails_assign oidCache _).bind_silent
  intro schemaOid
  apply fails_answer
  refine fails_forNames (fun t => ?_) _
  apply (fails_assign oidCache _).bind_silent
  intro tableOid
  apply fails_answer
  cases catalogList.content.tableSchema c s t with
  | none => exact Fails.pure _
  | some tableSchema =>
    apply fails_answer
    exact fails_pushRow _

theorem PgAttributeTable.fails_collect :
    Fails catalogList.failure (SystemTable.pgAttribute.calls catalogList.content)
      (PgAttributeTable.collect catalogList oidCache) := by
  rw [SystemTable.calls]
  apply fails_answer
  refine Fails.forM (fun c => ?_) _
  apply fails_answer
  refine fails_forNames (fun s => ?_) _
  rw [List.map_eq_flatMap]
  apply fails_answer
  refine fails_forNames (fun t => ?_) _
  apply (fails_assign oidCache _).bind_silent
  intro tableOid
  apply fails_answer
  cases catalogList.content.tableSchema c s t with
  | none => exact Fails.pure _
  | some tableSchema => exact Fails.forM_silent (fun _ => fails_pushRow _) _

theorem PgNamespaceTable.fails_collect :
    Fails catalogList.failure (SystemTable.pgNamespace.calls catalogList.content)
      (PgNamespaceTable.collect catalogList oidCache) := by
  rw [SystemTable.calls, List.map_eq_flatMap]
  apply fails_answer
  refine Fails.forM (fun c => ?_) _
  apply fails_answer
  cases catalogList.content.schemaNames c with
  | none => exact Fails.pure _
  | some schemaNames =>
    exact Fails.forM_silent
      (fun s => (fails_assign oidCache _).bind_silent fun _ => fails_pushRow _) _

theorem PgDatabaseTable.fails_collect :
    Fails catalogList.failure (SystemTable.pgDatabase.calls catalogList.content)
      (PgDatabaseTable.collect catalogList oidCache) := by
  have hcatalog : ∀ c, Fails catalogList.failure [] (PgDatabaseTable.visitCatalog oidCache c) :=
    fun c => (fails_assign oidCache _).bind_silent fun _ => fails_pushRow _
  rw [SystemTable.calls]
  apply fails_answer
  apply (Fails.forM_silent hcatalog _).bind_silent
  intro _
  apply Fails.get.bind_silent
  intro work
  split
  · exact Fails.pure _
  · exact hcatalog _

/-- Every builder returns the error of the first call that fails, and the cache is then the one
that it found. -/
theorem getData_failsClean (provider : PgCatalogSchemaProvider) :
    FailsClean catalogList (SystemTable.pgClass.calls catalogList.content) provider
        (PgClassTable.getData catalogList provider) ∧
      FailsClean catalogList (SystemTable.pgAttribute.calls catalogList.content) provider
        (PgAttributeTable.getData catalogList provider) ∧
      FailsClean catalogList (SystemTable.pgNamespace.calls catalogList.content) provider
        (PgNamespaceTable.getData catalogList provider) ∧
      FailsClean catalogList (SystemTable.pgDatabase.calls catalogList.content) provider
        (PgDatabaseTable.getData catalogList provider) :=
  ⟨failsClean_getDataWith (PgClassTable.fails_collect catalogList) _ provider,
    failsClean_getDataWith (PgAttributeTable.fails_collect catalogList) _ provider,
    failsClean_getDataWith (PgNamespaceTable.fails_collect catalogList) _ provider,
    failsClean_getDataWith (PgDatabaseTable.fails_collect catalogList) _ provider⟩

end Builds
end DatafusionPostgres.PgCatalog
