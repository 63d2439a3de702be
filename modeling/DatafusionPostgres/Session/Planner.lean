import DatafusionPostgres.Session.Engine

/-! `datafusion-postgres/src/planner.rs` and `ordered_param_types`: the types of the
placeholders of a plan. -/
namespace DatafusionPostgres.Session
open ArrowPg Library PgCatalog

structure CastTypes where
  placeholderTypes : HashMap String (Option DataType)
  castedPlaceholders : List String

def CastTypes.visit (found : CastTypes) : PlaceholderVisit → CastTypes
  | .cast id dataType =>
    { placeholderTypes := found.placeholderTypes.insert id (some dataType)
      castedPlaceholders := id :: found.castedPlaceholders }
  | .placeholder id =>
    if !found.castedPlaceholders.contains id && !found.placeholderTypes.containsKey id then
      { found with placeholderTypes := found.placeholderTypes.insert id none }
    else found

def extractPlaceholderCastTypes (E : Engine) (plan : E.Plan) :
    Except DataFusionError (HashMap String (Option DataType)) := do
  let visits ← E.placeholderVisits plan
  return (visits.foldl CastTypes.visit ⟨.empty, []⟩).placeholderTypes

/-- `entry(id).and_modify(…).or_insert(…)`: a known type stays. -/
def mergeCastType (merged : HashMap String (Option DataType)) (id : String)
    (optType : Option DataType) : HashMap String (Option DataType) :=
  match merged.get id with
  | some (some _) => merged
  | some none => merged.insert id optType
  | none => merged.insert id optType

def getInferredParameterTypes (E : Engine) (plan : E.Plan) :
    Except DataFusionError (HashMap String (Option DataType)) := do
  let paramTypes ← E.getParameterTypes plan
  let hasNone := paramTypes.keys.any fun id => (paramTypes.get id).join.isNone
  if !hasNone then return paramTypes
  else
    let castTypes ← extractPlaceholderCastTypes E plan
    return castTypes.keys.foldl (fun merged id => mergeCastType merged id (castTypes.get id).join)
      paramTypes

/-- The number in a placeholder such as `$1`. -/
def placeholderNumber (key : String) : Nat :=
  (parseUnsigned UInt32.size (key.toList.dropWhile (· == '$'))).getD (UInt32.size - 1)

def orderedParamTypes (types : HashMap String (Option DataType)) : List (Option DataType) :=
  let keys := types.keys.mergeSort fun k k' => placeholderNumber k ≤ placeholderNumber k'
  keys.map fun key => (types.get key).join

end DatafusionPostgres.Session
