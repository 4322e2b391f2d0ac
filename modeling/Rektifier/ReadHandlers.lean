import Rektifier.IndexRead
import Rektifier.EvalCondition

namespace Rektifier

structure QueryResponse where
  items : List Json
  count : Nat
  scannedCount : Nat
  lastEvaluatedKey : Option Item

abbrev ScanResponse := QueryResponse

def pruneToProjection (keep : List String) : Json → Json
  | .obj members => .obj (members.filter fun e => e.1 ∈ keep)
  | other => other

def itemsToResponse (rows : List Json) (countOnly : Bool) (projection : Option (List String)) :
    List Json :=
  if countOnly then []
  else match projection with
    | none => rows
    | some keep => rows.map (pruneToProjection keep)

def filterFn (filter : Option ConditionPlan) : Option (Json → Bool) :=
  filter.map fun cp row => evaluateCondition (some row) cp.condition

/-- A start key without sort value still counts as one. -/
def QueryPlan.eskPair (plan : QueryPlan) (req : QueryRequest) :
    Option (KeyValue × Option KeyValue) :=
  (plan.eskSk.map fun sk => (plan.pk, some sk)).or
    (req.exclusiveStartKey.map fun _ => (plan.pk, none))

/-- The last key is named after the base table's keys. -/
def pageResponse (schema : TableSchema) (countOnly : Bool) (projection : Option (List String))
    (outcome : QueryOutcome) : QueryResponse :=
  { items := itemsToResponse outcome.items countOnly projection
    count := outcome.count
    scannedCount := outcome.scannedCount
    lastEvaluatedKey := outcome.lastEvaluatedKey.map fun key => encodeLek key.1 key.2 schema }

section

variable [LinearOrder PgValue]

def runQuery (schema : TableSchema) (req : QueryRequest) (plan : QueryPlan)
    (order : RowSort (queryRank (buildIndexShape schema plan.indexSort) plan.forward))
    (rows : List (ShapeRow (buildIndexShape schema plan.indexSort))) :
    Except BackendError QueryOutcome :=
  queryRaw order rows plan.pk plan.skCondition plan.limit (plan.eskPair req) (filterFn plan.filter)

def handleQuery (schema : TableSchema) (req : QueryRequest) (plan : QueryPlan)
    (order : RowSort (queryRank (buildIndexShape schema plan.indexSort) plan.forward))
    (rows : List (ShapeRow (buildIndexShape schema plan.indexSort))) :
    Except BackendError QueryResponse :=
  (runQuery schema req plan order rows).map
    (pageResponse schema plan.selectCountOnly plan.projection)

def runScan (schema : TableSchema) (plan : ScanPlan)
    (order : RowSort (scanRank (buildIndexShape schema plan.indexSort)))
    (rows : List (ShapeRow (buildIndexShape schema plan.indexSort))) :
    Except BackendError ScanOutcome :=
  scanRaw order rows (filterFn plan.filter) plan.limit plan.esk

def handleScan (schema : TableSchema) (plan : ScanPlan)
    (order : RowSort (scanRank (buildIndexShape schema plan.indexSort)))
    (rows : List (ShapeRow (buildIndexShape schema plan.indexSort))) :
    Except BackendError ScanResponse :=
  (runScan schema plan order rows).map
    (pageResponse schema plan.selectCountOnly plan.projection)

end

end Rektifier
