import Rektifier.KeyCondition

namespace Rektifier

structure IndexColumn where
  pgCol : String
  keyType : KeyType
deriving DecidableEq

/-- The columns an index puts in place of the base table's. -/
structure IndexSort where
  indexName : String
  partitionOverride : Option IndexColumn
  sort : Option IndexColumn
deriving DecidableEq

def checkIndexServeable (name : String) (serveable : Bool) (reason : Option String) :
    Except TranslateError Unit :=
  if serveable then .ok ()
  else .error (.indexNotServeable name (reason.getD "not currently queryable"))

/-- The schema whose keys a request reads by. -/
def resolveIndexForQuery (schema : TableSchema) (indexName : Option String) :
    Except TranslateError (TableSchema × Option IndexSort) :=
  match indexName with
  | none => .ok (schema, none)
  | some name =>
    match schema.lsis.find? (·.name = name) with
    | some lsi => do
      checkIndexServeable name lsi.serveable lsi.unserveableReason
      return ({ schema with sk := some (lsi.sortAttr, lsi.sortType) },
        some ⟨name, none, some ⟨lsi.sortPgCol, lsi.sortType⟩⟩)
    | none =>
      match schema.gsis.find? (·.name = name) with
      | some gsi => do
        checkIndexServeable name gsi.serveable gsi.unserveableReason
        return ({ schema with
            pkAttr := gsi.partitionAttr
            pkType := gsi.partitionType
            sk := gsi.sort.map fun c => (c.attr, c.keyType) },
          some ⟨name, some ⟨gsi.partitionPgCol, gsi.partitionType⟩,
            gsi.sort.map fun c => ⟨c.col, c.keyType⟩⟩)
      | none => .error (.indexNotFound name)

def countOnly (select : Option String) (projection : Option (List String)) (hasIndex : Bool) :
    Except TranslateError Bool :=
  match select with
  | none | some "ALL_ATTRIBUTES" => .ok false
  | some "COUNT" => .ok true
  | some "SPECIFIC_ATTRIBUTES" =>
    if projection.isNone then
      .error (.invalidSelectMode "Select=SPECIFIC_ATTRIBUTES requires ProjectionExpression")
    else .ok false
  | some "ALL_PROJECTED_ATTRIBUTES" =>
    if hasIndex then .ok false
    else .error (.invalidSelectMode "Select=ALL_PROJECTED_ATTRIBUTES requires IndexName")
  | some other => .error (.unsupportedSelect other)

def resolveSelectAndProjection (select : Option String) (projection : Option (List String))
    (hasIndex : Bool) : Except TranslateError (Bool × Option (List String)) := do
  let count ← countOnly select projection hasIndex
  if count && projection.isSome then
    .error (.invalidSelectMode "Select=COUNT is not valid with ProjectionExpression")
  else .ok (count, projection)

/-- Expressions are parsed and substituted; a blank key condition is `none`. -/
structure QueryRequest where
  indexName : Option String
  keyCondition : Option Condition
  limit : Option Nat
  exclusiveStartKey : Option Item
  filter : Option Condition
  scanIndexForward : Option Bool
  select : Option String
  projection : Option (List String)

structure QueryPlan where
  pk : KeyValue
  skCondition : Option SkCondition
  limit : Option Nat
  eskSk : Option KeyValue
  filter : Option ConditionPlan
  forward : Bool
  selectCountOnly : Bool
  projection : Option (List String)
  indexSort : Option IndexSort

def translateLimit : Option Nat → Except TranslateError (Option Nat)
  | none => .ok none
  | some limit => (validateLimit limit).map some

def queryEsk (esk : Option Item) (effective : TableSchema) (pk : KeyValue) :
    Except TranslateError (Option KeyValue) :=
  match esk with
  | none => .ok none
  | some esk => decodeEsk esk effective pk

def requireKeyCondition (schema : TableSchema) : Option Condition → Except TranslateError Condition
  | none => .error (.keyConditionMissingPkEquality schema.pkAttr)
  | some cond => .ok cond

def translateQuery (req : QueryRequest) (schema : TableSchema) :
    Except TranslateError QueryPlan := do
  let cond ← requireKeyCondition schema req.keyCondition
  let (effective, indexSort) ← resolveIndexForQuery schema req.indexName
  let bounds ← extractKeyCondition cond effective
  let limit ← translateLimit req.limit
  let eskSk ← queryEsk req.exclusiveStartKey effective bounds.pk
  let filter ← translateCondition schema req.filter
  let (selectCountOnly, projection) ←
    resolveSelectAndProjection req.select req.projection indexSort.isSome
  return ⟨bounds.pk, bounds.skCondition, limit, eskSk, filter, req.scanIndexForward.getD true,
    selectCountOnly, projection, indexSort⟩

structure ScanRequest where
  indexName : Option String
  limit : Option Nat
  exclusiveStartKey : Option Item
  filter : Option Condition
  segment : Option Nat
  totalSegments : Option Nat
  select : Option String
  projection : Option (List String)

/-- `esk` holds `esk_pk` and `esk_sk`. -/
structure ScanPlan where
  limit : Option Nat
  esk : Option (KeyValue × Option KeyValue)
  filter : Option ConditionPlan
  selectCountOnly : Bool
  projection : Option (List String)
  indexSort : Option IndexSort

def checkNoSegments (req : ScanRequest) : Except TranslateError Unit :=
  if req.segment.isSome || req.totalSegments.isSome then
    .error (.scanFeatureNotSupported "Segment / TotalSegments (parallel scan)")
  else .ok ()

def scanEsk (esk : Option Item) (effective : TableSchema) :
    Except TranslateError (Option (KeyValue × Option KeyValue)) :=
  match esk with
  | none => .ok none
  | some esk => (decodeScanEsk esk effective).map some

def translateScan (req : ScanRequest) (schema : TableSchema) : Except TranslateError ScanPlan := do
  checkNoSegments req
  let (effective, indexSort) ← resolveIndexForQuery schema req.indexName
  let limit ← translateLimit req.limit
  let esk ← scanEsk req.exclusiveStartKey effective
  let filter ← translateCondition schema req.filter
  let (selectCountOnly, projection) ←
    resolveSelectAndProjection req.select req.projection indexSort.isSome
  return ⟨limit, esk, filter, selectCountOnly, projection, indexSort⟩

def buildIndexShape (schema : TableSchema) : Option IndexSort → TableShape
  | none => schema.shape
  | some idx =>
    let pk := match idx.partitionOverride with
      | some p => p
      | none => ⟨schema.pkAttr, schema.pkType⟩
    ⟨schema.pgTable, pk.pgCol, pk.keyType, idx.sort.map fun c => (c.pgCol, c.keyType),
      schema.jsonbCol, [], schema.rules⟩

/-- Orders by customer and time, with an index by status and time. -/
def statusSchema : TableSchema :=
  ⟨"orders", "rekt_t_orders", "customer", .s, some ("placed", .s), "data", [],
    [⟨"by-status", "status", .s, "status", some ⟨"placed", "placed", .s⟩, true, true, none⟩], .plain⟩

def orderItem (customer placed status : String) : Json :=
  .obj [("customer", .obj [("S", .str customer)]), ("placed", .obj [("S", .str placed)]),
    ("status", .obj [("S", .str status)])]

def statusIndex : IndexSort := ⟨"by-status", some ⟨"status", .s⟩, some ⟨"placed", .s⟩⟩

end Rektifier
