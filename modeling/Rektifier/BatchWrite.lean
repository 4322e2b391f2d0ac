import Rektifier.TransactWrite

namespace Rektifier

/-- The item to put, or the key to delete. -/
structure WriteRequest where
  putRequest : Option Item
  deleteRequest : Option Item

/-- By table, in the order the map is walked. -/
structure BatchWriteItemRequest where
  requestItems : List (String × List WriteRequest)
  tables : (requestItems.map Prod.fst).Nodup

inductive WriteOp where
  | put (pk : KeyValue) (sk : Option KeyValue) (item : Json)
  | delete (pk : KeyValue) (sk : Option KeyValue)

def WriteOp.key : WriteOp → KeyValue × Option KeyValue
  | .put pk sk _ => (pk, sk)
  | .delete pk sk => (pk, sk)

structure BatchWritePerTable where
  tableName : String
  ops : List WriteOp

def checkNewKey (seen : List (KeyValue × Option KeyValue)) (key : KeyValue × Option KeyValue) :
    Except TranslateError Unit :=
  if key ∈ seen then .error .duplicateKeyInBatch else .ok ()

/-- Exactly one of the two. -/
def translateWrite (schema : TableSchema) (seen : List (KeyValue × Option KeyValue))
    (w : WriteRequest) : Except TranslateError WriteOp :=
  match w.putRequest, w.deleteRequest with
  | some item, none => do
    let (pk, sk) ← extractKeyPair item schema
    checkNewKey seen (pk, sk)
    return .put pk sk (Item.toValue item)
  | none, some key => do
    let (pk, sk) ← extractKeyPair key schema
    rejectExtraKeyAttrs key schema
    checkNewKey seen (pk, sk)
    return .delete pk sk
  | _, _ => .error .malformedWriteRequest

def translateWrites (schema : TableSchema) : List (KeyValue × Option KeyValue) →
    List WriteRequest → Except TranslateError (List WriteOp)
  | _, [] => .ok []
  | seen, w :: rest => do
    let op ← translateWrite schema seen w
    let ops ← translateWrites schema (op.key :: seen) rest
    return op :: ops

def SchemaMap.getForBatch (m : SchemaMap) (name : String) : Except TranslateError TableSchema :=
  if m.known name then .ok (m.schema name) else .error (.resourceNotFoundForBatch name)

def checkWrites (table : String) (writes : List WriteRequest) : Except TranslateError Unit :=
  if writes.isEmpty then .error (.emptyWritesInBatch table) else .ok ()

def translateTable (m : SchemaMap) (entry : String × List WriteRequest) :
    Except TranslateError BatchWritePerTable := do
  let schema ← m.getForBatch entry.1
  checkWrites entry.1 entry.2
  let ops ← translateWrites schema [] entry.2
  return ⟨entry.1, ops⟩

def checkBatchCount (req : BatchWriteItemRequest) (maxWrites : Nat) :
    Except TranslateError Unit :=
  let total := (req.requestItems.map fun entry => entry.2.length).sum
  if req.requestItems.isEmpty then .error .emptyBatchWriteRequest
  else if maxWrites < total then .error (.tooManyWritesInBatch total maxWrites)
  else .ok ()

def translateBatchWriteItem (req : BatchWriteItemRequest) (m : SchemaMap) (maxWrites : Nat) :
    Except TranslateError (List BatchWritePerTable) := do
  checkBatchCount req maxWrites
  req.requestItems.mapM (translateTable m)

def WriteOp.put? : WriteOp → Option Json
  | .put _ _ item => some item
  | .delete _ _ => none

def WriteOp.delete? : WriteOp → Option (KeyValue × Option KeyValue)
  | .put _ _ _ => none
  | .delete pk sk => some (pk, sk)

/-- One row of the upsert; no row may be touched twice in one statement. -/
def putRow {bk : BaseKey} (cols : List DualWriteCol) (acc : PgTable bk × List PgKey) (item : Json) :
    Except PgError (PgTable bk × List PgKey) := do
  let t ← putItem cols acc.1 item
  let k ← generatedKey bk item
  if k ∈ acc.2 then throw (.reported "21000")
  return (t, k :: acc.2)

section

variable (shape : TableShape) (t : PgTable shape.baseKey)

/-- `INSERT … VALUES (…), (…) ON CONFLICT (key) DO UPDATE SET data = EXCLUDED.data, cols…`. -/
def putRows (items : List Json) : Except PgError (PgTable shape.baseKey) :=
  (items.foldlM (putRow shape.dualWriteCols) (t, [])).map Prod.fst

/-- One parameter for each item. -/
def executePuts (puts : List Json) : Except PgError (PgTable shape.baseKey) := do
  bindParams (puts.map .jsonb)
  putRows shape t puts

/-- Hash keys are bound as one array, composite keys part by part. -/
def keysBindable (keys : List (KeyValue × Option KeyValue)) : Bool :=
  (keys.length * 2 ≤ 65535 || shape.sk.isNone) &&
    keys.all fun k => (keyParams k.1 k.2).all Param.bindable

def bindKeyValues (keys : List (KeyValue × Option KeyValue)) : Except PgError Unit :=
  if keysBindable shape keys then .ok () else .error .unbindable

/-- `DELETE … WHERE key = ANY(keys)`, all keys cast first. -/
def executeDeletes (deletes : List (KeyValue × Option KeyValue)) :
    Except PgError (PgTable shape.baseKey) := do
  bindKeyValues shape deletes
  let keys ← deletes.mapM fun d =>
    (shape.keyPredicate 1).eval shape.baseKey (keyParams d.1 d.2)
  return keys.foldl PgTable.deleteRow t

def batchStatement {α : Type} (fault : Option PgError) (work : List α)
    (run : List α → Except PgError (PgTable shape.baseKey)) :
    Except BackendError (PgTable shape.baseKey) :=
  if work.isEmpty then .ok t
  else match fault with
    | some e => .error (mapPgErr shape.table e)
    | none => (run work).mapError (mapPgErr shape.table)

def runBatch (faults : Nat → Option PgError) (ops : List WriteOp) :
    Except BackendError (PgTable shape.baseKey) := do
  let t ← batchStatement shape t (faults 0) (ops.filterMap WriteOp.put?) (executePuts shape t)
  batchStatement shape t (faults 1) (ops.filterMap WriteOp.delete?) (executeDeletes shape t)

def batchWriteRaw (faults : TxFaults) (ops : List WriteOp) :
    PgTable shape.baseKey × Except BackendError Unit :=
  if ops.isEmpty then (t, .ok ())
  else match ops.forM fun op => checkSkShape shape op.key.2 with
    | .error e => (t, .error e)
    | .ok () => match faults.client with
      | some e => (t, .error (classifyPoolError e))
      | none => match faults.start with
        | some e => (t, .error (mapPgErr shape.table e))
        | none => match runBatch shape t faults.operation ops with
          | .error e => (t, .error e)
          | .ok t' => match faults.commit with
            | none => (t', .ok ())
            | some (e, true) => (t', .error (mapPgErr shape.table e))
            | some (e, false) => (t, .error (mapPgErr shape.table e))

end

variable {m : SchemaMap}

/-- Each table in its own transaction, up to the first that fails. -/
def writeTables (faults : String → TxFaults) :
    Database m → List BatchWritePerTable → Database m × Except BackendError Unit
  | db, [] => (db, .ok ())
  | db, plan :: plans =>
    match batchWriteRaw (m.schema plan.tableName).writeShape (db plan.tableName)
        (faults plan.tableName) plan.ops with
    | (t, .ok ()) => writeTables faults (Function.update db plan.tableName t) plans
    | (t, .error e) => (Function.update db plan.tableName t, .error e)

def handleBatchWriteItem (faults : String → TxFaults) (maxWrites : Nat) (db : Database m)
    (req : BatchWriteItemRequest) : Database m × Except ApiError Unit :=
  match translateBatchWriteItem req m maxWrites with
  | .error e => (db, .error (.translate e))
  | .ok plans =>
    let (db', r) := writeTables faults db plans
    (db', stored r)

end Rektifier
