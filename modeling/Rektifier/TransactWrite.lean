import Rektifier.TransactPlan
import Rektifier.UpdateItem
import Rektifier.Writers

namespace Rektifier

def PgError.sqlstate : PgError → String
  | .invalidTextRepresentation _ => "22P02"
  | .cannotSetPath => "22023"
  | .undefinedParameter _ => "42P02"
  | .notNullViolation _ => "23502"
  | .uniqueViolation => "23505"
  | .multipleAssignments => "42601"
  | .generatedAlways _ => "428C9"
  | .undefinedColumn _ => "42703"
  | .datatypeMismatch _ => "42804"
  | .indexRowSize => "54000"
  -- of a text with U+0000; with too many parameters the client stops before the server answers
  | .unbindable => "22021"
  | .reported sqlstate => sqlstate

def mapPgErr (table : String) (e : PgError) : BackendError :=
  if e.sqlstate = "42P01" then .tableNotFound table else .pgError e

/-- Why the pool hands out no connection. -/
inductive PoolError where
  | timeout (waitedMs : Nat)
  | backend (reason : String)
  | closed
  | other (text : String)

def classifyPoolError : PoolError → BackendError
  | .timeout waitedMs => .poolExhausted waitedMs
  | .backend reason => .connectFailed reason
  | .closed => .connectFailed "pool closed"
  | .other text => .other ("pool get failed: " ++ text)

def putSql (shape : TableShape) : UpsertSql :=
  { prev := shape.keyPredicate 1
    insert := .param shape.insertParamIdx
    doUpdate := .param shape.insertParamIdx
    cols := shape.dualWriteCols }

section

variable (shape : TableShape) (t : PgTable shape.baseKey) (pk : KeyValue) (sk : Option KeyValue)

def putItemInsideTx (item : Json) :
    Except BackendError (PgTable shape.baseKey × Option Json) := do
  checkSkShape shape sk
  let (t, _, old) ← pgResult ((putSql shape).exec (keyParams pk sk ++ [.jsonb item]) t)
  return (t, old)

/-- `DELETE … WHERE key RETURNING data`. -/
def execDelete : Except BackendError (PgTable shape.baseKey × Option Json) := do
  let k ← pgResult ((shape.keyPredicate 1).eval shape.baseKey (keyParams pk sk))
  return (t.deleteRow k, (t.rows k).map PgRow.data)

def deleteItemInsideTx : Except BackendError (PgTable shape.baseKey × Option Json) := do
  checkSkShape shape sk
  execDelete shape t pk sk

def checkHolds (condition : Option Json → Bool) (existing : Option Json) :
    Except BackendError Unit :=
  if condition existing then .ok () else .error .conditionalCheckFailed

/-- The row count is not looked at. -/
def putWithConditionInsideTx (item : Json) (condition : Option Json → Bool) :
    Except BackendError (PgTable shape.baseKey × Option Json) := do
  checkSkShape shape sk
  let existing ← selectForUpdate shape t pk sk
  checkHolds condition existing
  let written ← writeLocked shape t pk sk existing item
  return (written.getD t, existing)

def deleteIfFound (existing : Option Json) : Except BackendError (PgTable shape.baseKey) :=
  if existing.isSome then (execDelete shape t pk sk).map Prod.fst else .ok t

def deleteWithConditionInsideTx (condition : Option Json → Bool) :
    Except BackendError (PgTable shape.baseKey × Option Json) := do
  checkSkShape shape sk
  let existing ← selectForUpdate shape t pk sk
  checkHolds condition existing
  let t ← deleteIfFound shape t pk sk existing
  return (t, existing)

def conditionCheckInsideTx (condition : Option Json → Bool) :
    Except BackendError (Option Json) := do
  checkSkShape shape sk
  let existing ← selectForUpdate shape t pk sk
  checkHolds condition existing
  return existing

def requireApply : UpdateDecision → Except BackendError Json
  | .fail => .error .conditionalCheckFailed
  | .apply newItem => .ok newItem

def requireWritten {α : Type} : Option α → Except BackendError α
  | some a => .ok a
  | none => .error .conditionalCheckFailed

def updateGeneralRmwInsideTx (apply : Option Json → Except BackendError UpdateDecision) :
    Except BackendError (PgTable shape.baseKey × UpdateOutcome) := do
  checkSkShape shape sk
  let existing ← selectForUpdate shape t pk sk
  let newItem ← requireApply (← apply existing)
  let t ← requireWritten (← writeLocked shape t pk sk existing newItem)
  return (t, ⟨newItem, existing⟩)

end

inductive TransactAction where
  | put (item : Json) (condition : Option (Option Json → Bool))
  | delete (condition : Option (Option Json → Bool))
  | conditionCheck (condition : Option Json → Bool)
  | update (apply : Option Json → Except BackendError UpdateDecision)

structure TransactWriteOp where
  tableName : String
  pk : KeyValue
  sk : Option KeyValue
  action : TransactAction

/-- One table for every name a schema is declared under. -/
abbrev Database (m : SchemaMap) := ∀ name, (m.schema name).Table

def TransactAction.run (shape : TableShape) (t : PgTable shape.baseKey) (pk : KeyValue)
    (sk : Option KeyValue) : TransactAction → Except BackendError (PgTable shape.baseKey)
  | .put item none => (putItemInsideTx shape t pk sk item).map Prod.fst
  | .put item (some cond) => (putWithConditionInsideTx shape t pk sk item cond).map Prod.fst
  | .delete none => (deleteItemInsideTx shape t pk sk).map Prod.fst
  | .delete (some cond) => (deleteWithConditionInsideTx shape t pk sk cond).map Prod.fst
  | .conditionCheck cond => (conditionCheckInsideTx shape t pk sk cond).map fun _ => t
  | .update apply => (updateGeneralRmwInsideTx shape t pk sk apply).map Prod.fst

/-- What goes wrong around a transaction: no connection, BEGIN, the statements of an operation, and
COMMIT, which may have taken effect although its reply is an error. -/
structure TxFaults where
  client : Option PoolError
  start : Option PgError
  operation : Nat → Option PgError
  commit : Option (PgError × Bool)

variable {m : SchemaMap}

def TransactWriteOp.run (db : Database m) (op : TransactWriteOp) (fault : Option PgError) :
    Except BackendError (Database m) :=
  match fault with
  | some e => .error (mapPgErr op.tableName e)
  | none => (op.action.run (m.schema op.tableName).writeShape (db op.tableName) op.pk op.sk).map
      (Function.update db op.tableName)

/-- In order, up to the first that fails. -/
def runOps (faults : Nat → Option PgError) :
    Nat → Database m → List TransactWriteOp → Except (Nat × BackendError) (Database m)
  | _, db, [] => .ok db
  | i, db, op :: ops =>
    match op.run db (faults i) with
    | .error e => .error (i, e)
    | .ok db => runOps faults (i + 1) db ops

/-- Texts from PostgreSQL and from the evaluator. -/
structure ErrorTexts where
  pg : PgError → String
  eval : EvalError → String

def BackendError.text (texts : ErrorTexts) : BackendError → String
  | .tableNotFound name => "table not found: " ++ name
  | .missingSortKey name =>
    "sort key required for composite table \x60" ++ name ++ "\x60 but caller passed None"
  | .unexpectedSortKey name => "sort key passed for hash-only table \x60" ++ name ++ "\x60"
  | .conditionalCheckFailed => "the conditional request failed"
  | .poolExhausted waited => "PG connection pool exhausted (waited " ++ toString waited ++ " ms)"
  | .connectFailed reason => "PG connection failed: " ++ reason
  | .pgError e => "PG error (" ++ e.sqlstate ++ "): " ++ texts.pg e
  | .transactionCancelled _ => "transaction cancelled"
  | .evalFailed e => "storage error: UpdateExpression eval failed: " ++ texts.eval e
  | .other message => "storage error: " ++ message

def classifyForCancel (texts : ErrorTexts) : BackendError → String × String
  | .conditionalCheckFailed => ("ConditionalCheckFailed", "The conditional request failed")
  | .pgError e =>
    (if e.sqlstate = "40001" || e.sqlstate = "40P01" then "TransactionConflict"
      else "InternalServerError", "PG error (" ++ e.sqlstate ++ "): " ++ texts.pg e)
  | .tableNotFound name => ("ResourceNotFound", "Table not found: " ++ name)
  | other => ("InternalServerError", other.text texts)

def intoCancelled (texts : ErrorTexts) (err : BackendError) (failedIdx n : Nat) : BackendError :=
  let (code, message) := classifyForCancel texts err
  .transactionCancelled ((List.replicate n ⟨"None", none, none⟩).set failedIdx
    ⟨code, some message, none⟩)

/-- The state left and what is returned; a transaction that does not commit is rolled back. -/
def transactWriteRaw (texts : ErrorTexts) (faults : TxFaults) (db : Database m)
    (items : List TransactWriteOp) : Database m × Except BackendError Unit :=
  match faults.client with
  | some e => (db, .error (classifyPoolError e))
  | none => match faults.start with
    | some e => (db, .error (mapPgErr "<transact>" e))
    | none => match runOps faults.operation 0 db items with
      | .error (i, e) => (db, .error (intoCancelled texts e i items.length))
      | .ok db' => match faults.commit with
        | none => (db', .ok ())
        | some (e, true) => (db', .error (mapPgErr "<transact>" e))
        | some (e, false) => (db, .error (mapPgErr "<transact>" e))

def conditionFn (plan : ConditionPlan) (existing : Option Json) : Bool :=
  evaluateCondition existing plan.condition

def updateFn (condition : Option ConditionPlan) (expression : UpdateExpression) (key : Item)
    (existing : Option Json) : Except BackendError UpdateDecision :=
  if condition.any fun c => !conditionFn c existing then .ok .fail
  else match applyUpdateExpression existing expression key with
    | .ok newItem => .ok (.apply newItem)
    | .error e => .error (.evalFailed e)

/-- `none` is the panic of a condition check without a condition. -/
def TransactWritePlanItem.op? (p : TransactWritePlanItem) : Option TransactWriteOp :=
  let condition := p.condition.map conditionFn
  match p.kind with
  | .put item => some ⟨p.tableName, p.pk, p.sk, .put (Item.toValue item) condition⟩
  | .delete => some ⟨p.tableName, p.pk, p.sk, .delete condition⟩
  | .conditionCheck => condition.map fun cond => ⟨p.tableName, p.pk, p.sk, .conditionCheck cond⟩
  | .update expression key =>
    some ⟨p.tableName, p.pk, p.sk, .update (updateFn p.condition expression key)⟩

/-- Past its table gate; `none` is a panic. -/
def handleTransactWriteItems (texts : ErrorTexts) (faults : TxFaults) (maxItems : Nat)
    (db : Database m) (req : TransactWriteItemsRequest) :
    Option (Database m × Except ApiError Unit) :=
  match translateTransactWriteItems req m maxItems with
  | .error e => some (db, .error (.translate e))
  | .ok plans => (plans.mapM TransactWritePlanItem.op?).map fun ops =>
    let (db', r) := transactWriteRaw texts faults db ops
    (db', stored r)

end Rektifier
