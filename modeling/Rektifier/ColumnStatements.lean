import Rektifier.BatchWrite
import Rektifier.PathLiteral

namespace Rektifier

open SqlLiteral

def TableShape.dataRef (shape : TableShape) : String :=
  quoteIdent shape.table ++ "." ++ quoteIdent shape.jsonbCol

def JsonbExpr.text (dataRef : String) : JsonbExpr → String
  | data => dataRef
  | param value => "$" ++ toString value ++ "::jsonb"
  | set e name value => "jsonb_set(" ++ e.text dataRef ++ ", ARRAY[$" ++ toString name
      ++ "::text], $" ++ toString value ++ "::jsonb)"
  | remove e name => "(" ++ e.text dataRef ++ ") - $" ++ toString name ++ "::text"

/-- What the expressions of a VALUES row or a SET list see: the parameters, and the items of the
present and of the proposed row. -/
structure ClauseEnv where
  params : List Param
  stored : Json
  excluded : Json

inductive ItemExpr where
  | jsonb (e : JsonbExpr)
  /-- `EXCLUDED.data` -/
  | excluded

def ItemExpr.eval (env : ClauseEnv) : ItemExpr → Except PgError Json
  | jsonb e => e.eval env.params env.stored
  | excluded => .ok env.excluded

inductive ColumnExpr where
  /-- `dual_write_extract_expr` -/
  | extract (itemParam : Nat)
  /-- `dual_write_set_from_param` -/
  | setFromParam (param : Nat)
  /-- `dual_write_set_excluded` -/
  | setExcluded
  /-- `dual_write_set_from_expr` -/
  | setFromExpr (newJsonb : JsonbExpr)

/-- The item it reads, which need not be the one the clause writes. -/
def ColumnExpr.source : ColumnExpr → ItemExpr
  | extract p | setFromParam p => .jsonb (.param p)
  | setExcluded => .excluded
  | setFromExpr e => .jsonb e

def ColumnExpr.site (shape : TableShape) : ColumnExpr → ExtractSite
  | extract p => .insertParam p
  | setFromParam p => .setFromParam p
  | setExcluded => .setExcluded shape.jsonbCol
  | setFromExpr e => .setFromExpr (e.text shape.dataRef)

/-- The value of the string constant in a site's text, if the text goes on behind it as meant. -/
def ExtractSite.constant (site : ExtractSite) (c : DualWriteCol) : Option (List Char) :=
  match (site.text c).toList.drop (site.frame c.col c.keyType).1.toList.length with
  | '\'' :: rest => match body '\'' rest with
    | some (content, after) =>
      if after = (site.frame c.col c.keyType).2.toList then some content else none
    | none => none
  | _ => none

def ColumnExpr.eval (shape : TableShape) (env : ClauseEnv) (c : DualWriteCol) (e : ColumnExpr) :
    Except PgError (Option PgValue) :=
  match (e.site shape).constant c with
  | none => .error (.reported "42601")
  | some content => match arrayIn content with
    | none => .error (.invalidTextRepresentation (String.ofList content))
    | some path => do
      let item ← e.source.eval env
      match (extractAt item path).bind Json.asStr with
      | none => return none
      | some s => return some (← castKey c.keyType s)

/-- A row of VALUES, or a SET list: the item and the dual-write columns. -/
structure RowClause where
  item : ItemExpr
  cols : List (DualWriteCol × ColumnExpr)

def assignColumns (shape : TableShape) (env : ClauseEnv) (cols : List (DualWriteCol × ColumnExpr))
    (start : String → Option PgValue) : Except PgError (String → Option PgValue) :=
  cols.foldlM (fun m a => do
    let v ← a.2.eval shape env a.1
    return Function.update m a.1.col v) start

def RowClause.version (shape : TableShape) (clause : RowClause) (env : ClauseEnv)
    (start : String → Option PgValue) : Except PgError PgRow := do
  let item ← clause.item.eval env
  let cols ← assignColumns shape env clause.cols start
  return ⟨item, cols⟩

/-- A statement under way: the table, and the keys and items it has written. -/
structure StatementRun (bk : BaseKey) where
  table : PgTable bk
  touched : List PgKey
  written : List Json

def StatementRun.store {bk : BaseKey} (r : StatementRun bk) (old : Option PgKey) (version : PgRow) :
    Except PgError (StatementRun bk) := do
  let k ← generatedCols bk version.data
  let t ← r.table.write old version
  return ⟨t, k :: r.touched, r.written ++ [version.data]⟩

/-- `[WITH prev …] INSERT INTO … VALUES …, … ON CONFLICT (key) DO UPDATE SET … | DO NOTHING`. -/
structure InsertStatement where
  prev : Option KeyPredicate
  values : List RowClause
  doUpdate : Option RowClause

/-- `UPDATE … SET … WHERE key [AND (cond)]`. -/
structure UpdateStatement where
  key : KeyPredicate
  set : RowClause
  cond : Option SqlCond

inductive WriteStatement where
  | insert (stmt : InsertStatement)
  | update (stmt : UpdateStatement)
  | delete (key : KeyPredicate)

section

variable (shape : TableShape) (params : List Param)

/-- Inserts the row, or takes the conflict branch; a row the statement has written may not be
updated. -/
def InsertStatement.place (stmt : InsertStatement) (r : StatementRun shape.baseKey) (k : PgKey)
    (proposed : PgRow) : Except PgError (StatementRun shape.baseKey) :=
  match r.table.rows k with
  | none => r.store none proposed
  | some old => match stmt.doUpdate with
    | none => .ok r
    | some set =>
      if k ∈ r.touched then .error (.reported "21000")
      else do
        let version ← set.version shape ⟨params, old.data, proposed.data⟩ old.cols
        r.store (some k) version

def InsertStatement.insertRow (stmt : InsertStatement) (r : StatementRun shape.baseKey)
    (row : RowClause) : Except PgError (StatementRun shape.baseKey) := do
  let proposed ← row.version shape ⟨params, .null, .null⟩ nullCols
  let k ← generatedCols shape.baseKey proposed.data
  stmt.place shape params r k proposed

/-- The key of the `prev` query; the row it finds is only returned. -/
def InsertStatement.checkPrev (stmt : InsertStatement) : Except PgError Unit :=
  match stmt.prev with
  | none => .ok ()
  | some prev => (prev.eval shape.baseKey params).map fun _ => ()

def InsertStatement.exec (stmt : InsertStatement) (t : PgTable shape.baseKey) :
    Except PgError (StatementRun shape.baseKey) := do
  stmt.checkPrev shape params
  stmt.values.foldlM (stmt.insertRow shape params) ⟨t, [], []⟩

def UpdateStatement.passes (stmt : UpdateStatement) (data : Json) : Except PgError Bool :=
  match stmt.cond with
  | none => .ok true
  | some cond => cond.satisfied shape.rules.collate params data

def UpdateStatement.exec (stmt : UpdateStatement) (t : PgTable shape.baseKey) :
    Except PgError (StatementRun shape.baseKey) := do
  let k ← stmt.key.eval shape.baseKey params
  match t.rows k with
  | none => return ⟨t, [], []⟩
  | some old =>
    if ← stmt.passes shape params old.data then
      let version ← stmt.set.version shape ⟨params, old.data, .null⟩ old.cols
      StatementRun.store ⟨t, [], []⟩ (some k) version
    else return ⟨t, [], []⟩

def WriteStatement.exec (t : PgTable shape.baseKey) :
    WriteStatement → Except PgError (StatementRun shape.baseKey)
  | insert stmt => stmt.exec shape params t
  | update stmt => stmt.exec shape params t
  | delete key => do
    let k ← key.eval shape.baseKey params
    return ⟨t.deleteRow k, [], []⟩

end

def WriteStatement.clauses : WriteStatement → List RowClause
  | insert stmt => stmt.values ++ stmt.doUpdate.toList
  | update stmt => [stmt.set]
  | delete _ => []

section

variable (shape : TableShape)

def putStatement : InsertStatement where
  prev := some (shape.keyPredicate 1)
  values := [⟨.jsonb (.param shape.insertParamIdx),
    shape.dualWriteCols.map fun c => (c, .extract shape.insertParamIdx)⟩]
  doUpdate := some ⟨.excluded, shape.dualWriteCols.map fun c => (c, .setExcluded)⟩

def updateStatement (nSets nRemoves : Nat) : InsertStatement :=
  let first := shape.insertParamIdx + 1
  let expr := removeChain (first + 2 * nSets) nRemoves (setChain first nSets .data)
  { prev := some (shape.keyPredicate 1)
    values := [⟨.jsonb (.param shape.insertParamIdx),
      shape.dualWriteCols.map fun c => (c, .extract shape.insertParamIdx)⟩]
    doUpdate := some ⟨.jsonb expr, shape.dualWriteCols.map fun c => (c, .setFromExpr expr)⟩ }

def insertOnlyStatement : InsertStatement where
  prev := none
  values := [⟨.jsonb (.param 1), shape.dualWriteCols.map fun c => (c, .extract 1)⟩]
  doUpdate := none

def rmwUpdateStatement : UpdateStatement where
  key := shape.keyPredicate 2
  set := ⟨.jsonb (.param 1), shape.dualWriteCols.map fun c => (c, .setFromParam 1)⟩
  cond := none

def simpleConditionStatement (key : KeyPredicate) (expr : JsonbExpr) (cond : SqlCond) :
    UpdateStatement where
  key := key
  set := ⟨.jsonb expr, shape.dualWriteCols.map fun c => (c, .setFromExpr expr)⟩
  cond := some cond

/-- One row of VALUES for each item. -/
def batchPutStatement (nPuts : Nat) : InsertStatement where
  prev := none
  values := (List.range nPuts).map fun i =>
    ⟨.jsonb (.param (i + 1)), shape.dualWriteCols.map fun c => (c, .extract (i + 1))⟩
  doUpdate := some ⟨.excluded, shape.dualWriteCols.map fun c => (c, .setExcluded)⟩

end

/-- A call of one of the write paths, with its closures. -/
inductive WriteCall where
  | put (pk : KeyValue) (sk : Option KeyValue) (item : Json)
  | putWithCondition (pk : KeyValue) (sk : Option KeyValue) (item : Json)
      (condition : Option Json → Bool)
  | updateSimple (pk : KeyValue) (sk : Option KeyValue) (insertItem : Json)
      (sets : List (String × Json)) (removes : List String)
  | updateWithSimpleCondition (pk : KeyValue) (sk : Option KeyValue) (sets : List (String × Json))
      (removes : List String) (condition : Condition)
  | updateInsertOnly (insertItem : Json)
  | updateGeneralRmw (pk : KeyValue) (sk : Option KeyValue)
      (apply : Option Json → Except BackendError UpdateDecision)
  | batchPuts (puts : List Json)
  | transact (pk : KeyValue) (sk : Option KeyValue) (action : TransactAction)

abbrev IssuedStatement := WriteStatement × List Param

section

variable (shape : TableShape) (t : PgTable shape.baseKey) (pk : KeyValue) (sk : Option KeyValue)

def issuePut (item : Json) : Except BackendError IssuedStatement := do
  checkSkShape shape sk
  return (.insert (putStatement shape), keyParams pk sk ++ [.jsonb item])

/-- UPDATE of a row that was read, INSERT … DO NOTHING otherwise. -/
def issueLocked (existing : Option Json) (newItem : Json) : IssuedStatement :=
  if existing.isSome then (.update (rmwUpdateStatement shape), .jsonb newItem :: keyParams pk sk)
  else (.insert (insertOnlyStatement shape), [.jsonb newItem])

def issuePutWithCondition (item : Json) (condition : Option Json → Bool) :
    Except BackendError IssuedStatement := do
  checkSkShape shape sk
  let existing ← selectForUpdate shape t pk sk
  checkHolds condition existing
  return issueLocked shape pk sk existing item

def issueGeneralRmw (apply : Option Json → Except BackendError UpdateDecision) :
    Except BackendError IssuedStatement := do
  checkSkShape shape sk
  let existing ← selectForUpdate shape t pk sk
  let newItem ← requireApply (← apply existing)
  return issueLocked shape pk sk existing newItem

def issueSimpleCondition (sets : List (String × Json)) (removes : List String)
    (condition : Condition) : Except BackendError IssuedStatement := do
  checkSkShape shape sk
  let (key, b) := bindKeys pk sk
  let (expr, b) := bindSets b .data sets
  let (expr, b) := bindRemoves b expr removes
  let (cond, b) ← compileCondition b condition
  return (.update (simpleConditionStatement shape key expr cond), b.params)

def issueDelete : Except BackendError IssuedStatement := do
  checkSkShape shape sk
  return (.delete (shape.keyPredicate 1), keyParams pk sk)

def issueDeleteWithCondition (condition : Option Json → Bool) :
    Except BackendError (Option IssuedStatement) := do
  checkSkShape shape sk
  let existing ← selectForUpdate shape t pk sk
  checkHolds condition existing
  return if existing.isSome then some (.delete (shape.keyPredicate 1), keyParams pk sk) else none

def TransactAction.issue : TransactAction → Except BackendError (Option IssuedStatement)
  | .put item none => (issuePut shape pk sk item).map some
  | .put item (some cond) => (issuePutWithCondition shape t pk sk item cond).map some
  | .delete none => (issueDelete shape pk sk).map some
  | .delete (some cond) => issueDeleteWithCondition shape t pk sk cond
  | .conditionCheck cond => (conditionCheckInsideTx shape t pk sk cond).map fun _ => none
  | .update apply => (issueGeneralRmw shape t pk sk apply).map some

end

/-- The writing statement a call issues once it has read what it reads; `none` when it issues none.
A pass that wrote no row reads the table anew. -/
def WriteCall.issue (shape : TableShape) (t : PgTable shape.baseKey) :
    WriteCall → Except BackendError (Option IssuedStatement)
  | .put pk sk item => (issuePut shape pk sk item).map some
  | .putWithCondition pk sk item condition =>
    (issuePutWithCondition shape t pk sk item condition).map some
  | .updateSimple pk sk insertItem sets removes => do
    checkSkShape shape sk
    return some (.insert (updateStatement shape sets.length removes.length),
      keyParams pk sk ++ [.jsonb insertItem] ++ setParams sets ++ removes.map .text)
  | .updateWithSimpleCondition pk sk sets removes condition =>
    (issueSimpleCondition shape pk sk sets removes condition).map some
  | .updateInsertOnly insertItem =>
    .ok (some (.insert (insertOnlyStatement shape), [.jsonb insertItem]))
  | .updateGeneralRmw pk sk apply => (issueGeneralRmw shape t pk sk apply).map some
  | .batchPuts puts => .ok <|
    if puts.isEmpty then none
    else some (.insert (batchPutStatement shape puts.length), puts.map .jsonb)
  | .transact pk sk action => action.issue shape t pk sk

end Rektifier
