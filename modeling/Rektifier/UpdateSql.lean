import Rektifier.ConditionSql

namespace Rektifier

/-- Numbers are placeholder indices. -/
inductive JsonbExpr where
  /-- the row's own data column -/
  | data
  /-- `$value::jsonb` -/
  | param (value : Nat)
  /-- `jsonb_set(e, ARRAY[$name::text], $value::jsonb)` -/
  | set (e : JsonbExpr) (name value : Nat)
  /-- `(e) - $name::text` -/
  | remove (e : JsonbExpr) (name : Nat)

def jsonbArg (params : List Param) (i : Nat) : Except PgError Json :=
  match jsonbParam params i with
  | some v => .ok v
  | none => .error (.undefinedParameter i)

def textArg (params : List Param) (i : Nat) : Except PgError String :=
  match textParam params i with
  | some s => .ok s
  | none => .error (.undefinedParameter i)

def byteaArg (params : List Param) (i : Nat) : Except PgError (List UInt8) :=
  match params[i - 1]? with
  | some (.bytea b) => .ok b
  | _ => .error (.undefinedParameter i)

/-- PostgreSQL rejects the operators on a scalar. -/
def objectMembers (v : Json) : Except PgError (List (String × Json)) :=
  match v.asObject with
  | some members => .ok members
  | none => .error .cannotSetPath

def JsonbExpr.eval (params : List Param) (row : Json) : JsonbExpr → Except PgError Json
  | data => .ok row
  | param value => jsonbArg params value
  | set e name value => do
    let members ← objectMembers (← e.eval params row)
    return .obj (Entries.insert (← textArg params name) (← jsonbArg params value) members)
  | remove e name => do
    let members ← objectMembers (← e.eval params row)
    return .obj (Entries.erase (← textArg params name) members)

def keyArg (params : List Param) (t : KeyType) (i : Nat) : Except PgError PgValue :=
  match t with
  | .s => (textArg params i).map .text
  | .n => do return .numeric (← castNumeric (← textArg params i))
  | .b => (byteaArg params i).map .bytea

/-- The placeholders of `pk = $i [AND sk = $j]`. -/
structure KeyPredicate where
  pk : Nat
  sk : Option Nat

def KeyPredicate.eval (p : KeyPredicate) (bk : BaseKey) (params : List Param) :
    Except PgError PgKey := do
  let pk ← keyArg params bk.pkType p.pk
  match bk.sk, p.sk with
  | some (_, t), some j =>
    let sk ← keyArg params t j
    return (pk, some sk)
  | _, _ => return (pk, none)

/-- `INSERT … VALUES (insert, cols…) ON CONFLICT (key) DO UPDATE SET data = doUpdate, cols…`,
returning the new data and the data a CTE read under `prev`. -/
structure UpsertSql where
  prev : KeyPredicate
  insert : JsonbExpr
  doUpdate : JsonbExpr
  cols : List DualWriteCol

/-- `INSERT … ON CONFLICT (key) DO NOTHING`. -/
structure InsertOnlySql where
  insert : JsonbExpr
  cols : List DualWriteCol

/-- `UPDATE … SET data = set, cols… WHERE key [AND (cond)]`. -/
structure UpdateWhereSql where
  key : KeyPredicate
  set : JsonbExpr
  cond : Option SqlCond
  cols : List DualWriteCol

def nullCols : String → Option PgValue := fun _ => none

/-- The row version a statement writes over `row`. -/
def newVersion (cols : List DualWriteCol) (data : Json) (start : String → Option PgValue) :
    Except PgError PgRow := do
  return ⟨data, ← fillCols cols data start⟩

def PgTable.replaceData {bk : BaseKey} (t : PgTable bk) (k : PgKey) (old : PgRow)
    (cols : List DualWriteCol) (data : Json) : Except PgError (PgTable bk) := do
  let version ← newVersion cols data old.cols
  t.write (some k) version

def UpsertSql.exec {bk : BaseKey} (stmt : UpsertSql) (params : List Param) (t : PgTable bk) :
    Except PgError (PgTable bk × Json × Option Json) := do
  let prevKey ← stmt.prev.eval bk params
  let oldData := (t.rows prevKey).map PgRow.data
  let item ← stmt.insert.eval params .null
  let proposed ← newVersion stmt.cols item nullCols
  let k ← generatedCols bk item
  match t.rows k with
  | none =>
    let t ← t.write none proposed
    return (t, item, oldData)
  | some row =>
    let data ← stmt.doUpdate.eval params row.data
    let t ← t.replaceData k row stmt.cols data
    return (t, data, oldData)

def InsertOnlySql.exec {bk : BaseKey} (stmt : InsertOnlySql) (params : List Param) (t : PgTable bk) :
    Except PgError (Option (PgTable bk × Json)) := do
  let item ← stmt.insert.eval params .null
  let proposed ← newVersion stmt.cols item nullCols
  let k ← generatedCols bk item
  match t.rows k with
  | none =>
    let t ← t.write none proposed
    return some (t, item)
  | some _ => return none

def UpdateWhereSql.passes (stmt : UpdateWhereSql) (collate : String → String → Ordering)
    (params : List Param) (data : Json) : Except PgError Bool :=
  match stmt.cond with
  | none => .ok true
  | some cond => cond.satisfied collate params data

def UpdateWhereSql.exec {bk : BaseKey} (stmt : UpdateWhereSql) (params : List Param)
    (t : PgTable bk) : Except PgError (Option (PgTable bk × Json × Json)) := do
  let k ← stmt.key.eval bk params
  match t.rows k with
  | none => return none
  | some row =>
    if ← stmt.passes bk.rules.collate params row.data then
      let data ← stmt.set.eval params row.data
      let t ← t.replaceData k row stmt.cols data
      return some (t, data, row.data)
    else return none

/-- `jsonb_set` once per SET, the placeholders counted up from `i`. -/
def setChain : Nat → Nat → JsonbExpr → JsonbExpr
  | _, 0, e => e
  | i, n + 1, e => setChain (i + 2) n (.set e i (i + 1))

/-- `- name` once per REMOVE. -/
def removeChain : Nat → Nat → JsonbExpr → JsonbExpr
  | _, 0, e => e
  | i, n + 1, e => removeChain (i + 1) n (.remove e i)

def TableShape.keyPredicate (shape : TableShape) (first : Nat) : KeyPredicate :=
  ⟨first, shape.sk.map fun _ => first + 1⟩

/-- Right after one or two key placeholders. -/
def TableShape.insertParamIdx (shape : TableShape) : Nat := if shape.sk.isSome then 3 else 2

def buildUpdateSql (shape : TableShape) (nSets nRemoves : Nat) : UpsertSql :=
  let first := shape.insertParamIdx + 1
  let sets := setChain first nSets .data
  { prev := shape.keyPredicate 1
    insert := .param shape.insertParamIdx
    doUpdate := removeChain (first + 2 * nSets) nRemoves sets
    cols := shape.dualWriteCols }

def buildInsertOnlySql (shape : TableShape) : InsertOnlySql := ⟨.param 1, shape.dualWriteCols⟩

structure UpdateOutcome where
  newItem : Json
  oldItem : Option Json
deriving DecidableEq

def checkSkShape (shape : TableShape) (sk : Option KeyValue) : Except BackendError Unit :=
  match shape.sk, sk with
  | some _, some _ | none, none => .ok ()
  | some _, none => .error (.missingSortKey shape.table)
  | none, some _ => .error (.unexpectedSortKey shape.table)

def boundParam : KeyValue → Param
  | .s v => .text v
  | .n v => .text v
  | .b v => .bytea v

def keyParams (pk : KeyValue) (sk : Option KeyValue) : List Param :=
  boundParam pk :: (sk.map boundParam).toList

def setParams (sets : List (String × Json)) : List Param :=
  sets.flatMap fun e => [.text e.1, .jsonb e.2]

def updateSimpleParams (pk : KeyValue) (sk : Option KeyValue) (insertItem : Json)
    (sets : List (String × Json)) (removes : List String) : List Param :=
  keyParams pk sk ++ [.jsonb insertItem] ++ setParams sets ++ removes.map .text

def pgResult {α : Type} (r : Except PgError α) : Except BackendError α := r.mapError .pgError

theorem pgResult_ok {α : Type} {r : Except PgError α} {a : α} (h : pgResult r = .ok a) :
    r = .ok a := by
  cases r with
  | error e => cases h
  | ok b => exact congrArg Except.ok (Except.ok.inj h)

def updateSimpleRaw (shape : TableShape) (t : PgTable shape.baseKey) (pk : KeyValue)
    (sk : Option KeyValue) (insertItem : Json) (sets : List (String × Json))
    (removes : List String) : Except BackendError (PgTable shape.baseKey × UpdateOutcome) := do
  checkSkShape shape sk
  let stmt := buildUpdateSql shape sets.length removes.length
  let params := updateSimpleParams pk sk insertItem sets removes
  pgResult (bindParams params)
  let (t, newData, oldData) ← pgResult (stmt.exec params t)
  return (t, ⟨newData, oldData⟩)

/-- The SET chain built while its parameters are bound. -/
def bindSets (b : ParamBuilder) (e : JsonbExpr) : List (String × Json) → JsonbExpr × ParamBuilder
  | [] => (e, b)
  | (name, value) :: rest =>
    let (i, b) := b.bindText name
    let (j, b) := b.bindJsonb value
    bindSets b (.set e i j) rest

def bindRemoves (b : ParamBuilder) (e : JsonbExpr) : List String → JsonbExpr × ParamBuilder
  | [] => (e, b)
  | name :: rest =>
    let (i, b) := b.bindText name
    bindRemoves b (.remove e i) rest

def bindKeys (pk : KeyValue) (sk : Option KeyValue) : KeyPredicate × ParamBuilder :=
  let (i, b) := ParamBuilder.new.bindKey pk
  match sk with
  | none => (⟨i, none⟩, b)
  | some sk =>
    let (j, b) := b.bindKey sk
    (⟨i, some j⟩, b)

/-- No row returned means that the condition failed. -/
def updatedOrFailed {bk : BaseKey} :
    Option (PgTable bk × Json × Json) → Except BackendError (PgTable bk × UpdateOutcome)
  | none => .error .conditionalCheckFailed
  | some (t, newData, oldData) => .ok (t, ⟨newData, some oldData⟩)

/-- What is bound before the condition is compiled. -/
def bindUpdate (pk : KeyValue) (sk : Option KeyValue) (sets : List (String × Json))
    (removes : List String) : JsonbExpr × ParamBuilder :=
  let (expr, b) := bindSets (bindKeys pk sk).2 .data sets
  bindRemoves b expr removes

def updateWithSimpleConditionRaw (shape : TableShape) (t : PgTable shape.baseKey) (pk : KeyValue)
    (sk : Option KeyValue) (sets : List (String × Json)) (removes : List String)
    (condition : Condition) : Except BackendError (PgTable shape.baseKey × UpdateOutcome) := do
  checkSkShape shape sk
  let (expr, b) := bindUpdate pk sk sets removes
  let (cond, b) ← compileCondition b condition
  let stmt : UpdateWhereSql := ⟨(bindKeys pk sk).1, expr, some cond, shape.dualWriteCols⟩
  pgResult (bindParams b.params)
  updatedOrFailed (← pgResult (stmt.exec b.params t))

/-- A suppressed INSERT means that the row was there. -/
def insertedOrFailed {bk : BaseKey} :
    Option (PgTable bk × Json) → Except BackendError (PgTable bk × UpdateOutcome)
  | none => .error .conditionalCheckFailed
  | some (t, newData) => .ok (t, ⟨newData, none⟩)

def updateInsertOnlyRaw (shape : TableShape) (t : PgTable shape.baseKey) (insertItem : Json) :
    Except BackendError (PgTable shape.baseKey × UpdateOutcome) := do
  pgResult (bindParams [.jsonb insertItem])
  insertedOrFailed (← pgResult ((buildInsertOnlySql shape).exec [.jsonb insertItem] t))

inductive UpdateDecision where
  | fail
  | apply (newItem : Json)

/-- Overwrites the row a pass has locked. -/
def rmwUpdateSql (shape : TableShape) : UpdateWhereSql :=
  ⟨shape.keyPredicate 2, .param 1, none, shape.dualWriteCols⟩

def selectForUpdate (shape : TableShape) (t : PgTable shape.baseKey) (pk : KeyValue)
    (sk : Option KeyValue) : Except BackendError (Option Json) := do
  let k ← pgResult ((shape.keyPredicate 1).eval shape.baseKey (keyParams pk sk))
  return (t.rows k).map PgRow.data

/-- UPDATE of a row that was read, INSERT … DO NOTHING otherwise; `none` when no row was written. -/
def writeLocked (shape : TableShape) (t : PgTable shape.baseKey) (pk : KeyValue)
    (sk : Option KeyValue) (existing : Option Json) (newItem : Json) :
    Except BackendError (Option (PgTable shape.baseKey)) :=
  if existing.isSome then do
    let r ← pgResult ((rmwUpdateSql shape).exec (.jsonb newItem :: keyParams pk sk) t)
    return r.map Prod.fst
  else do
    let r ← pgResult ((buildInsertOnlySql shape).exec [.jsonb newItem] t)
    return r.map Prod.fst

/-- `none` asks for another pass. -/
def rmwPass (shape : TableShape) (t : PgTable shape.baseKey) (pk : KeyValue)
    (sk : Option KeyValue) (apply : Option Json → Except BackendError UpdateDecision) :
    Except BackendError (Option (PgTable shape.baseKey × UpdateOutcome)) := do
  let k ← pgResult ((shape.keyPredicate 1).eval shape.baseKey (keyParams pk sk))
  let existing := (t.rows k).map PgRow.data
  match ← apply existing with
  | .fail => throw .conditionalCheckFailed
  | .apply newItem =>
    if existing.isSome then
      match ← pgResult ((rmwUpdateSql shape).exec (.jsonb newItem :: keyParams pk sk) t) with
      | some (t, _, _) => return some (t, ⟨newItem, existing⟩)
      | none => return none
    else
      match ← pgResult ((buildInsertOnlySql shape).exec [.jsonb newItem] t) with
      | some (t, _) => return some (t, ⟨newItem, existing⟩)
      | none => return none

def rmwLoop (shape : TableShape) (t : PgTable shape.baseKey) (pk : KeyValue)
    (sk : Option KeyValue) (apply : Option Json → Except BackendError UpdateDecision) :
    Nat → Except BackendError (PgTable shape.baseKey × UpdateOutcome)
  | 0 => throw (.other "update_general_rmw_raw exceeded retry budget (possible runaway race contention)")
  | n + 1 => do
    match ← rmwPass shape t pk sk apply with
    | some r => return r
    | none => rmwLoop shape t pk sk apply n

/-- With no other session interleaved; `MAX_ITERS` is 3. -/
def updateGeneralRmwRaw (shape : TableShape) (t : PgTable shape.baseKey) (pk : KeyValue)
    (sk : Option KeyValue) (apply : Option Json → Except BackendError UpdateDecision) :
    Except BackendError (PgTable shape.baseKey × UpdateOutcome) := do
  checkSkShape shape sk
  rmwLoop shape t pk sk apply 3

end Rektifier
