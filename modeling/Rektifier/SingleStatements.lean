import Rektifier.TransactSteps
import Rektifier.VersionChain

namespace Rektifier

open Function

abbrev CallId := Nat

section

variable {bk : BaseKey}

/-- Under READ COMMITTED the CTE reads the snapshot, the INSERT and its ON CONFLICT branch act on
the newest committed row. -/
def UpsertSql.execFrom (stmt : UpsertSql) (params : List Param) (snapshot t : PgTable bk) :
    Except PgError (PgTable bk × Json × Option Json) := do
  let prevKey ← stmt.prev.eval bk params
  let oldData := (snapshot.rows prevKey).map PgRow.data
  let item ← stmt.insert.eval params .null
  let proposed ← newVersion stmt.cols item nullCols
  let k ← generatedCols bk item
  match t.rows k with
  | none =>
    let t ← t.write none proposed
    return (t, item, oldData)
  | some row =>
    let data ← stmt.doUpdate.eval params row.data
    let t ← t.replaceData k row stmt.cols data
    return (t, data, oldData)

/-- Under READ COMMITTED it finds its row in the snapshot, waits for it, and checks WHERE again on
the newest committed version, which it updates. -/
def UpdateWhereSql.execFrom (stmt : UpdateWhereSql) (params : List Param) (snapshot t : PgTable bk) :
    Except PgError (Option (PgTable bk × Json × Json)) := do
  let k ← stmt.key.eval bk params
  match snapshot.rows k with
  | none => return none
  | some seen =>
    if ← stmt.passes bk.rules.collate params seen.data then
      match t.rows k with
      | none => return none
      | some row =>
        if ← stmt.passes bk.rules.collate params row.data then
          let data ← stmt.set.eval params row.data
          let t ← t.replaceData k row stmt.cols data
          return some (t, data, seen.data)
        else return none
    else return none

theorem UpdateWhereSql.execFrom_self (stmt : UpdateWhereSql) (params : List Param)
    (t : PgTable bk) : stmt.execFrom params t t = stmt.exec params t := by
  unfold execFrom exec
  rcases stmt.key.eval bk params with e | k
  · rfl
  · simp only [bind, Except.bind]
    rcases t.rows k with _ | row
    · rfl
    · rcases hpass : stmt.passes bk.rules.collate params row.data with e | _ | _ <;>
        simp only [hpass] <;> rfl

end

/-- The storage calls that are one autocommitted statement. -/
inductive StatementCall where
  | putItem (item : Json)
  | updateSimple (insertItem : Json) (sets : List (String × Json)) (removes : List String)
  | updateWithSimpleCondition (sets : List (String × Json)) (removes : List String)
      (condition : Condition)

structure KeyStatement where
  pk : KeyValue
  sk : Option KeyValue
  call : StatementCall

/-- On the committed table, with the snapshot the statement was started on. -/
def KeyStatement.run (shape : TableShape) (snapshot t : PgTable shape.baseKey) (st : KeyStatement) :
    Except BackendError (PgTable shape.baseKey × UpdateOutcome) := do
  checkSkShape shape st.sk
  match st.call with
  | .putItem item =>
    let params := keyParams st.pk st.sk ++ [.jsonb item]
    let (t, newData, oldData) ← pgResult ((putSql shape).execFrom params snapshot t)
    return (t, ⟨newData, oldData⟩)
  | .updateSimple insertItem sets removes =>
    let stmt := buildUpdateSql shape sets.length removes.length
    let params := updateSimpleParams st.pk st.sk insertItem sets removes
    pgResult (bindParams params)
    let (t, newData, oldData) ← pgResult (stmt.execFrom params snapshot t)
    return (t, ⟨newData, oldData⟩)
  | .updateWithSimpleCondition sets removes condition =>
    let (expr, b) := bindUpdate st.pk st.sk sets removes
    let (cond, b) ← compileCondition b condition
    let stmt : UpdateWhereSql := ⟨(bindKeys st.pk st.sk).1, expr, some cond, shape.dualWriteCols⟩
    pgResult (bindParams b.params)
    updatedOrFailed (← pgResult (stmt.execFrom b.params snapshot t))

/-- With no other session the call is the one the handler makes. -/
theorem KeyStatement.run_updateSimple (shape : TableShape) (t : PgTable shape.baseKey)
    (pk : KeyValue) (sk : Option KeyValue) (insertItem : Json) (sets : List (String × Json))
    (removes : List String) :
    KeyStatement.run shape t t ⟨pk, sk, .updateSimple insertItem sets removes⟩
      = updateSimpleRaw shape t pk sk insertItem sets removes := rfl

theorem KeyStatement.run_updateWithSimpleCondition (shape : TableShape)
    (t : PgTable shape.baseKey) (pk : KeyValue) (sk : Option KeyValue)
    (sets : List (String × Json)) (removes : List String) (condition : Condition) :
    KeyStatement.run shape t t ⟨pk, sk, .updateWithSimpleCondition sets removes condition⟩
      = updateWithSimpleConditionRaw shape t pk sk sets removes condition := by
  simp only [KeyStatement.run, UpdateWhereSql.execFrom_self, updateWithSimpleConditionRaw]

def StatementCall.inserts : StatementCall → Option Json
  | .putItem item => some item
  | .updateSimple insertItem _ _ => some insertItem
  | .updateWithSimpleCondition _ _ _ => none

/-- What a call sets or removes on a stored item. -/
def StatementCall.touches : StatementCall → List String
  | .putItem _ => []
  | .updateSimple _ sets removes => sets.map Prod.fst ++ removes
  | .updateWithSimpleCondition sets removes _ => sets.map Prod.fst ++ removes

/-- The call addresses the key, inserts under it, touches no key column, and its condition compiles
to SQL. -/
structure KeyStatement.On (shape : TableShape) (k : PgKey) (st : KeyStatement) : Prop where
  fits : KeyFits shape.baseKey st.pk st.sk
  key : addressedKey st.pk st.sk = .ok k
  inserts : ∀ item, st.call.inserts = some item → generatedKey shape.baseKey item = .ok k
  keepsPk : shape.baseKey.pkCol ∉ st.call.touches
  keepsSk : ∀ col t, shape.baseKey.sk = some (col, t) → col ∉ st.call.touches
  routed : ∀ sets removes condition,
    st.call = .updateWithSimpleCondition sets removes condition → conditionFitsSql condition = true

inductive StatementPhase (shape : TableShape) where
  | idle
  | running (st : KeyStatement) (snapshot : PgTable shape.baseKey)
  | returned (result : Except BackendError UpdateOutcome)

/-- The statements on one key: the committed table, each call, and what those that succeeded
returned, in the order of their writes. -/
structure StatementState (shape : TableShape) where
  table : PgTable shape.baseKey
  phase : CallId → StatementPhase shape
  history : List (CallId × UpdateOutcome)

def StatementState.links {shape : TableShape} (s : StatementState shape) :
    List (Link (Option Json)) := s.history.map fun h => ⟨h.2.oldItem, some h.2.newItem⟩

def StatementState.initial {shape : TableShape} (t : PgTable shape.baseKey) :
    StatementState shape := ⟨t, fun _ => .idle, []⟩

inductive StatementEvent where
  | start (c : CallId) (st : KeyStatement)
  | write (c : CallId)
  | fail (c : CallId) (e : BackendError)

/-- A statement takes its snapshot when it starts. Its write comes after its waits, on the newest
committed row; one that fails writes nothing. -/
inductive StatementStep (shape : TableShape) (k : PgKey) (s : StatementState shape) :
    StatementEvent → StatementState shape → Prop
  | start {c : CallId} {st : KeyStatement} : s.phase c = .idle → st.On shape k →
      StatementStep shape k s (.start c st)
        { s with phase := update s.phase c (.running st s.table) }
  | write {c : CallId} {st : KeyStatement} {snapshot t : PgTable shape.baseKey}
      {outcome : UpdateOutcome} : s.phase c = .running st snapshot →
      st.run shape snapshot s.table = .ok (t, outcome) →
      StatementStep shape k s (.write c)
        { table := t
          phase := update s.phase c (.returned (.ok outcome))
          history := s.history ++ [(c, outcome)] }
  | fail {c : CallId} {st : KeyStatement} {snapshot : PgTable shape.baseKey} {e : BackendError} :
      s.phase c = .running st snapshot →
      StatementStep shape k s (.fail c e)
        { s with phase := update s.phase c (.returned (.error e)) }

end Rektifier
