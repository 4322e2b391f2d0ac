import Rektifier.StateRows
import Rektifier.Reconciler
import Rektifier.Backfill

namespace Rektifier

inductive Relation where
  | index (table indexDef : String) (valid : Bool)
  | other
deriving DecidableEq

abbrev Relations := String → Option Relation

def Relations.indexDefs (relations : Relations) (table : String) (name : String) : Option String :=
  match relations name with
  | some (.index t indexDef _) => if t = table then some indexDef else none
  | _ => none

/-- The longest start that fits in so many bytes. -/
def takeBytes (n : Nat) : List Char → List Char
  | [] => []
  | c :: cs => if c.utf8Size ≤ n then c :: takeBytes (n - c.utf8Size) cs else []

def truncateIdent (name : String) : String :=
  if name.utf8ByteSize ≤ pgIdentMax then name else String.ofList (takeBytes pgIdentMax name.toList)

def indexDefText (names : PgNames) (table name : String) (cols : List String) : String :=
  "CREATE INDEX " ++ names.printed name ++ " ON " ++ names.schema ++ "." ++ names.printed table
    ++ " USING btree (" ++ ", ".intercalate (cols.map names.printed) ++ ") INCLUDE (data)"

/-- One table, and what else a lifecycle reads and writes. -/
structure GsiWorld (bk : BaseKey) where
  state : TableState
  relations : Relations
  states : StateTable
  table : PgTable bk

def BaseKey.columns (bk : BaseKey) : List String := bk.pkCol :: (bk.sk.map Prod.fst).toList

/-- The order of the keys, the order an UPDATE returns rows in, and whether an index row, with the
data in it, has room in a page: 2704 bytes of it. -/
structure ScanOrder where
  keys : List PgKey
  nodup : keys.Nodup
  sorted : keys.Pairwise PgKey.Le
  returning : List PgKey → List PgKey
  perm : ∀ l, (returning l).Perm l
  indexRowFits : List String → PgRow → Bool

/-- A value of another type is cast only to text. -/
def assignable (exprType columnType : ColumnType) : Bool :=
  exprType = columnType || columnType = .text

def checkAssigned (columns : Columns) (c : DualWriteCol) : Except PgError Unit :=
  match columns c.col with
  | none => .error (.undefinedColumn c.col)
  | some info =>
    if info.isGenerated then .error (.generatedAlways c.col)
    else if assignable c.keyType.columnType info.dataType then .ok ()
    else .error (.datatypeMismatch c.col)

/-- What is checked of a SET list before any row. -/
def checkSetList (columns : Columns) (cols : List DualWriteCol) : Except PgError Unit := do
  cols.forM (checkAssigned columns)
  if (cols.map DualWriteCol.col).Nodup then .ok () else .error .multipleAssignments

variable {bk : BaseKey}

def chunkKeys (order : ScanOrder) (cols : List DualWriteCol) (cursor : ResumeCursor)
    (t : PgTable bk) : List PgKey :=
  let selected := order.keys.filter fun k => (t.rows k).any fun row =>
    nullFilter cols row && resumePred bk cursor row.data
  order.returning (selected.take defaultChunkSize.toNat)

/-- The keys returned, and the table after it. -/
def runChunk (order : ScanOrder) (columns : Columns) (cols : List DualWriteCol)
    (cursor : ResumeCursor) (t : PgTable bk) : Except PgError (List PgKey × PgTable bk) :=
  if cols = [] then .ok ([], t)
  else do
    checkSetList columns cols
    let returned := chunkKeys order cols cursor t
    let t' ← returned.foldlM (fillRow cols) t
    return (returned, t')

/-- The loop with its cursor and `last_pk_copied`; `none` when fuel runs out. -/
def backfillLoop (order : ScanOrder) (columns : Columns) (cols : List DualWriteCol) :
    Nat → Option Json → ResumeCursor → PgTable bk →
      Except PgError (Option (PgTable bk × Option Json))
  | 0, _, _, _ => .ok none
  | n + 1, lastPk, cursor, t => do
    let (returned, t') ← runChunk order columns cols cursor t
    match returned.getLast?.bind t.rows with
    | none => return some (t', lastPk)
    | some row =>
      backfillLoop order columns cols n (some (lastPkJson bk row.data)) (cursorAfter bk row.data) t'

/-- As many chunks as there are rows, and the empty one. -/
def runBackfill (order : ScanOrder) (columns : Columns) (row : GsiState) (t : PgTable bk) :
    Except OrchestratorError (Option (PgTable bk × Option Json)) :=
  if row.phase ≠ .backfilling then .ok (some (t, row.lastPkCopied))
  else do
    let cols ← parseColumnSpecs row
    (backfillLoop order columns cols (order.keys.length + 1) row.lastPkCopied
      (seedCursor bk row.lastPkCopied) t).mapError .db

def parseIndexCols (st : GsiState) : Except OrchestratorError (List String) :=
  match st.columnSpecs.asArray with
  | none => .error (.malformedRow st.gsiId "column_specs not array")
  | some entries => entries.mapM fun entry =>
    match (entry.get "col").bind Json.asStr with
    | some col => .ok col
    | none => .error (.malformedRow st.gsiId "column_specs entry missing `col`")

def indexRowsFit (order : ScanOrder) (cols : List String) (t : PgTable bk) : Bool :=
  order.keys.all fun k => (t.rows k).all (order.indexRowFits cols)

/-- `CREATE INDEX CONCURRENTLY IF NOT EXISTS`, any relation of the name counting. -/
def createIndexIfNotExists (names : PgNames) (order : ScanOrder) (w : GsiWorld bk)
    (st : GsiState) (cols : List String) : Except PgError Relations :=
  let name := truncateIdent st.indexName
  if (w.relations name).isSome then .ok w.relations
  else match cols.find? fun col => (w.state.columns col).isNone with
    | some col => .error (.undefinedColumn col)
    | none =>
      if indexRowsFit order cols w.table then
        .ok (Function.update w.relations name
          (some (.index st.pgTable (indexDefText names st.pgTable name cols) true)))
      else .error .indexRowSize

/-- A CREATE INDEX CONCURRENTLY that fails in its build leaves the index, not valid. -/
def leaveInvalid (names : PgNames) (relations : Relations) (st : GsiState) (cols : List String) :
    Relations :=
  let name := truncateIdent st.indexName
  Function.update relations name
    (some (.index st.pgTable (indexDefText names st.pgTable name cols) false))

/-- After both attempts: DROP INDEX takes away what the first left, and a missing column stops the
statement before the build. -/
def relationsAfterFailure (names : PgNames) (relations : Relations) (st : GsiState)
    (cols : List String) : PgError → Relations
  | .indexRowSize => leaveInvalid names relations st cols
  | _ => relations

/-- `message` shows an error. -/
def runIndexCreation (names : PgNames) (message : OrchestratorError → String) (order : ScanOrder)
    (w : GsiWorld bk) (id : String) : GsiWorld bk :=
  match w.states id with
  | none => w
  | some row =>
    if row.phase ≠ .backfilling ∧ row.phase ≠ .indexing then w
    else
      let states := if row.phase = .indexing then w.states
        else w.states.updatePhase id .indexing none
      let failed (relations : Relations) (msg : String) : GsiWorld bk :=
        { w with relations := relations, states := states.updatePhase id .failed (some msg) }
      match parseIndexCols row with
      | .error _ => { w with states := states }
      | .ok cols =>
        match createIndexIfNotExists names order w row cols with
        | .error e => failed (relationsAfterFailure names w.relations row cols e)
            ("CREATE INDEX CONCURRENTLY failed twice: " ++ message (.db e))
        | .ok relations =>
          match relations row.indexName with
          | some (.index _ _ true) =>
            { w with
              state := setServeable w.state row.gsiName true none
              relations := relations
              states := states.updatePhase id .active none }
          | some (.index _ _ false) => failed relations ("index `" ++ row.indexName
              ++ "` did not reach indisvalid=true within 86400s")
          | _ => failed relations ("index `" ++ row.indexName
              ++ "` vanished after CREATE INDEX CONCURRENTLY")

/-- With nothing else going on; `none` when it does not end. -/
def runLifecycleToActive (names : PgNames) (message : OrchestratorError → String)
    (order : ScanOrder) (w : GsiWorld bk) (id : String) : Option (GsiWorld bk) :=
  match w.states id with
  | none => some w
  | some row =>
    match runBackfill order w.state.columns row w.table with
    | .error e => some { w with
        states := w.states.updatePhase id .failed (some ("backfill: " ++ message e)) }
    | .ok none => none
    | .ok (some (t, lastPk)) =>
      let states := match lastPk with
        | some cursor => w.states.setLastPkCopied id cursor
        | none => w.states
      some (runIndexCreation names message order { w with table := t, states := states } id)

/-- An UpdateTable request that creates one index, up to its commit. -/
def createGsi (names : PgNames) (hex8 : String → String) (w : GsiWorld bk)
    (gsi : GlobalSecondaryIndex) (ads : Option (List AttributeDefinition)) :
    Except DdlError (GsiWorld bk) := do
  let (s, creates) ← updateTable names hex8 w.state ⟨[gsi], [], ads⟩
  return { w with
    state := s
    states := creates.foldl (createDualWriteGsiInTx s.entry.name s.entry.pgTable) w.states }

/-- The request is carried out, its lifecycle ends in Active, and the reconcile pass after it leaves
the GSI serveable. -/
def ReachesServeable (names : PgNames) (hex8 : String → String)
    (message : OrchestratorError → String) (order : ScanOrder) (w : GsiWorld bk)
    (gsi : GlobalSecondaryIndex) (ads : Option (List AttributeDefinition)) : Prop :=
  ∃ w₁ w₂, createGsi names hex8 w gsi ads = .ok w₁ ∧
    runLifecycleToActive names message order w₁ (gsiId w.state.entry.name gsi.indexName) = some w₂ ∧
    (∃ row, w₂.states (gsiId w.state.entry.name gsi.indexName) = some row ∧ row.phase = .active) ∧
    ∃ g, w₂.state.entry.gsis.get gsi.indexName = some g ∧
      (reconcileGsi w₂.state bk.columns (w₂.relations.indexDefs w.state.entry.pgTable) g).serveable
        = true

end Rektifier
