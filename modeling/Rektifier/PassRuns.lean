import Rektifier.GsiLifecycle
import Rektifier.SpecWriters

namespace Rektifier

open Function

/-- What a pass has loaded and fetched so far, each part by a query of its own. -/
inductive ReconcilePass where
  | idle
  | loaded (row : TableEntry)
  | hasColumns (row : TableEntry) (columns : Columns)
  | hasKey (row : TableEntry) (columns : Columns) (primaryKey : List String)
  | introspected (row : TableEntry) (columns : Columns) (primaryKey : List String)
      (indexDefs : String → Option String)

/-- A table, the relations of its schema, the state rows, and the passes. -/
structure ServeState where
  table : TableState
  relations : Relations
  states : StateTable
  passes : Nat → ReconcilePass

inductive ServeEvent where
  | update (entry : TableEntry) (req : UpdateTableRequest)
  | phase (id : String) (phase : GsiPhase) (error : Option String)
  | build (index : String) (cols : List String)
  | valid (index : String)
  | drop (index : String)
  | promote (name : String)
  | demote (name error : String)
  | removed (name : String)
  | load (p : Nat)
  | fetchColumns (p : Nat)
  | fetchPrimaryKey (p : Nat)
  | fetchIndexes (p : Nat)
  | write (p : Nat)
  | stop (p : Nat)

namespace ServeState

def id (s : ServeState) (name : String) : String := gsiId s.table.entry.name name

def phase (s : ServeState) (name : String) : Option GsiPhase :=
  (s.states (s.id name)).map GsiState.phase

def setPass (s : ServeState) (p : Nat) (pass : ReconcilePass) : ServeState :=
  { s with passes := update s.passes p pass }

def updatePhase (s : ServeState) (id : String) (phase : GsiPhase) (error : Option String) :
    ServeState :=
  { s with states := s.states.updatePhase id phase error }

/-- The transaction of an UpdateTable call that has read `e`. -/
def afterUpdate (s : ServeState) (e : TableEntry) (req : UpdateTableRequest) (table : TableState)
    (creates : List GsiSpec) : ServeState :=
  { s with
    table := ⟨{ s.table.entry with gsis := table.entry.gsis }, table.columns⟩
    states := creates.foldl (createDualWriteGsiInTx s.table.entry.name e.pgTable)
      (startRemovals s.table.entry.name e req.deletes s.states) }

/-- The first transaction of CREATE INDEX CONCURRENTLY IF NOT EXISTS: an index, not valid yet. -/
def beginIndex (names : PgNames) (s : ServeState) (index : String) (cols : List String) :
    ServeState :=
  let pgTable := s.table.entry.pgTable
  let index := truncateIdent index
  let new := Relation.index pgTable (indexDefText names pgTable index cols) false
  if (s.relations index).isSome then s
  else { s with relations := update s.relations index (some new) }

def markValid (s : ServeState) (index : String) : ServeState :=
  match s.relations index with
  | some (.index table indexDef _) =>
    { s with relations := update s.relations index (some (.index table indexDef true)) }
  | _ => s

/-- `UPDATE_VERDICT_SQL`: the whole array as the pass judged it. -/
def writeVerdict (s : ServeState) (row : TableEntry) (columns : Columns) (primaryKey : List String)
    (indexDefs : String → Option String) : ServeState :=
  { s with table := ⟨{ s.table.entry with
      gsis := reconcileGsis ⟨row, columns⟩ primaryKey indexDefs }, s.table.columns⟩ }

end ServeState

/-- The transactions of requests, workers, drift checks and passes, in any order. A worker's step
may come at any time, since what it read may be old by then. -/
inductive ServeStep (names : PgNames) (hex8 : String → String) :
    ServeState → ServeEvent → ServeState → Prop
  -- `e` is the entry of a cache, however old
  | update {s : ServeState} {e : TableEntry} {req : UpdateTableRequest} {table : TableState}
      {creates : List GsiSpec} : req.needsSpecUpdate = true →
      updateTable names hex8 ⟨e, s.table.columns⟩ req = .ok (table, creates) →
      ServeStep names hex8 s (.update e req) (s.afterUpdate e req table creates)
  | phase {s : ServeState} (id : String) (phase : GsiPhase) (error : Option String) :
      ServeStep names hex8 s (.phase id phase error) (s.updatePhase id phase error)
  | build {s : ServeState} (index : String) (cols : List String) :
      ServeStep names hex8 s (.build index cols) (s.beginIndex names index cols)
  | valid {s : ServeState} (index : String) :
      ServeStep names hex8 s (.valid index) (s.markValid index)
  | drop {s : ServeState} (index : String) : ServeStep names hex8 s (.drop index)
      { s with relations := update s.relations index none }
  | promote {s : ServeState} {name : String} {row : GsiState} : s.states (s.id name) = some row →
      ServeStep names hex8 s (.promote name)
      { s.updatePhase (s.id name) .active none with table := setServeable s.table name true none }
  | demote {s : ServeState} (name error : String) : ServeStep names hex8 s (.demote name error)
      { s.updatePhase (s.id name) .degraded (some error) with
        table := setServeable s.table name false (some "sampled drift detected") }
  | removed {s : ServeState} (name : String) : ServeStep names hex8 s (.removed name)
      { s.updatePhase (s.id name) .gone none with table := removeGsi s.table name }
  | load {s : ServeState} {p : Nat} : s.passes p = .idle →
      ServeStep names hex8 s (.load p) (s.setPass p (.loaded s.table.entry))
  | fetchColumns {s : ServeState} {p : Nat} {row : TableEntry} : s.passes p = .loaded row →
      ServeStep names hex8 s (.fetchColumns p) (s.setPass p (.hasColumns row s.table.columns))
  | fetchPrimaryKey {s : ServeState} {p : Nat} {row : TableEntry} {columns : Columns}
      (primaryKey : List String) : s.passes p = .hasColumns row columns →
      ServeStep names hex8 s (.fetchPrimaryKey p) (s.setPass p (.hasKey row columns primaryKey))
  | fetchIndexes {s : ServeState} {p : Nat} {row : TableEntry} {columns : Columns}
      {primaryKey : List String} : s.passes p = .hasKey row columns primaryKey →
      ServeStep names hex8 s (.fetchIndexes p) (s.setPass p (.introspected row columns primaryKey
        (s.relations.indexDefs row.pgTable)))
  | write {s : ServeState} {p : Nat} {row : TableEntry} {columns : Columns}
      {primaryKey : List String} {indexDefs : String → Option String} :
      s.passes p = .introspected row columns primaryKey indexDefs →
      ServeStep names hex8 s (.write p)
        ((s.writeVerdict row columns primaryKey indexDefs).setPass p .idle)
  -- nothing has changed, the row is not the reconciler's, or an error
  | stop {s : ServeState} (p : Nat) : ServeStep names hex8 s (.stop p) (s.setPass p .idle)

end Rektifier
