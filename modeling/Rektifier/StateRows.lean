import Rektifier.UpdateTable
import Rektifier.Runs

namespace Rektifier

open Function

/-- The catalog's tables, and `_rektifier_gsi_state`. -/
structure World where
  tables : String → Option TableState
  states : StateTable

def World.empty : World := ⟨fun _ => none, fun _ => none⟩

def declaredRow (table pgTable : String) (g : GsiSpec) : GsiState :=
  ⟨gsiId table g.name, table, g.name, pgTable, columnSpecsJson g, g.indexName, .declared, none, none⟩

/-- The state row's part of the function. -/
def createDualWriteGsiInTx (table pgTable : String) (t : StateTable) (g : GsiSpec) : StateTable :=
  let id := gsiId table g.name
  ((t.insertStateRow (declaredRow table pgTable g)).updatePhase id .addingColumn none).updatePhase
    id .backfilling none

/-- `start_dual_write_removal` for every deleted DualWrite index. -/
def startRemovals (table : String) (e : TableEntry) (deletes : List String) (t : StateTable) :
    StateTable :=
  deletes.foldl (fun t name =>
    if (e.gsis.get name).any fun g => g.mode = .dualWrite then
      t.updatePhase (gsiId table name) .removingIndex none
    else t) t

inductive WorldEvent where
  | createTable (plan : CreateTablePlan)
  | deleteTable (table : String)
  | updateTable (table : String) (req : UpdateTableRequest) (creates : List GsiSpec)
  | chunk (id : String) (cursor : Json)
  | phase (id : String) (phase : GsiPhase) (error : Option String)
  | served (table name : String) (serveable : Bool) (reason : Option String)
  | removed (table name : String)

/-- DeleteTable leaves the state rows alone, and a removal archives its row as `gone`. -/
inductive WorldStep (names : PgNames) (hex8 : String → String) (w : World) :
    WorldEvent → World → Prop
  | createTable {plan : CreateTablePlan} {s : TableState} : w.tables plan.tableName = none →
      createTable names hex8 plan = some s →
      WorldStep names hex8 w (.createTable plan)
        ⟨update w.tables plan.tableName (some s), w.states⟩
  | deleteTable {table : String} {s : TableState} : w.tables table = some s →
      WorldStep names hex8 w (.deleteTable table) ⟨update w.tables table none, w.states⟩
  | updateTable {table : String} {req : UpdateTableRequest} {s s' : TableState}
      {creates : List GsiSpec} : w.tables table = some s →
      updateTable names hex8 s req = .ok (s', creates) →
      WorldStep names hex8 w (.updateTable table req creates)
        ⟨update w.tables table (some s'),
          creates.foldl (createDualWriteGsiInTx table s.entry.pgTable)
            (startRemovals table s.entry req.deletes w.states)⟩
  | chunk {id : String} {row : GsiState} (cursor : Json) : w.states id = some row →
      WorldStep names hex8 w (.chunk id cursor) ⟨w.tables, w.states.setLastPkCopied id cursor⟩
  | phase (id : String) (phase : GsiPhase) (error : Option String) :
      WorldStep names hex8 w (.phase id phase error)
        ⟨w.tables, w.states.updatePhase id phase error⟩
  | served {table : String} {s : TableState} (name : String) (serveable : Bool)
      (reason : Option String) : w.tables table = some s →
      WorldStep names hex8 w (.served table name serveable reason)
        ⟨update w.tables table (some (setServeable s name serveable reason)), w.states⟩
  | removed {table : String} {s : TableState} (name : String) : w.tables table = some s →
      WorldStep names hex8 w (.removed table name)
        ⟨update w.tables table (some (removeGsi s name)),
          w.states.updatePhase (gsiId table name) .gone none⟩

end Rektifier
