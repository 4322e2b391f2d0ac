import Rektifier.Pg

namespace Rektifier

open Function

/-- How the columns are filled, fixed at the GSI's birth. -/
inductive GsiMode where
  | generated
  | dualWrite
deriving DecidableEq

structure GsiSpec where
  name : String
  partitionAttr : String
  partitionType : KeyType
  partitionPgCol : String
  sort : Option DualWriteCol
  indexName : String
  mode : GsiMode
  serveable : Bool
  unserveableReason : Option String
deriving DecidableEq

inductive GsiPhase where
  | declared | addingColumn | backfilling | indexing | active
  | removingIndex | removingColumn | gone | degraded | failed
deriving DecidableEq

inductive OrchestratorError where
  | db (e : PgError)
  | alterTable (msg : String)
  | createIndex (msg : String)
  | malformedRow (gsiId reason : String)
deriving DecidableEq

/-- A row of `_rektifier_gsi_state`. -/
structure GsiState where
  gsiId : String
  tableName : String
  gsiName : String
  pgTable : String
  columnSpecs : Json
  indexName : String
  phase : GsiPhase
  lastPkCopied : Option Json
  error : Option String
deriving DecidableEq

namespace GsiPhase

def asStr : GsiPhase → String
  | declared => "declared"
  | addingColumn => "adding_column"
  | backfilling => "backfilling"
  | indexing => "indexing"
  | active => "active"
  | removingIndex => "removing_index"
  | removingColumn => "removing_column"
  | gone => "gone"
  | degraded => "degraded"
  | failed => "failed"

end GsiPhase

namespace GsiSpec

def cols (g : GsiSpec) : List DualWriteCol :=
  ⟨g.partitionPgCol, g.partitionAttr, g.partitionType⟩ :: g.sort.toList

end GsiSpec

def gsiId (tableName gsiName : String) : String := tableName ++ "::" ++ gsiName

def columnSpecJson (c : DualWriteCol) : Json :=
  .obj [("attr", .str c.attr), ("col", .str c.col), ("type", .str c.keyType.tag)]

def columnSpecsJson (g : GsiSpec) : Json := .arr (g.cols.map columnSpecJson)

def parseKeyType (id : String) : String → Except OrchestratorError KeyType
  | "S" => .ok .s
  | "N" => .ok .n
  | "B" => .ok .b
  | other => .error (.malformedRow id ("column_specs.type unknown: `" ++ other ++ "`"))

/-- A text member of a `column_specs` entry. -/
def specMember (id : String) (entry : Json) (name : String) : Except OrchestratorError String :=
  match (entry.get name).bind Json.asStr with
  | some s => .ok s
  | none => .error (.malformedRow id ("column_specs." ++ name ++ " missing"))

def parseColumnSpec (id : String) (entry : Json) : Except OrchestratorError DualWriteCol := do
  if entry.asObject.isNone then
    throw (.malformedRow id "column_specs entry not an object")
  let col ← specMember id entry "col"
  let attr ← specMember id entry "attr"
  let keyType ← parseKeyType id (← specMember id entry "type")
  return ⟨col, attr, keyType⟩

def parseColumnSpecs (st : GsiState) : Except OrchestratorError (List DualWriteCol) :=
  match st.columnSpecs.asArray with
  | some entries => entries.mapM (parseColumnSpec st.gsiId)
  | none => .error (.malformedRow st.gsiId "column_specs not an array")

theorem parseColumnSpec_json (id : String) (c : DualWriteCol) :
    parseColumnSpec id (columnSpecJson c) = .ok c := by
  rcases c with ⟨col, attr, t⟩
  cases t <;> rfl

/-- The workers read back what `column_specs_json` writes. -/
theorem parseColumnSpecs_json {st : GsiState} {g : GsiSpec}
    (h : st.columnSpecs = columnSpecsJson g) : parseColumnSpecs st = .ok g.cols := by
  have hall : ∀ l : List DualWriteCol,
      (l.map columnSpecJson).mapM (parseColumnSpec st.gsiId) = .ok l := by
    intro l
    induction l with
    | nil => rfl
    | cons c l ih =>
      rw [List.map_cons, List.mapM_cons, parseColumnSpec_json, ih]
      rfl
  rw [parseColumnSpecs, h]
  exact hall g.cols

/-- `_rektifier_gsi_state` by its primary key. -/
abbrev StateTable := String → Option GsiState

namespace StateTable

/-- `INSERT … ON CONFLICT (gsi_id) DO NOTHING`. -/
def insertStateRow (t : StateTable) (row : GsiState) : StateTable :=
  match t row.gsiId with
  | some _ => t
  | none => update t row.gsiId (some row)

/-- Whatever phase the row is in; no row, no effect. -/
def updatePhase (t : StateTable) (id : String) (phase : GsiPhase) (error : Option String) :
    StateTable :=
  update t id ((t id).map fun row => { row with phase := phase, error := error })

def setLastPkCopied (t : StateTable) (id : String) (cursor : Json) : StateTable :=
  update t id ((t id).map fun row => { row with lastPkCopied := some cursor })

variable (t : StateTable) (id id' : String) (phase : GsiPhase) (error : Option String)

@[simp] theorem updatePhase_self : t.updatePhase id phase error id
    = (t id).map fun row => { row with phase := phase, error := error } := by
  simp [updatePhase]

theorem updatePhase_updatePhase (phase' : GsiPhase) (error' : Option String) :
    (t.updatePhase id phase error).updatePhase id phase' error'
      = t.updatePhase id phase' error' := by
  simp only [updatePhase, update_self, update_idem, Option.map_map]
  rfl

theorem updatePhase_of_ne (h : id' ≠ id) : t.updatePhase id phase error id' = t id' := by
  simp [updatePhase, h]

theorem insertStateRow_apply (row : GsiState) :
    t.insertStateRow row id = (t id).or (if row.gsiId = id then some row else none) := by
  by_cases heq : row.gsiId = id
  · subst heq
    rcases hold : t row.gsiId with _ | old
    · simp [insertStateRow, hold]
    · simp [insertStateRow, hold]
  · rw [if_neg heq, Option.or_none]
    rcases hold : t row.gsiId with _ | old
    · simp [insertStateRow, hold, Ne.symm heq]
    · simp [insertStateRow, hold]

end StateTable

end Rektifier
