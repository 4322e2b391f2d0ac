import Rektifier.Catalog

namespace Rektifier

/-- The catalog entry and the columns in PostgreSQL. -/
structure TableState where
  entry : TableEntry
  columns : Columns

def createTable (names : PgNames) (hex8 : String → String) (plan : CreateTablePlan) :
    Option TableState :=
  (createColumns names plan).map fun columns => ⟨createEntry hex8 plan, columns⟩

/-- The GSI part of an UpdateTable request. -/
structure UpdateTableRequest where
  creates : List GlobalSecondaryIndex
  deletes : List String
  attributeDefinitions : Option (List AttributeDefinition)

def TableEntry.fixedCols (e : TableEntry) : List String :=
  e.pkAttr :: (e.sk.map Prod.fst).toList ++ e.lsis.map LsiSchema.sortPgCol

/-- Columns still in use without the named GSI. -/
def TableEntry.referencedColumns (e : TableEntry) (excluding : String) : List String :=
  e.fixedCols ++ (e.gsis.entries.filter fun g => g.1 ≠ excluding).flatMap fun g => g.2.columns

def dropUnreferenced (e : TableEntry) (name : String) (g : GsiSpec) (columns : Columns) : Columns :=
  g.columns.foldl (fun columns col =>
    if col ∈ e.referencedColumns name then columns else Function.update columns col none) columns

/-- A Generated GSI goes at once, a DualWrite one is left to its removal worker. Siblings are read
from the entry before the request. -/
def dropDeleted (e : TableEntry) (deletes : List String) (columns : Columns) : Columns :=
  deletes.foldl (fun columns name =>
    match e.gsis.get name with
    | some g => match g.mode with
      | .generated => dropUnreferenced e name g columns
      | .dualWrite => columns
    | none => columns) columns

/-- Existing minus deleted Generated ones, DualWrite deletes marked, new ones added. -/
def mergedGsis (e : TableEntry) (deletes : List String) (creates : List GsiSpec) :
    OrderedMap String GsiSpec :=
  let isMode (mode : GsiMode) (name : String) : Bool := (e.gsis.get name).any fun g => g.mode = mode
  let kept := e.gsis.eraseAll (deletes.filter (isMode .generated))
  let marked := (deletes.filter (isMode .dualWrite)).filterMap fun name => (e.gsis.get name).map
    fun g => (name, { g with
      serveable := false, unserveableReason := some "GSI removal in progress" })
  (kept.insertAll marked).insertAll (creates.map fun g => (g.name, g))

/-- `ADD COLUMN IF NOT EXISTS`, the name not quoted. -/
def addColumn (names : PgNames) (columns : Columns) (c : DualWriteCol) : Option Columns := do
  let name ← names.unquoted c.col
  if (columns name).isSome then some columns
  else some (Function.update columns name (some ⟨c.keyType.columnType, false⟩))

def addColumns (names : PgNames) (g : GsiSpec) (columns : Columns) : Option Columns :=
  g.cols.foldlM (addColumn names) columns

def creatingReason : String := "DualWrite GSI in CREATING phase"

def validateCreates (hex8 : String → String) (e : TableEntry) (req : UpdateTableRequest) :
    Except DdlError (List GsiSpec) :=
  req.creates.mapM fun gsi => do
    let plan ← validateUpdateTableGsiCreate e.name gsi req.attributeDefinitions e.pkAttr
      (e.sk.map Prod.fst) e.gsis.keys
    return plannedSpec hex8 e.pgTable plan .dualWrite false (some creatingReason)

def checkDeletes (e : TableEntry) (deletes : List String) : Except DdlError Unit :=
  deletes.forM fun name =>
    if (e.gsis.get name).isSome then .ok ()
    else .error (.resourceNotFound ("GSI not found on table `" ++ e.name ++ "`: " ++ name))

/-- The table after it, and the specs it created. -/
def updateTable (names : PgNames) (hex8 : String → String) (s : TableState)
    (req : UpdateTableRequest) : Except DdlError (TableState × List GsiSpec) := do
  checkDeletes s.entry req.deletes
  let creates ← validateCreates hex8 s.entry req
  let gsis := mergedGsis s.entry req.deletes creates
  match creates.foldlM (fun columns g => addColumns names g columns)
      (dropDeleted s.entry req.deletes s.columns) with
  | some columns => return (⟨{ s.entry with gsis := gsis }, columns⟩, creates)
  | none => throw (.internal "GSI orchestrator: ALTER TABLE failed: ADD COLUMN failed")

/-- `flip_gsi_serveable` and `demote_gsi_serveable`. -/
def setServeable (s : TableState) (name : String) (serveable : Bool) (reason : Option String) :
    TableState :=
  match s.entry.gsis.get name with
  | some g =>
    let flipped := { g with serveable := serveable, unserveableReason := reason }
    ⟨{ s.entry with gsis := s.entry.gsis.insert name flipped }, s.columns⟩
  | none => s

/-- The last transaction of `run_removal_to_gone`. -/
def removeGsi (s : TableState) (name : String) : TableState :=
  match s.entry.gsis.get name with
  | some g => ⟨{ s.entry with gsis := s.entry.gsis.erase name },
      dropUnreferenced s.entry name g s.columns⟩
  | none => s

def taggedPlan : CreateTablePlan := ⟨"orders", "id", .s, none, [], [⟨"by-tag", ("tag", .s), none⟩]⟩

def taggedTable : TableState :=
  ⟨createEntry id taggedPlan, (createColumns plainNames taggedPlan).getD fun _ => none⟩

end Rektifier
