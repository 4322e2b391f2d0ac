import Rektifier.GsiValidation

namespace Rektifier

inductive ColumnType where
  | text | numeric | bytea | jsonb
deriving DecidableEq

def KeyType.columnType : KeyType → ColumnType
  | .s => .text
  | .n => .numeric
  | .b => .bytea

structure ColumnInfo where
  dataType : ColumnType
  isGenerated : Bool
deriving DecidableEq

abbrev Columns := String → Option ColumnInfo

/-- What PostgreSQL makes of names: the column an unquoted identifier stands for, where it parses
(what folding and truncation leave stands for itself); how a name is printed in an index definition;
the current schema. -/
structure PgNames where
  unquoted : String → Option String
  folded : ∀ name col, unquoted name = some col → unquoted col = some col
  printed : String → String
  schema : String

/-- Lower-case names that need no quotes. -/
def plainNames : PgNames := ⟨some, fun _ _ _ => rfl, id, "public"⟩

/-- `gsis` is by index name. -/
structure TableEntry where
  name : String
  pgTable : String
  pkAttr : String
  pkType : KeyType
  sk : Option (String × KeyType)
  lsis : List LsiSchema
  gsis : OrderedMap String GsiSpec

def GsiSpec.columns (g : GsiSpec) : List String := g.cols.map DualWriteCol.col

def GsiSpec.toSchema (g : GsiSpec) : GsiSchema where
  name := g.name
  partitionAttr := g.partitionAttr
  partitionType := g.partitionType
  partitionPgCol := g.partitionPgCol
  sort := g.sort
  isDualWrite := g.mode = .dualWrite
  serveable := g.serveable
  unserveableReason := g.unserveableReason

def TableEntry.toSchema (e : TableEntry) : TableSchema :=
  let gsis := e.gsis.entries.map fun g => g.2.toSchema
  ⟨e.name, e.pgTable, e.pkAttr, e.pkType, e.sk, "data", e.lsis, gsis, .ofIndexes e.lsis gsis⟩

structure CreateTablePlan where
  tableName : String
  pkAttr : String
  pkType : KeyType
  sk : Option (String × KeyType)
  lsis : List (String × String × KeyType)
  gsis : List GsiPlan

def pgIdentMax : Nat := 63

/-- Lower case, an underscore for all but letters and digits, none leading. -/
def sanitizeName (s : String) : List Char :=
  (s.toList.map fun c => if c.isAlphanum then c.toLower else '_').dropWhile (· = '_')

/-- `hex8` is the first eight hexadecimal digits of SHA-1. -/
def sanitizePgTableName (hex8 : String → String) (name : String) : String :=
  let candidate := "rekt_t_" ++ String.ofList (sanitizeName name)
  if candidate.utf8ByteSize ≤ pgIdentMax then candidate
  else "rekt_t_" ++ String.ofList ((sanitizeName name).take 47) ++ "_" ++ hex8 name

def deriveIndexName (hex8 : String → String) (infixText pgTable name : String) : String :=
  let candidate := pgTable ++ infixText ++ String.ofList (sanitizeName name) ++ "_idx"
  if candidate.utf8ByteSize ≤ pgIdentMax then candidate
  else
    let digest := hex8 (pgTable ++ "::" ++ infixText ++ name)
    let fixed := pgTable.utf8ByteSize + infixText.utf8ByteSize + 1 + digest.utf8ByteSize + 4
    pgTable ++ infixText ++ String.ofList ((sanitizeName name).take (pgIdentMax - fixed)) ++ "_"
      ++ digest ++ "_idx"

def deriveGsiIndexName (hex8 : String → String) (pgTable name : String) : String :=
  deriveIndexName hex8 "_gsi_" pgTable name

def plannedSpec (hex8 : String → String) (pgTable : String) (plan : GsiPlan) (mode : GsiMode)
    (serveable : Bool) (reason : Option String) : GsiSpec where
  name := plan.name
  partitionAttr := plan.partition.1
  partitionType := plan.partition.2
  partitionPgCol := plan.partition.1
  sort := plan.sort.map fun s => ⟨s.1, s.1, s.2⟩
  indexName := deriveGsiIndexName hex8 pgTable plan.name
  mode := mode
  serveable := serveable
  unserveableReason := reason

/-- An attribute of several indexes is emitted once. -/
def emittedCols (plan : CreateTablePlan) : List (String × KeyType) :=
  let indexed := plan.lsis.map Prod.snd ++ plan.gsis.flatMap fun g => g.partition :: g.sort.toList
  let base := (plan.pkAttr, plan.pkType) :: plan.sk.toList
  indexed.foldl (fun acc c => if c.1 ∈ acc.map Prod.fst then acc else acc ++ [c]) base

/-- The JSONB column and one generated column per key attribute. -/
def createColumns (names : PgNames) (plan : CreateTablePlan) : Option Columns :=
  (emittedCols plan).foldlM (fun (columns : Columns) c => do
    let name ← names.unquoted c.1
    if (columns name).isSome then none
    else some (Function.update columns name (some ⟨c.2.columnType, true⟩)))
    (Function.update (fun _ => none) "data" (some ⟨.jsonb, false⟩))

def createEntry (hex8 : String → String) (plan : CreateTablePlan) : TableEntry :=
  let pgTable := sanitizePgTableName hex8 plan.tableName
  { name := plan.tableName
    pgTable := pgTable
    pkAttr := plan.pkAttr
    pkType := plan.pkType
    sk := plan.sk
    lsis := plan.lsis.map fun l => ⟨l.1, l.2.1, l.2.2, l.2.1, true, none⟩
    gsis := OrderedMap.ofList (plan.gsis.map fun g =>
      (g.name, plannedSpec hex8 pgTable g .generated true none)) }

def zeroDigest (_ : String) : String := "00000000"

example : deriveGsiIndexName id "rekt_t_orders" "By.Tag" = "rekt_t_orders_gsi_by_tag_idx" := by
  decide

end Rektifier
