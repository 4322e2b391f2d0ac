import Rektifier.AttributeValue
import Mathlib.Data.List.Sort

namespace Rektifier

inductive KeyType where
  | s | n | b
deriving DecidableEq

namespace KeyType

def tag : KeyType → String
  | s => "S"
  | n => "N"
  | b => "B"

end KeyType

inductive KeyValue where
  | s (v : String)
  | n (v : String)
  | b (v : List UInt8)
deriving DecidableEq

def KeyValue.keyType : KeyValue → KeyType
  | .s _ => .s
  | .n _ => .n
  | .b _ => .b

/-- A key column, with what it is filled from. -/
structure DualWriteCol where
  col : String
  attr : String
  keyType : KeyType
deriving DecidableEq

/-- What PostgreSQL holds rows to besides the base key: the columns it generates for the LSIs and
for the GSIs of CreateTable; that no index row is above 2704 bytes, with the data in every one; and
the order of texts. The source has no such field: it is the part of the table's DDL that no
statement names. -/
structure RowRules where
  generated : List DualWriteCol
  indexRowsFit : Json → Bool
  collate : String → String → Ordering

/-- No secondary indexes, no large items, the C collation. -/
def RowRules.plain : RowRules := ⟨[], fun _ => true, compare⟩

structure GsiSchema where
  name : String
  partitionAttr : String
  partitionType : KeyType
  partitionPgCol : String
  sort : Option DualWriteCol
  isDualWrite : Bool
  serveable : Bool
  unserveableReason : Option String
deriving DecidableEq

structure LsiSchema where
  name : String
  sortAttr : String
  sortType : KeyType
  sortPgCol : String
  serveable : Bool
  unserveableReason : Option String
deriving DecidableEq

namespace GsiSchema

def dualWriteCols (g : GsiSchema) : List DualWriteCol :=
  ⟨g.partitionPgCol, g.partitionAttr, g.partitionType⟩ :: g.sort.toList

def columns (g : GsiSchema) : List String := g.dualWriteCols.map DualWriteCol.col

end GsiSchema

/-- The columns of these indexes, and no large items. -/
def RowRules.ofIndexes (lsis : List LsiSchema) (gsis : List GsiSchema) : RowRules :=
  { RowRules.plain with
    generated := lsis.map (fun l => ⟨l.sortPgCol, l.sortAttr, l.sortType⟩) ++
      (gsis.filter fun g => !g.isDualWrite).flatMap GsiSchema.dualWriteCols }

structure TableSchema where
  name : String
  pgTable : String
  pkAttr : String
  pkType : KeyType
  sk : Option (String × KeyType)
  jsonbCol : String
  lsis : List LsiSchema
  gsis : List GsiSchema
  rules : RowRules

/-- What the storage layer is told about a table. -/
structure TableShape where
  table : String
  pkCol : String
  pkType : KeyType
  sk : Option (String × KeyType)
  jsonbCol : String
  dualWriteCols : List DualWriteCol
  rules : RowRules

namespace TableSchema

/-- Base keys, LSI sort keys, Generated-mode GSI keys: what PostgreSQL computes by itself. -/
def reservedCols (t : TableSchema) : List String :=
  t.pkAttr :: (t.sk.map Prod.fst).toList ++ t.lsis.map LsiSchema.sortPgCol
    ++ (t.gsis.filter fun g => !g.isDualWrite).flatMap GsiSchema.columns

/-- A column is kept the first time its name is seen. -/
def pushUnseen (acc : List String × List DualWriteCol) (c : DualWriteCol) :
    List String × List DualWriteCol :=
  if c.col ∈ acc.1 then acc else (c.col :: acc.1, acc.2 ++ [c])

def dualWriteCols (t : TableSchema) : List DualWriteCol :=
  let candidates := (t.gsis.filter GsiSchema.isDualWrite).flatMap GsiSchema.dualWriteCols
  let out := (candidates.foldl pushUnseen (t.reservedCols, [])).2
  out.insertionSort fun a b => a.col ≤ b.col

def shape (t : TableSchema) : TableShape :=
  ⟨t.pgTable, t.pkAttr, t.pkType, t.sk, t.jsonbCol, [], t.rules⟩

def shapeWithDualWrite (t : TableSchema) (cols : List DualWriteCol) : TableShape :=
  { t.shape with dualWriteCols := cols }

end TableSchema

end Rektifier
