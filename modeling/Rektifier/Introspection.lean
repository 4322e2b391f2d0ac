import Rektifier.CatalogRefresh
import Rektifier.ColumnNames

namespace Rektifier

/-- They can name a column without quotes and are printed in quotes all the same. -/
def colNameKeywords : List String :=
  ["between", "bigint", "bit", "boolean", "char", "character", "coalesce", "dec", "decimal",
    "exists", "extract", "float", "greatest", "grouping", "inout", "int", "integer", "interval",
    "json", "json_array", "json_arrayagg", "json_exists", "json_object", "json_objectagg",
    "json_query", "json_scalar", "json_serialize", "json_table", "json_value", "least",
    "merge_action", "national", "nchar", "none", "normalize", "nullif", "numeric", "out", "overlay",
    "position", "precision", "real", "row", "setof", "smallint", "substring", "time", "timestamp",
    "treat", "trim", "values", "varchar", "xmlattributes", "xmlconcat", "xmlelement", "xmlexists",
    "xmlforest", "xmlnamespaces", "xmlparse", "xmlpi", "xmlroot", "xmlserialize", "xmltable"]

def isSafeChar (c : Char) : Bool := c.isLower || c.isDigit || c = '_'

def printsPlain (name : String) : Bool :=
  !name.toList.isEmpty && name.toList.all isSafeChar && !(name.toList.head?.any Char.isDigit) &&
    name ∉ reservedKeywords ++ colNameKeywords

def quoteIdentifier (name : String) : String := if printsPlain name then name else quoteIdent name

structure RawColumn where
  name : String
  dataType : String
  isGenerated : String
deriving DecidableEq

/-- A column with what is printed behind it, or an expression. -/
inductive IndexKey where
  | column (name : String) (options : List String)
  | expression (text : String)
deriving DecidableEq

/-- What `pg_get_indexdef` prints; `rest` comes after the INCLUDE list. -/
structure IndexDef where
  name : String
  unique : Bool
  method : String
  keys : List IndexKey
  included : List String
  rest : String
deriving DecidableEq

def IndexKey.text : IndexKey → String
  | .column name options => quoteIdentifier name ++ String.join (options.map fun o => " " ++ o)
  | .expression text => text

def IndexKey.column? : IndexKey → Option String
  | .column name _ => some name
  | .expression _ => none

def listText (names : List String) : String := "(" ++ ", ".intercalate names ++ ")"

namespace IndexDef

def keyColumns (d : IndexDef) : Option (List String) := d.keys.mapM IndexKey.column?

def head (schema table : String) (d : IndexDef) : String :=
  "CREATE " ++ (if d.unique then "UNIQUE " else "") ++ "INDEX " ++ quoteIdentifier d.name ++ " ON "
    ++ schema ++ "." ++ quoteIdentifier table ++ " USING " ++ d.method ++ " "

def includeText (d : IndexDef) : String :=
  if d.included = [] then "" else " INCLUDE " ++ listText (d.included.map quoteIdentifier)

def text (schema table : String) (d : IndexDef) : String :=
  d.head schema table ++ listText (d.keys.map IndexKey.text) ++ d.includeText ++ d.rest

end IndexDef

/-- A table as the reconciler reads it. -/
structure PhysicalTable where
  columns : List RawColumn
  primaryKey : List String
  indexes : List IndexDef
  columnsApart : (columns.map RawColumn.name).Nodup
  indexesApart : (indexes.map IndexDef.name).Nodup

structure LsiSpec where
  name : String
  sortAttr : String
  sortType : KeyType
  sortPgCol : String
  indexName : String
  serveable : Bool
  unserveableReason : Option String
deriving DecidableEq

/-- What a pass reads of a row of `_rektifier_tables`. -/
structure CatalogEntry where
  pgTable : String
  pkAttr : String
  pkType : KeyType
  sk : Option (String × KeyType)
  jsonbCol : String
  lsis : List LsiSpec
  gsis : List GsiSpec

abbrev ReconcileVerdict := Verdict (List LsiSpec) (List GsiSpec)

def CatalogEntry.baseKey (e : CatalogEntry) : List (String × KeyType) :=
  (e.pkAttr, e.pkType) :: e.sk.toList

namespace PhysicalTable

variable (t : PhysicalTable)

def column? (col : String) : Option RawColumn := t.columns.find? fun c => c.name = col

def view : ColumnView := fun col => (t.column? col).map fun c => (c.dataType, c.isGenerated)

def indexDefs (schema table name : String) : Option String :=
  (t.indexes.find? fun d => d.name = name).map (IndexDef.text schema table)

/-- The first reason that degrades the table. -/
def baseReason (e : CatalogEntry) : Option String :=
  checkBase t.view e.jsonbCol e.pkAttr e.pkType e.sk t.primaryKey

def lsiReason (schema : String) (e : CatalogEntry) (lsi : LsiSpec) : Option String :=
  checkLsi t.view (t.indexDefs schema e.pgTable) e.pkAttr lsi.name lsi.sortPgCol lsi.indexName
    lsi.sortType

def gsiReason (schema : String) (e : CatalogEntry) (g : GsiSpec) : Option String :=
  checkGsi t.view (t.indexDefs schema e.pgTable) g

end PhysicalTable

def LsiSpec.judged (lsi : LsiSpec) (reason : Option String) : LsiSpec :=
  { lsi with serveable := reason.isNone, unserveableReason := reason }

/-- The verdict on one table; one without columns does not exist. -/
def PhysicalTable.introspect (t : PhysicalTable) (schema : String) (e : CatalogEntry) :
    ReconcileVerdict :=
  Rektifier.introspect (tableReason (t.columns ≠ []) e.pgTable (t.baseReason e))
    (fun judge => e.lsis.map fun l => l.judged (judge (t.lsiReason schema e l)))
    fun judge => e.gsis.map fun g => g.judged (judge (t.gsiReason schema e g))

def TableEntry.catalogEntry (hex8 : String → String) (e : TableEntry) : CatalogEntry where
  pgTable := e.pgTable
  pkAttr := e.pkAttr
  pkType := e.pkType
  sk := e.sk
  jsonbCol := "data"
  lsis := e.lsis.map fun l => ⟨l.name, l.sortAttr, l.sortType, l.sortPgCol,
    deriveLsiIndexName hex8 e.pgTable l.name, l.serveable, l.unserveableReason⟩
  gsis := e.gsis.entries.map Prod.snd

namespace PhysicalTable

/-- The columns are of types that the catalog knows. -/
def Shows (t : PhysicalTable) (columns : Columns) : Prop := ∀ col, t.view col = columns.view col

theorem listText_pair (a b : String) : listText [a, b] = "(" ++ a ++ ", " ++ b ++ ")" := by
  simp [listText, String.append_assoc]

theorem listText_columns (g : GsiSpec) : listText g.columns = g.expectedColumns := by
  cases hs : g.sort with
  | none => simp [listText, GsiSpec.columns, GsiSpec.cols, GsiSpec.expectedColumns, hs]
  | some s =>
    have hcols : g.columns = [g.partitionPgCol, s.col] := by
      simp [GsiSpec.columns, GsiSpec.cols, hs]
    rw [hcols, listText_pair, GsiSpec.expectedColumns, hs]

end PhysicalTable

end Rektifier
