import Rektifier.Delimited
import Rektifier.MemoCache
import Rektifier.PathLiteral

namespace Rektifier

inductive ParamType where
  | text | bytea | jsonb
deriving DecidableEq

def castForKeytype : KeyType → String
  | .s | .b => ""
  | .n => "::numeric"

def pgTypeForKeytype : KeyType → ParamType
  | .s | .n => .text
  | .b => .bytea

structure ShapeSql where
  putSql : String
  getSql : String
  deleteSql : String
  putTypes : List ParamType
  keyTypes : List ParamType
deriving DecidableEq

/-- `pk = $1`, with `AND sk = $2` for a composite key. -/
def TableShape.keyPredicateText (shape : TableShape) : String :=
  quoteIdent shape.pkCol ++ " = $1" ++ castForKeytype shape.pkType ++
    match shape.sk with
    | none => ""
    | some (col, t) => " AND " ++ quoteIdent col ++ " = $2" ++ castForKeytype t

def TableShape.conflictText (shape : TableShape) : String :=
  quoteIdent shape.pkCol ++
    match shape.sk with
    | none => ""
    | some (col, _) => ", " ++ quoteIdent col

/-- The item is bound behind the keys. -/
def TableShape.itemParam (shape : TableShape) : Nat :=
  match shape.sk with
  | none => 2
  | some _ => 3

def listed (parts : List String) : String := String.join (parts.map fun part => ", " ++ part)

def ShapeSql.build (shape : TableShape) : ShapeSql :=
  let table := quoteIdent shape.table
  let jsonbCol := quoteIdent shape.jsonbCol
  let cols := shape.dualWriteCols
  let keyTypes := pgTypeForKeytype shape.pkType ::
    (shape.sk.map fun sk => pgTypeForKeytype sk.2).toList
  { putSql := "WITH prev AS (SELECT " ++ jsonbCol ++ " AS old_data FROM " ++ table ++ " WHERE "
      ++ shape.keyPredicateText ++ ") INSERT INTO " ++ table ++ " (" ++ jsonbCol
      ++ listed (cols.map fun c => quoteIdent c.col)
      ++ ") VALUES ($" ++ toString shape.itemParam
      ++ listed (cols.map (dualWriteExtractExpr shape.itemParam))
      ++ ") ON CONFLICT (" ++ shape.conflictText
      ++ ") DO UPDATE SET " ++ jsonbCol ++ " = EXCLUDED." ++ jsonbCol
      ++ listed (cols.map fun c => dualWriteSetExcluded c shape.jsonbCol)
      ++ " RETURNING (SELECT old_data FROM prev) AS old_data"
    getSql := "SELECT " ++ jsonbCol ++ " FROM " ++ table ++ " WHERE " ++ shape.keyPredicateText
    deleteSql := "DELETE FROM " ++ table ++ " WHERE " ++ shape.keyPredicateText ++ " RETURNING "
      ++ jsonbCol
    putTypes := keyTypes ++ [.jsonb]
    keyTypes := keyTypes }

def DualWriteCol.signature (c : DualWriteCol) : String :=
  c.col ++ ":" ++ c.attr ++ ":" ++ c.keyType.tag

/-- The table, and the dual-write columns in the order of their signatures. -/
def shapeCacheKey (shape : TableShape) : String :=
  if shape.dualWriteCols = [] then shape.table
  else
    let parts := (shape.dualWriteCols.map DualWriteCol.signature).mergeSort
    shape.table ++ "|dw=" ++ ",".intercalate parts

/-- Under the read lock it is a hit, under the write lock a fill. -/
abbrev ShapeSqlStep := MemoCache.Step shapeCacheKey ShapeSql.build

example : (ShapeSql.build ⟨"rekt_t_orders", "id", .s, some ("no", .n), "data",
    [⟨"kind", "kind", .b⟩], .plain⟩).putSql =
    "WITH prev AS (SELECT \"data\" AS old_data FROM \"rekt_t_orders\" WHERE \"id\" = $1 AND " ++
    "\"no\" = $2::numeric) INSERT INTO \"rekt_t_orders\" (\"data\", \"kind\") VALUES ($3, " ++
    "decode(($3::jsonb #>> '\x7bkind,B\x7d'), 'base64')) ON CONFLICT (\"id\", \"no\") DO UPDATE " ++
    "SET \"data\" = EXCLUDED.\"data\", \"kind\" = decode(EXCLUDED.data #>> '\x7bkind,B\x7d', " ++
    "'base64') RETURNING (SELECT old_data FROM prev) AS old_data" := by
  decide +kernel

end Rektifier
