import Rektifier.GsiState
import Rektifier.KeysetScan
import Rektifier.PercentCoding
import Mathlib.Data.Prod.Lex
import Mathlib.Data.List.Lex

namespace Rektifier

open Function

/-- The order of the column's type; a column holds values of one type. -/
def PgValue.Le : PgValue → PgValue → Prop
  | .text a, .text b => a ≤ b
  | .numeric a, .numeric b => a ≤ b
  | .bytea a, .bytea b => a.map UInt8.toNat ≤ b.map UInt8.toNat
  | _, _ => True

/-- `ORDER BY pk[, sk]`. -/
def PgKey.Le (a b : PgKey) : Prop :=
  (a.1.Le b.1 ∧ a.1 ≠ b.1) ∨ a.1 = b.1 ∧ ∀ x ∈ a.2, ∀ y ∈ b.2, x.Le y

/-- `col::text` of a generated key column. -/
def columnText (t : KeyType) (s : String) : String :=
  match t with
  | .s => s
  | .n => match Numeric.parse s with
    | some d => d.toText
    | none => s
  | .b => match Base64.decode s with
    | some bytes => String.ofList ('\\' :: 'x' :: hexEncode bytes)
    | none => s

def keyColumnText (col : String) (t : KeyType) (data : Json) : String :=
  columnText t ((extractText data col t.tag).getD "")

/-- The key columns' texts, as the resume predicate compares them. -/
abbrev TextKey := String ×ₗ String

def keyText (bk : BaseKey) (data : Json) : TextKey :=
  toLex (keyColumnText bk.pkCol bk.pkType data,
    match bk.sk with
    | some (col, t) => keyColumnText col t data
    | none => "")

inductive ResumeCursor where
  | simple (prev : Option String)
  | composite (prev : Option (String × String))
deriving DecidableEq

/-- The cursor a worker starts from. -/
def seedCursor (bk : BaseKey) (lastPkCopied : Option Json) : ResumeCursor :=
  match bk.sk with
  | some _ => .composite (lastPkCopied.bind fun v => do
      let p ← (v.get "pk").bind Json.asStr
      let s ← (v.get "sk").bind Json.asStr
      return (p, s))
  | none => .simple (lastPkCopied.bind Json.asStr)

def resumePred (bk : BaseKey) (cursor : ResumeCursor) (data : Json) : Bool :=
  match cursor, bk.sk with
  | .composite (some (p, s)), some (col, t) =>
    toLex (p, s) < toLex (keyColumnText bk.pkCol bk.pkType data, keyColumnText col t data)
  | .simple (some p), _ => p < keyColumnText bk.pkCol bk.pkType data
  | _, _ => true

/-- `last_pk_copied` after a chunk that ends with `data`. -/
def lastPkJson (bk : BaseKey) (data : Json) : Json :=
  match bk.sk with
  | some (col, t) => .obj [("pk", .str (keyColumnText bk.pkCol bk.pkType data)),
      ("sk", .str (keyColumnText col t data))]
  | none => .str (keyColumnText bk.pkCol bk.pkType data)

def cursorAfter (bk : BaseKey) (data : Json) : ResumeCursor :=
  match bk.sk with
  | some (col, t) => .composite (some (keyColumnText bk.pkCol bk.pkType data,
      keyColumnText col t data))
  | none => .simple (some (keyColumnText bk.pkCol bk.pkType data))

/-- Only the first column is looked at. -/
def nullFilter (cols : List DualWriteCol) (row : PgRow) : Bool :=
  cols.head?.all fun c => (row.cols c.col).isNone

def PgTable.setCols {bk : BaseKey} (t : PgTable bk) (k : PgKey) (cols : String → Option PgValue) :
    PgTable bk where
  rows := update t.rows k ((t.rows k).map fun row => { row with cols := cols })
  keyed := by
    intro k' row h
    by_cases hk : k' = k
    · subst hk
      rw [update_self] at h
      obtain ⟨row', hrow, rfl⟩ := Option.map_eq_some_iff.mp h
      exact t.keyed k' row' hrow
    · rw [update_of_ne hk] at h
      exact t.keyed k' row h

theorem PgTable.setCols_self {bk : BaseKey} (t : PgTable bk) (k : PgKey)
    (cols : String → Option PgValue) :
    (t.setCols k cols).rows k = (t.rows k).map fun row => { row with cols := cols } :=
  update_self _ _ _

theorem PgTable.setCols_of_ne {bk : BaseKey} (t : PgTable bk) {k k' : PgKey} (h : k' ≠ k)
    (cols : String → Option PgValue) : (t.setCols k cols).rows k' = t.rows k' :=
  update_of_ne h _ _

/-- Every column recomputed from the row's JSONB. -/
def fillRow {bk : BaseKey} (cols : List DualWriteCol) (t : PgTable bk) (k : PgKey) :
    Except PgError (PgTable bk) :=
  match t.rows k with
  | none => .ok t
  | some row => (fillCols cols row.data row.cols).map (t.setCols k)

/-- SET takes each column once, and no generated one. -/
def checkAssignable (generated : List String) (cols : List DualWriteCol) : Except PgError Unit :=
  if (cols.map DualWriteCol.col).Nodup then
    match cols.find? fun c => c.col ∈ generated with
    | some c => .error (.generatedAlways c.col)
    | none => .ok ()
  else .error .multipleAssignments

def defaultChunkSize : Int := 1000

/-- The generated columns, the column specs of the state row, and the chunk size. -/
structure BackfillEnv where
  generated : List String
  cols : List DualWriteCol
  chunkSize : Int

inductive RunChunk {bk : BaseKey} (env : BackfillEnv) (t : PgTable bk) (cursor : ResumeCursor) :
    List PgKey → PgTable bk → Prop
  | noCols : env.cols = [] → RunChunk env t cursor [] t
  | update {returned : List PgKey} {t' : PgTable bk} : env.cols ≠ [] → 0 ≤ env.chunkSize →
      checkAssignable env.generated env.cols = .ok () →
      Limited PgKey.Le env.chunkSize.toNat (fun k => ∃ row, t.rows k = some row ∧
        nullFilter env.cols row = true ∧ resumePred bk cursor row.data = true) returned →
      returned.foldlM (fillRow env.cols) t = .ok t' → RunChunk env t cursor returned t'

/-- The table, the stored cursor, and that of the running worker. -/
structure BackfillState (bk : BaseKey) where
  table : PgTable bk
  lastPkCopied : Option Json
  worker : Option ResumeCursor

inductive BackfillEvent where
  | start
  | crash
  | chunk (returned : List PgKey)

/-- A chunk commits its rows with the cursor; a worker can die between chunks. -/
inductive BackfillStep {bk : BaseKey} (env : BackfillEnv) (s : BackfillState bk) :
    BackfillEvent → BackfillState bk → Prop
  | start : BackfillStep env s .start { s with worker := some (seedCursor bk s.lastPkCopied) }
  | crash : BackfillStep env s .crash { s with worker := none }
  | chunk {cursor : ResumeCursor} {returned : List PgKey} {t' : PgTable bk} {last : PgKey}
      {row : PgRow} : s.worker = some cursor → RunChunk env s.table cursor returned t' →
      returned.getLast? = some last → s.table.rows last = some row →
      BackfillStep env s (.chunk returned)
        ⟨t', some (lastPkJson bk row.data), some (cursorAfter bk row.data)⟩

/-- `run_backfill` returns: its last chunk touched no row. -/
def BackfillState.Finished {bk : BaseKey} (env : BackfillEnv) (s : BackfillState bk) : Prop :=
  ∃ cursor, s.worker = some cursor ∧ RunChunk env s.table cursor [] s.table

end Rektifier
