import Rektifier.MetadataRows

namespace Rektifier

abbrev RecordVerdict := Verdict (List LsiRecord) (List GsiEntry)

/-- Without both its type and its column a sort key is passed over. -/
def GsiEntry.spec (g : GsiEntry) : GsiSpec where
  name := g.name
  partitionAttr := g.partitionAttr
  partitionType := g.partitionType
  partitionPgCol := g.partitionPgCol
  sort := match g.sortPgCol, g.sortType with
    | some col, some keyType => some ⟨col, g.sortAttr.getD "", keyType⟩
    | _, _ => none
  indexName := g.indexName
  mode := g.mode
  serveable := g.serveable
  unserveableReason := g.unserveableReason

def LsiRecord.judged (l : LsiRecord) (reason : Option String) : LsiRecord :=
  { l with serveable := reason.isNone, unserveableReason := reason }

def GsiEntry.judged (g : GsiEntry) (reason : Option String) : GsiEntry :=
  { g with serveable := reason.isNone, unserveableReason := reason }

def TableRecord.catalogEntry (e : TableRecord) : CatalogEntry where
  pgTable := e.schema.pgTable
  pkAttr := e.schema.pkAttr
  pkType := e.schema.pkType
  sk := match e.schema.skAttr, e.schema.skType with
    | some attr, some keyType => some (attr, keyType)
    | _, _ => none
  jsonbCol := e.schema.jsonbCol
  lsis := e.lsis.map LsiRecord.toLsiSpec
  gsis := e.gsis.entries.map fun g => g.2.spec

namespace TableRecord

variable (t : PhysicalTable) (schema : String) (e : TableRecord)

def tableReason : Option (String × String) :=
  Rektifier.tableReason (t.columns ≠ []) e.schema.pgTable (t.baseReason e.catalogEntry)

def lsiReason (l : LsiRecord) : Option String :=
  indexReason (e.tableReason t) (t.lsiReason schema e.catalogEntry l.toLsiSpec)

def gsiReason (g : GsiEntry) : Option String :=
  indexReason (e.tableReason t) (t.gsiReason schema e.catalogEntry g.spec)

/-- On the GSIs in the order the map gives them. -/
def introspect (gsis : List GsiEntry) : RecordVerdict :=
  Rektifier.introspect (e.tableReason t)
    (fun judge => e.lsis.map fun l =>
      l.judged (judge (t.lsiReason schema e.catalogEntry l.toLsiSpec)))
    fun judge => gsis.map fun g => g.judged (judge (t.gsiReason schema e.catalogEntry g.spec))

def storedVerdict (gsis : List GsiEntry) : RecordVerdict :=
  ⟨e.status, e.serveable, e.unserveableReason, e.lsis, gsis⟩

/-- The published entry; the translator's copy in the schema stays as it was read. -/
def merged (verdict : RecordVerdict) (now : Int) : TableRecord :=
  let gsis := gsisByName verdict.gsis
  let e' := { e with
    status := verdict.status
    serveable := verdict.serveable
    unserveableReason := verdict.reason
    lsis := verdict.lsis
    gsis := gsis }
  if verdict.status ≠ e.status ∨ verdict.serveable ≠ e.serveable ∨
      verdict.reason ≠ e.unserveableReason ∨ verdict.lsis ≠ e.lsis ∨ gsis.entries ≠ e.gsis.entries then
    { e' with lastModifiedAtMs := now, lastModifiedBy := "reconciler" }
  else e'

end TableRecord

def MetadataRow.writeVerdict (row : MetadataRow) (verdict : RecordVerdict) (now : Int) :
    MetadataRow :=
  { row with
    status := verdict.status.asInternalStr
    serveable := verdict.serveable
    unserveableReason := verdict.reason
    lsiSpecs := lsiSpecsToJson verdict.lsis
    gsiSpecs := gsiSpecsToJson verdict.gsis
    lastModifiedAtMs := now
    lastModifiedBy := "reconciler" }

structure MetadataTable where
  rows : List MetadataRow
  primaryKey : (rows.map MetadataRow.tableName).Nodup

/-- The tables by their names in the database, if the queries for one succeed; the time; and the
order each hash map gives the GSIs in. -/
structure Pass where
  physical : String → Option PhysicalTable
  schema : String
  now : Int
  values : String → OrderedMap String GsiEntry → List GsiEntry
  values_perm : ∀ name m, (values name m).Perm (m.entries.map Prod.snd)

/-- The row it leaves, the entry it publishes, and whether it wrote. -/
structure RowOutcome where
  row : MetadataRow
  entry : TableRecord
  written : Bool

structure PassOutcome where
  rows : List MetadataRow
  snapshot : OrderedMap String TableRecord
  updatesWritten : Nat

namespace Pass

variable (p : Pass)

def reconcileRow (row : MetadataRow) (e : TableRecord) : RowOutcome :=
  if e.status.isReconcilerOwned then
    match p.physical e.schema.pgTable with
    | none => ⟨row, e, false⟩
    | some t =>
      let gsis := p.values e.schema.name e.gsis
      let verdict := e.introspect t p.schema gsis
      ⟨if verdict ≠ e.storedVerdict gsis then row.writeVerdict verdict p.now else row,
        e.merged verdict p.now, verdict ≠ e.storedVerdict gsis⟩
  else ⟨row, e, false⟩

def reconcileNow (rows : List MetadataRow) : Except CatalogError PassOutcome := do
  let stored ← rows.mapM MetadataRow.rowToEntry
  let outcomes := (rows.zip stored).map fun r => p.reconcileRow r.1 r.2
  return ⟨outcomes.map RowOutcome.row, .ofList (outcomes.map fun o => (o.entry.schema.name, o.entry)),
    outcomes.countP RowOutcome.written⟩

end Pass

end Rektifier
