import Rektifier.RelationNames
import Rektifier.CreateValidation
import Rektifier.SpecWriters
import Rektifier.SnapshotCache

namespace Rektifier

open List Function

variable {changes : List CatalogChange}

/-- `_rektifier_tables` by table name, and its copy in memory. -/
abbrev CatalogRows := String → Option TableEntry

/-- The verdict on a row; `columns` is `none` where the table does not exist. -/
def introspectEntry (hex8 : String → String) (e : TableEntry) (columns : Option Columns)
    (primaryKey : List String) (indexDefs : String → Option String) : TableEntry :=
  let view := columns.elim (fun _ => none) Columns.view
  let base := checkBase view "data" e.pkAttr e.pkType e.sk primaryKey
  let verdict := introspect (tableReason columns.isSome e.pgTable base)
    (fun judge => e.lsis.map fun l =>
      let reason := judge (checkLsi view indexDefs e.pkAttr l.name l.sortPgCol
        (deriveLsiIndexName hex8 e.pgTable l.name) l.sortType)
      { l with serveable := reason.isNone, unserveableReason := reason })
    fun judge => e.gsis.mapVals fun g => g.judged (judge (checkGsi view indexDefs g))
  { e with lsis := verdict.lsis, gsis := verdict.gsis }

/-- A committed change of the table of tables. -/
inductive CatalogChange where
  | created (entry : TableEntry)
  | updated (table : String) (gsis : OrderedMap String GsiSpec)
  | deleted (table : String)

def applyChange (rows : CatalogRows) : CatalogChange → CatalogRows
  | .created e => update rows e.name (some e)
  | .updated table gsis =>
    update rows table ((rows table).map fun e => { e with gsis := gsis })
  | .deleted table => update rows table none

/-- `UPDATE_VERDICT_SQL`: both arrays, of a row that is still there. -/
def writeVerdictRow (rows : CatalogRows) (table : String) (verdict : TableEntry) : CatalogRows :=
  update rows table
    ((rows table).map fun e => { e with lsis := verdict.lsis, gsis := verdict.gsis })

/-- A DDL call, with what it read from the cache. -/
inductive CatalogRequest where
  | create (plan : CreateTablePlan)
  | update (table : String) (entry : TableEntry) (req : UpdateTableRequest)
  | delete (table : String)

/-- The last look at the catalog before CreateTable and UpdateTable return. -/
def CatalogRequest.Described (rows : CatalogRows) : CatalogRequest → Prop
  | .create plan => (rows plan.tableName).isSome = true
  | .update table _ _ => (rows table).isSome = true
  | .delete _ => True

/-- One process with its catalog, DDL calls and reconcile passes. -/
structure CatalogState extends Snapshots CatalogRows CatalogChange where
  requests : Nat → Option CatalogRequest

inductive CatalogEvent where
  | request (c : Nat)
  | commit (c : Nat)
  | refresh (c : Nat)
  | returns (c : Nat)
  | fail (c : Nat)
  | work (table name : String)
  | load (p : Nat)
  | judge (p : Nat) (table : String)
  | write (p : Nat) (table : String)
  | replace (p : Nat)
  | stop (p : Nat)

namespace CatalogState

/-- After boot: the catalog is filled. -/
def start (rows : CatalogRows) : CatalogState :=
  ⟨⟨[], rows, rows, fun _ => .idle, fun _ => .idle⟩, fun _ => none⟩

def request (s : CatalogState) (c : Nat) (request : CatalogRequest) : CatalogState :=
  { s with requests := update s.requests c (some request) }

def commitCall (s : CatalogState) (c : Nat) (change : CatalogChange) : CatalogState :=
  { s with toSnapshots :=
      (s.toSnapshots.commit applyChange change).setCaller c (.committed (s.log.length + 1)) }

def commitWork (s : CatalogState) (change : CatalogChange) : CatalogState :=
  { s with toSnapshots := s.toSnapshots.commit applyChange change }

/-- The verdict in place of the row loaded. -/
def judgeRow (s : CatalogState) (p seen : Nat) (rows : CatalogRows) (table : String)
    (verdict : TableEntry) : CatalogState :=
  let judged := update rows table (some verdict)
  { s with toSnapshots := s.toSnapshots.setLoader p (.holds seen judged) }

end CatalogState

/-- Calls and passes of one process, with `invalidate_on_local_ddl`; a transaction is one step, and
so is a pass's read of all rows. -/
inductive CatalogStep (names : PgNames) (hex8 : String → String) :
    CatalogState → CatalogEvent → CatalogState → Prop
  | requestCreate {s : CatalogState} {c : Nat} {req : CreateTableRequest} {plan : CreateTablePlan} :
      s.requests c = none → s.callers c = .idle → validateCreateTable req = .ok plan →
      s.cache plan.tableName = none →
      CatalogStep names hex8 s (.request c) (s.request c (.create plan))
  | requestUpdate {s : CatalogState} {c : Nat} {table : String} {e : TableEntry}
      (req : UpdateTableRequest) : s.requests c = none → s.callers c = .idle →
      s.cache table = some e →
      CatalogStep names hex8 s (.request c) (s.request c (.update table e req))
  | requestDelete {s : CatalogState} {c : Nat} {table : String} : s.requests c = none →
      s.callers c = .idle → (s.cache table).isSome = true →
      CatalogStep names hex8 s (.request c) (s.request c (.delete table))
  | commitCreate {s : CatalogState} {c : Nat} {plan : CreateTablePlan} :
      s.requests c = some (.create plan) → s.callers c = .idle → s.stored plan.tableName = none →
      CatalogStep names hex8 s (.commit c) (s.commitCall c (.created (createEntry hex8 plan)))
  | commitUpdate {s : CatalogState} {c : Nat} {table : String} {e : TableEntry}
      {req : UpdateTableRequest} {columns : Columns} {after : TableState}
      {creates : List GsiSpec} : s.requests c = some (.update table e req) → s.callers c = .idle →
      updateTable names hex8 ⟨e, columns⟩ req = .ok (after, creates) →
      req.needsSpecUpdate = true →
      CatalogStep names hex8 s (.commit c) (s.commitCall c (.updated table after.entry.gsis))
  -- billing mode and throughput only
  | commitSettings {s : CatalogState} {c : Nat} {table : String} {e : TableEntry}
      {req : UpdateTableRequest} : s.requests c = some (.update table e req) →
      s.callers c = .idle → req.needsSpecUpdate = false →
      CatalogStep names hex8 s (.commit c)
        { s with toSnapshots := s.toSnapshots.setCaller c (.committed s.log.length) }
  | commitDelete {s : CatalogState} {c : Nat} {table : String} :
      s.requests c = some (.delete table) → s.callers c = .idle →
      (s.stored table).isSome = true →
      CatalogStep names hex8 s (.commit c) (s.commitCall c (.deleted table))
  | refresh {s : CatalogState} {c p count : Nat} : s.callers c = .committed count →
      s.loaders p = .idle →
      CatalogStep names hex8 s (.refresh c)
        { s with toSnapshots := (s.toSnapshots.setCaller c (.waits count p)).load p }
  | returns {s : CatalogState} {c p count : Nat} {request : CatalogRequest} :
      s.callers c = .waits count p → s.loaders p = .swapped → s.requests c = some request →
      request.Described s.cache →
      CatalogStep names hex8 s (.returns c)
        { s with toSnapshots := s.toSnapshots.setCaller c (.returned count) }
  | fail (s : CatalogState) (c : Nat) : (∀ count, s.callers c ≠ .returned count) →
      CatalogStep names hex8 s (.fail c)
        { s with toSnapshots := s.toSnapshots.setCaller c .failed }
  -- the workers of DualWrite GSIs, each in a transaction of its own
  | mark {s : CatalogState} {table : String} {e : TableEntry} (name : String) (serveable : Bool)
      (reason : Option String) (columns : Columns) : s.stored table = some e →
      CatalogStep names hex8 s (.work table name)
        (s.commitWork (.updated table (setServeable ⟨e, columns⟩ name serveable reason).entry.gsis))
  | remove {s : CatalogState} {table : String} {e : TableEntry} (name : String)
      (columns : Columns) : s.stored table = some e →
      CatalogStep names hex8 s (.work table name)
        (s.commitWork (.updated table (removeGsi ⟨e, columns⟩ name).entry.gsis))
  | load {s : CatalogState} {p : Nat} : s.loaders p = .idle →
      CatalogStep names hex8 s (.load p) { s with toSnapshots := s.toSnapshots.load p }
  -- a row of another status, or one that could not be introspected, is not judged
  | judge {s : CatalogState} {p seen : Nat} {rows : CatalogRows} {table : String} {e : TableEntry}
      (columns : Option Columns) (primaryKey : List String)
      (indexDefs : String → Option String) : s.loaders p = .holds seen rows →
      rows table = some e →
      CatalogStep names hex8 s (.judge p table)
        (s.judgeRow p seen rows table (introspectEntry hex8 e columns primaryKey indexDefs))
  | write {s : CatalogState} {p seen : Nat} {rows : CatalogRows} {table : String}
      {verdict : TableEntry} : s.loaders p = .holds seen rows → rows table = some verdict →
      CatalogStep names hex8 s (.write p table)
        { s with stored := writeVerdictRow s.stored table verdict }
  | replace {s : CatalogState} {p seen : Nat} {rows : CatalogRows} :
      s.loaders p = .holds seen rows →
      CatalogStep names hex8 s (.replace p)
        { s with toSnapshots := { s.toSnapshots with cache := rows }.setLoader p .swapped }
  | stop (s : CatalogState) (p : Nat) : CatalogStep names hex8 s (.stop p)
      { s with toSnapshots := s.toSnapshots.setLoader p .stopped }

/-- The entry without what a pass judges. -/
def TableEntry.unjudged (e : TableEntry) : TableEntry :=
  { e with
    lsis := e.lsis.map fun l => { l with serveable := false, unserveableReason := none }
    gsis := e.gsis.mapVals fun g => { g with serveable := false, unserveableReason := none } }

def unjudgedRows (rows : CatalogRows) (table : String) : Option TableEntry :=
  (rows table).map TableEntry.unjudged

def hasTable (rows : CatalogRows) (table : String) : Bool := (rows table).isSome

section Verdicts

variable {hex8 : String → String} {rows rows' : CatalogRows} {table : String}

theorem introspectEntry_unjudged (e : TableEntry) (columns : Option Columns)
    (primaryKey : List String) (indexDefs : String → Option String) :
    (introspectEntry hex8 e columns primaryKey indexDefs).unjudged = e.unjudged := by
  simp only [introspectEntry, introspect, TableEntry.unjudged, GsiSpec.judged, map_map,
    OrderedMap.mapVals_mapVals]
  rfl

/-- A verdict on unchanged keys changes nothing else. -/
theorem unjudged_withVerdict {e verdict : TableEntry} (h : verdict.unjudged = e.unjudged) :
    { e with lsis := verdict.lsis, gsis := verdict.gsis }.unjudged = e.unjudged := by
  simp only [TableEntry.unjudged, TableEntry.mk.injEq] at h ⊢
  exact ⟨trivial, trivial, trivial, trivial, trivial, h.2.2.2.2.2⟩

theorem unjudged_withGsis {e e' : TableEntry} (h : e.unjudged = e'.unjudged)
    (gsis : OrderedMap String GsiSpec) :
    { e with gsis := gsis }.unjudged = { e' with gsis := gsis }.unjudged := by
  simp only [TableEntry.unjudged, TableEntry.mk.injEq] at h ⊢
  exact ⟨h.1, h.2.1, h.2.2.1, h.2.2.2.1, h.2.2.2.2.1, h.2.2.2.2.2.1, trivial⟩

theorem unjudgedRows_update (entry : Option TableEntry) :
    unjudgedRows (update rows table entry)
      = update (unjudgedRows rows) table (entry.map TableEntry.unjudged) :=
  Function.comp_update (Option.map TableEntry.unjudged) rows table entry

theorem hasTable_update (entry : Option TableEntry) :
    hasTable (update rows table entry)
      = update (hasTable rows) table entry.isSome :=
  Function.comp_update Option.isSome rows table entry

theorem unjudgedRows_applyChange (rows rows' : CatalogRows) (change : CatalogChange)
    (h : unjudgedRows rows = unjudgedRows rows') :
    unjudgedRows (applyChange rows change) = unjudgedRows (applyChange rows' change) := by
  cases change with
  | created e | deleted table => simp only [applyChange, unjudgedRows_update, h]
  | updated table gsis =>
    have hrow : (rows table).map TableEntry.unjudged = (rows' table).map TableEntry.unjudged :=
      congrFun h table
    simp only [applyChange, unjudgedRows_update, h, Option.map_map]
    congr 1
    rcases hold : rows table with _ | e
    · rw [hold] at hrow
      rw [Option.map_eq_none_iff.mp hrow.symm]
    · rw [hold] at hrow
      obtain ⟨e', hnew, hsame⟩ := Option.map_eq_some_iff.mp hrow.symm
      rw [hnew]
      exact congrArg some (unjudged_withGsis hsame.symm gsis)

theorem hasTable_applyChange (rows rows' : CatalogRows) (change : CatalogChange)
    (h : hasTable rows = hasTable rows') :
    hasTable (applyChange rows change) = hasTable (applyChange rows' change) := by
  cases change with
  | created e | deleted table => simp only [applyChange, hasTable_update, h]
  | updated table gsis =>
    have hrow : (rows table).isSome = (rows' table).isSome := congrFun h table
    simp only [applyChange, hasTable_update, h, Option.isSome_map, hrow]

theorem writeVerdictRow_unjudged {verdict : TableEntry}
    (h : ∀ row, rows table = some row → verdict.unjudged = row.unjudged) :
    unjudgedRows (writeVerdictRow rows table verdict) = unjudgedRows rows := by
  rw [writeVerdictRow, unjudgedRows_update, update_eq_self_iff, unjudgedRows]
  rcases hrow : rows table with _ | row
  · rfl
  · exact congrArg some (unjudged_withVerdict (h row hrow))

theorem writeVerdictRow_hasTable (verdict : TableEntry) :
    hasTable (writeVerdictRow rows table verdict) = hasTable rows := by
  rw [writeVerdictRow, hasTable_update, update_eq_self_iff, Option.isSome_map, hasTable]

theorem hasTable_foldl (h : hasTable rows table)
    (hkept : CatalogChange.deleted table ∉ changes) :
    hasTable (changes.foldl applyChange rows) table := by
  induction changes generalizing rows with
  | nil => exact h
  | cons change changes ih =>
    refine ih ?_ (not_mem_of_not_mem_cons hkept)
    cases change with
    | created e =>
      rw [applyChange, hasTable_update, update_apply]
      split
      next => rfl
      next => exact h
    | updated other gsis =>
      rw [applyChange, hasTable_update, update_apply, Option.isSome_map]
      split
      next heq => exact heq ▸ h
      next => exact h
    | deleted other =>
      have hne : table ≠ other := by
        rintro rfl
        exact hkept mem_cons_self
      rw [applyChange, hasTable_update, update_of_ne hne]
      exact h

theorem not_hasTable_foldl (h : hasTable rows table = false)
    (haway : ∀ e, CatalogChange.created e ∈ changes → e.name ≠ table) :
    hasTable (changes.foldl applyChange rows) table = false := by
  induction changes generalizing rows with
  | nil => exact h
  | cons change changes ih =>
    refine ih ?_ fun e he => haway e (mem_cons_of_mem _ he)
    cases change with
    | created e =>
      rw [applyChange, hasTable_update, update_of_ne (haway e mem_cons_self).symm]
      exact h
    | updated other gsis =>
      rw [applyChange, hasTable_update, update_apply, Option.isSome_map]
      split
      next heq => exact heq ▸ h
      next => exact h
    | deleted other =>
      rw [applyChange, hasTable_update, update_apply]
      split
      next => rfl
      next => exact h

end Verdicts

end Rektifier
