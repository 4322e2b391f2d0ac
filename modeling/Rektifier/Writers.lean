import Rektifier.UpdateSql
import Rektifier.Backfill

namespace Rektifier

open Fallible

variable {bk : BaseKey}

/-- PutItem: `INSERT … ON CONFLICT (key) DO UPDATE SET data = EXCLUDED.data, cols…`. -/
def putItem (cols : List DualWriteCol) (t : PgTable bk) (data : Json) :
    Except PgError (PgTable bk) := do
  let proposed ← newVersion cols data nullCols
  let k ← generatedCols bk data
  match t.rows k with
  | none => t.write none proposed
  | some old => t.replaceData k old cols data

def PgTable.deleteRow (t : PgTable bk) (k : PgKey) : PgTable bk where
  rows := t.without (some k)
  keyed := fun _ _ h => PgTable.generatedKey_of_without h

/-- A put, an insert-only update, or the UPDATE of the other update paths, which keeps the key. -/
inductive Writes (cols : List DualWriteCol) (t : PgTable bk) (data : Json) : PgTable bk → Prop
  | put {t' : PgTable bk} : putItem cols t data = .ok t' → Writes cols t data t'
  | insert {stmt : InsertOnlySql} {params : List Param} {t' : PgTable bk} : stmt.cols = cols →
      stmt.exec params t = .ok (some (t', data)) → Writes cols t data t'
  | update {k : PgKey} {old : PgRow} {t' : PgTable bk} : t.rows k = some old →
      generatedKey bk data = .ok k → t.replaceData k old cols data = .ok t' → Writes cols t data t'

/-- Not declared, backfilled, with the backfill returned, its index being built, active. -/
inductive GsiProgress where
  | undeclared | filling | filled | indexing | active
deriving DecidableEq

structure RaceState (bk : BaseKey) where
  backfill : BackfillState bk
  progress : GsiProgress

def RaceState.table (s : RaceState bk) : PgTable bk := s.backfill.table

def RaceState.withTable (s : RaceState bk) (t : PgTable bk) : RaceState bk :=
  { s with backfill := { s.backfill with table := t } }

/-- Each write comes with the schema its request loaded. -/
inductive RaceEvent where
  | write (snapshot : TableSchema) (data : Json)
  | delete (k : PgKey)
  | commit
  | backfill (e : BackfillEvent)
  | filled
  | crash
  | indexing
  | promote

/-- Writers, the commit of UpdateTable, and the create worker, step by step. -/
inductive RaceStep (env : BackfillEnv) (s : RaceState bk) : RaceEvent → RaceState bk → Prop
  | write {snapshot : TableSchema} {data : Json} {t : PgTable bk} :
      Writes snapshot.dualWriteCols s.table data t →
      RaceStep env s (.write snapshot data) (s.withTable t)
  | delete (k : PgKey) : RaceStep env s (.delete k) (s.withTable (s.table.deleteRow k))
  | commit : s.progress = .undeclared → s.backfill.worker = none →
      RaceStep env s .commit { s with progress := .filling }
  | backfill {e : BackfillEvent} {b : BackfillState bk} : s.progress = .filling →
      BackfillStep env s.backfill e b → RaceStep env s (.backfill e) { s with backfill := b }
  | filled : s.progress = .filling → s.backfill.Finished env →
      RaceStep env s .filled { s with progress := .filled }
  | crash : s.progress = .filled →
      RaceStep env s .crash ⟨{ s.backfill with worker := none }, .filling⟩
  | indexing : s.progress = .filled → RaceStep env s .indexing { s with progress := .indexing }
  | promote : s.progress = .indexing → RaceStep env s .promote { s with progress := .active }

/-- A new row starts from NULLs. -/
def PgTable.storedCols (t : PgTable bk) (k : PgKey) : String → Option PgValue :=
  (t.rows k).elim nullCols PgRow.cols

variable {cols : List DualWriteCol} {t t' : PgTable bk} {data : Json}

theorem newVersion_eq {start : String → Option PgValue} {row : PgRow}
    (h : newVersion cols data start = .ok row) :
    ∃ m, fillCols cols data start = .ok m ∧ row = ⟨data, m⟩ := by
  obtain ⟨m, hm, h⟩ := bind_ok h
  cases h
  exact ⟨m, hm, rfl⟩

theorem write_rows {old : Option PgKey} {row : PgRow} {k : PgKey}
    (hk : generatedKey bk row.data = .ok k) (h : t.write old row = .ok t') :
    t'.rows = Function.update (t.without old) k (some row) := by
  obtain ⟨k', hcols, _, _, hrows⟩ := PgTable.write_eq h
  cases hk.symm.trans (generatedCols_ok_iff.mp hcols).2
  exact hrows

theorem replaceData_rows {k : PgKey} {old : PgRow} (hk : generatedKey bk data = .ok k)
    (h : t.replaceData k old cols data = .ok t') :
    ∃ m, fillCols cols data old.cols = .ok m ∧
      t'.rows = Function.update t.rows k (some ⟨data, m⟩) := by
  obtain ⟨row, hrow, hwrite⟩ := bind_ok h
  obtain ⟨m, hm, rfl⟩ := newVersion_eq hrow
  refine ⟨m, hm, ?_⟩
  rw [write_rows hk hwrite]
  exact Function.update_idem _ _ _

/-- The item is stored with the snapshot's columns filled from it and the others as they were. -/
theorem Writes.rows (h : Writes cols t data t') : ∃ k m, generatedKey bk data = .ok k ∧
    fillCols cols data (t.storedCols k) = .ok m ∧
    t'.rows = Function.update t.rows k (some ⟨data, m⟩) := by
  cases h with
  | put h =>
    obtain ⟨row, hrow, h⟩ := bind_ok h
    obtain ⟨k, hcols, h⟩ := bind_ok h
    have hk := (generatedCols_ok_iff.mp hcols).2
    split at h
    · rename_i hnone
      obtain ⟨m, hm, rfl⟩ := newVersion_eq hrow
      refine ⟨k, m, hk, ?_, write_rows hk h⟩
      rw [PgTable.storedCols, hnone]
      exact hm
    · rename_i old hold
      obtain ⟨m, hm, hrows⟩ := replaceData_rows hk h
      refine ⟨k, m, hk, ?_, hrows⟩
      rw [PgTable.storedCols, hold]
      exact hm
  | insert hnew h =>
    subst hnew
    obtain ⟨item, _, h⟩ := bind_ok h
    obtain ⟨row, hrow, h⟩ := bind_ok h
    obtain ⟨k, hcols, h⟩ := bind_ok h
    have hk := (generatedCols_ok_iff.mp hcols).2
    split at h
    · rename_i hnone
      obtain ⟨t'', hwrite, h⟩ := bind_ok h
      cases h
      obtain ⟨m, hm, rfl⟩ := newVersion_eq hrow
      refine ⟨k, m, hk, ?_, write_rows hk hwrite⟩
      rw [PgTable.storedCols, hnone]
      exact hm
    · cases h
  | @update k old _ hold hk h =>
    obtain ⟨m, hm, hrows⟩ := replaceData_rows hk h
    refine ⟨k, m, hk, ?_, hrows⟩
    rw [PgTable.storedCols, hold]
    exact hm

end Rektifier
