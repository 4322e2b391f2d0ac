import Rektifier.PassVerdicts
import Rektifier.QueryPlan

namespace Rektifier

open List

abbrev IndexFlags := Bool × Option String

def LsiRecord.flags (l : LsiRecord) : IndexFlags := (l.serveable, l.unserveableReason)

def GsiEntry.flags (g : GsiEntry) : IndexFlags := (g.serveable, g.unserveableReason)

def LsiSchema.flags (l : LsiSchema) : IndexFlags := (l.serveable, l.unserveableReason)

def GsiMirror.flags (g : GsiMirror) : IndexFlags := (g.serveable, g.unserveableReason)

/-- The translator's schema has every index with the entry's flags. -/
def TableRecord.Agrees (e : TableRecord) : Prop :=
  (∀ l ∈ e.lsis, (e.schema.lsis.get l.name).map LsiSchema.flags = some l.flags) ∧
    ∀ name, (e.schema.gsis.get name).map GsiMirror.flags = (e.gsis.get name).map GsiEntry.flags

/-- The sort key counts with all its parts. -/
def GsiMirror.gsiSchema (g : GsiMirror) : GsiSchema where
  name := g.name
  partitionAttr := g.partitionAttr
  partitionType := g.partitionType
  partitionPgCol := g.partitionPgCol
  sort := match g.sortPgCol, g.sortAttr, g.sortType with
    | some col, some attr, some keyType => some ⟨col, attr, keyType⟩
    | _, _, _ => none
  isDualWrite := g.isDualWrite
  serveable := g.serveable
  unserveableReason := g.unserveableReason

def CatalogSchema.tableSchema (s : CatalogSchema) : TableSchema where
  name := s.name
  pgTable := s.pgTable
  pkAttr := s.pkAttr
  pkType := s.pkType
  sk := match s.skAttr, s.skType with
    | some attr, some keyType => some (attr, keyType)
    | _, _ => none
  jsonbCol := s.jsonbCol
  lsis := s.lsis.entries.map Prod.snd
  gsis := s.gsis.entries.map fun g => g.2.gsiSchema
  rules := .ofIndexes (s.lsis.entries.map Prod.snd) (s.gsis.entries.map fun g => g.2.gsiSchema)

def lsisByName (specs : List LsiRecord) : OrderedMap String LsiRecord :=
  .ofList (specs.map fun s => (s.name, s))

namespace Pass

variable (p : Pass) (e : TableRecord)

/-- The table the pass judges an entry by, if it does. -/
def judging : Option PhysicalTable :=
  if e.status.isReconcilerOwned then p.physical e.schema.pgTable else none

/-- What the pass finds; where it does not look, what is stored. -/
def lsiFound (l : LsiRecord) : IndexFlags :=
  match p.judging e with
  | some t => ((e.lsiReason t p.schema l).isNone, e.lsiReason t p.schema l)
  | none => l.flags

def gsiFound (g : GsiEntry) : IndexFlags :=
  match p.judging e with
  | some t => ((e.gsiReason t p.schema g).isNone, e.gsiReason t p.schema g)
  | none => g.flags

/-- What is stored of each index is what the pass finds. Of LSIs with one name the last counts. -/
def Current : Prop :=
  (∀ l ∈ e.lsis, ((lsisByName e.lsis).get l.name).map LsiRecord.flags = some (p.lsiFound e l)) ∧
    ∀ name g, e.gsis.get name = some g → g.flags = p.gsiFound e g

end Pass

section Flags

variable {p : Pass} {row : MetadataRow} {e : TableRecord}

theorem lsiMirrors_eq (specs : List LsiRecord) :
    lsiMirrors specs = (lsisByName specs).mapVals LsiRecord.mirror := by
  rw [lsisByName, OrderedMap.mapVals_ofList, map_map]
  rfl

/-- A row is read with its flags twice. -/
theorem rowToEntry_mirrors (h : row.rowToEntry = .ok e) :
    e.schema.lsis = (lsisByName e.lsis).mapVals LsiRecord.mirror ∧
      e.schema.gsis = e.gsis.mapVals GsiEntry.mirror := by
  obtain ⟨status, pkType, skType, lsis, gsis, _, rfl⟩ := row.rowToEntry_ok_iff.mp h
  refine ⟨lsiMirrors_eq lsis, ?_⟩
  show OrderedMap.ofList _ = (gsisByName gsis).mapVals GsiEntry.mirror
  rw [gsisByName, OrderedMap.mapVals_ofList, map_map]
  rfl

/-- Whatever the order they were judged in. -/
theorem gsisByName_judged {gsis : List GsiEntry} (hnamed : e.GsisNamed)
    (hvalues : gsis.Perm (e.gsis.entries.map Prod.snd)) (reason : GsiEntry → Option String) :
    gsisByName (gsis.map fun g => g.judged (reason g)) =
      e.gsis.mapVals fun g => g.judged (reason g) := by
  rw [← TableRecord.gsisByName_values hnamed hvalues, gsisByName, gsisByName,
    OrderedMap.mapVals_ofList, map_map, map_map]
  rfl

theorem lsis_merged (v : RecordVerdict) (now : Int) : (e.merged v now).lsis = v.lsis := by
  have h := TableRecord.verdict_merged (e := e) v now
  simp only [TableRecord.verdict, Prod.mk.injEq] at h
  exact h.2.2.2.1

theorem gsis_merged (v : RecordVerdict) (now : Int) :
    (e.merged v now).gsis = gsisByName v.gsis := by
  have h := TableRecord.verdict_merged (e := e) v now
  simp only [TableRecord.verdict, Prod.mk.injEq] at h
  exact h.2.2.2.2

theorem reconcileRow_skipped (row : MetadataRow) (h : p.judging e = none) :
    (p.reconcileRow row e).entry = e := by
  unfold Pass.judging at h
  unfold Pass.reconcileRow
  split
  · next howned =>
    rw [if_pos howned] at h
    rw [h]
  · rfl

theorem reconcileRow_judged (row : MetadataRow) {t : PhysicalTable} (h : p.judging e = some t) :
    (p.reconcileRow row e).entry =
      e.merged (e.introspect t p.schema (p.values e.schema.name e.gsis)) p.now := by
  unfold Pass.judging at h
  unfold Pass.reconcileRow
  split at h
  · next howned => rw [if_pos howned, h]
  · cases h

theorem published_agrees_iff (hread : row.rowToEntry = .ok e) :
    (p.reconcileRow row e).entry.Agrees ↔ p.Current e := by
  obtain ⟨hlsis, hgsis⟩ := rowToEntry_mirrors hread
  have hlsi : ∀ name, (e.schema.lsis.get name).map LsiSchema.flags =
      ((lsisByName e.lsis).get name).map LsiRecord.flags := by
    intro name
    rw [hlsis, OrderedMap.get_mapVals, Option.map_map]
    rfl
  have hgsi : ∀ name, (e.schema.gsis.get name).map GsiMirror.flags =
      (e.gsis.get name).map GsiEntry.flags := by
    intro name
    rw [hgsis, OrderedMap.get_mapVals, Option.map_map]
    rfl
  cases hjudging : p.judging e with
  | none =>
    have hlsiFound : ∀ l, p.lsiFound e l = l.flags := fun l => by rw [Pass.lsiFound, hjudging]
    have hgsiFound : ∀ g, p.gsiFound e g = g.flags := fun g => by rw [Pass.gsiFound, hjudging]
    rw [reconcileRow_skipped row hjudging]
    constructor
    · rintro ⟨hleft, _⟩
      refine ⟨fun l hl => ?_, fun _ g _ => (hgsiFound g).symm⟩
      rw [← hlsi, hlsiFound]
      exact hleft l hl
    · rintro ⟨hleft, _⟩
      refine ⟨fun l hl => ?_, hgsi⟩
      rw [hlsi, ← hlsiFound]
      exact hleft l hl
  | some t =>
    have hlsiFound : ∀ l, (l.judged (e.lsiReason t p.schema l)).flags = p.lsiFound e l :=
      fun l => by rw [Pass.lsiFound, hjudging]; rfl
    have hgsiFound : ∀ g, (g.judged (e.gsiReason t p.schema g)).flags = p.gsiFound e g :=
      fun g => by rw [Pass.gsiFound, hjudging]; rfl
    have hpublished : (p.reconcileRow row e).entry.gsis =
        e.gsis.mapVals fun g => g.judged (e.gsiReason t p.schema g) := by
      rw [reconcileRow_judged row hjudging, gsis_merged]
      exact gsisByName_judged (rowToEntry_gsisNamed hread)
        (p.values_perm e.schema.name e.gsis) (e.gsiReason t p.schema)
    have hlist : (p.reconcileRow row e).entry.lsis =
        e.lsis.map fun l => l.judged (e.lsiReason t p.schema l) := by
      rw [reconcileRow_judged row hjudging, lsis_merged]
      rfl
    have hschema : (p.reconcileRow row e).entry.schema = e.schema := by
      rw [reconcileRow_judged row hjudging, TableRecord.schema_merged]
    unfold TableRecord.Agrees
    rw [hpublished, hlist, hschema, forall_mem_map]
    refine and_congr (forall₂_congr fun l _ => ?_) ⟨fun h name g hget => ?_, fun h name => ?_⟩
    · rw [hlsiFound, ← hlsi]
      rfl
    · have hhere := h name
      rw [hgsi, OrderedMap.get_mapVals, hget] at hhere
      exact (Option.some.inj hhere).trans (hgsiFound g)
    · rw [hgsi, OrderedMap.get_mapVals]
      cases hget : e.gsis.get name with
      | none => rfl
      | some g => exact congrArg some ((h name g hget).trans (hgsiFound g).symm)

end Flags

/-- The flags requests are answered by are those of the same pass exactly where the pass finds what
was stored before it. -/
theorem published_flags_iff (p : Pass) (table : MetadataTable) {outcome : PassOutcome}
    (h : p.reconcileNow table.rows = .ok outcome) :
    (∀ name e, outcome.snapshot.get name = some e → e.Agrees) ↔
      ∀ row ∈ table.rows, ∀ e, row.rowToEntry = .ok e → p.Current e := by
  obtain ⟨stored, hstored, rfl⟩ := reconcileNow_ok_iff.mp h
  obtain ⟨hrows, hreads⟩ := zip_reads hstored
  constructor
  · intro hagree row hrow e hread
    rw [← hrows] at hrow
    obtain ⟨r, hr, rfl⟩ := mem_map.mp hrow
    have he : r.2 = e := Except.ok.inj ((hreads r hr).symm.trans hread)
    rw [← he, ← published_agrees_iff (hreads r hr)]
    exact hagree _ _ ((snapshot_get_iff table.primaryKey hstored).mpr ⟨r, hr, rfl, rfl⟩)
  · intro hcurrent name e hget
    obtain ⟨r, hr, _, rfl⟩ := (snapshot_get_iff table.primaryKey hstored).mp hget
    have hrow : r.1 ∈ table.rows := hrows ▸ mem_map_of_mem hr
    exact (published_agrees_iff (hreads r hr)).mpr (hcurrent r.1 hrow r.2 (hreads r hr))

/-- A lost index stored as lost. -/
def lostTable : MetadataTable := tagTable [tagRecord "by-tag" "idx1" none,
  tagRecord "by-tag-2" "idx2" (some "GSI `by-tag-2` index `idx2` missing from pg_indexes")]

/-- A lost index stored as served. -/
def losingTable : MetadataTable :=
  tagTable [tagRecord "by-tag" "idx1" none, tagRecord "by-tag-2" "idx2" none]

theorem published_flags_iff_lost : ∃ outcome,
    (samplePass orderedTable 1 false).reconcileNow lostTable.rows = .ok outcome ∧
      ∀ name e, outcome.snapshot.get name = some e → e.Agrees := by
  have hok : ((samplePass orderedTable 1 false).reconcileNow lostTable.rows).isOk = true := by
    decide +kernel
  have hcurrent : ∀ row ∈ lostTable.rows, (row.rowToEntry.toOption.any fun e =>
      e.lsis.isEmpty && e.gsis.entries.all fun g =>
        g.2.flags = (samplePass orderedTable 1 false).gsiFound e g.2) = true := by
    decide +kernel
  cases houtcome : (samplePass orderedTable 1 false).reconcileNow lostTable.rows with
  | error err =>
    rw [houtcome] at hok
    cases hok
  | ok outcome =>
    refine ⟨outcome, rfl, (published_flags_iff _ _ houtcome).mpr ?_⟩
    intro row hrow e hread
    have hrow' := hcurrent row hrow
    rw [hread] at hrow'
    obtain ⟨hlsis, hgsis⟩ := Bool.and_eq_true_iff.mp hrow'
    refine ⟨?_, ?_⟩
    · rw [isEmpty_iff.mp hlsis]
      exact fun _ hl => absurd hl not_mem_nil
    · intro name g hget
      exact of_decide_eq_true (all_eq_true.mp hgsis _ (Entries.get_eq_some_mem hget))

/-- The pass finds the second index gone, and its own snapshot still answers queries by it. -/
theorem published_flags_stale : ∃ outcome e,
    (samplePass orderedTable 1 false).reconcileNow losingTable.rows = .ok outcome ∧
    outcome.snapshot.get "orders" = some e ∧ ¬ e.Agrees ∧
    (e.gsis.get "by-tag-2").map GsiEntry.flags =
      some (false, some "GSI `by-tag-2` index `idx2` missing from pg_indexes") ∧
    (e.schema.gsis.get "by-tag-2").map GsiMirror.flags = some (true, none) ∧
    (resolveIndexForQuery e.schema.tableSchema (some "by-tag-2")).isOk = true := by
  have hrun : (((samplePass orderedTable 1 false).reconcileNow losingTable.rows).toOption.any
      fun outcome => (outcome.snapshot.get "orders").any fun e =>
        (e.gsis.get "by-tag-2").map GsiEntry.flags =
            some (false, some "GSI `by-tag-2` index `idx2` missing from pg_indexes") &&
          ((e.schema.gsis.get "by-tag-2").map GsiMirror.flags = some (true, none) &&
            (resolveIndexForQuery e.schema.tableSchema (some "by-tag-2")).isOk)) = true := by
    decide +kernel
  cases houtcome : (samplePass orderedTable 1 false).reconcileNow losingTable.rows with
  | error err =>
    rw [houtcome] at hrun
    cases hrun
  | ok outcome =>
    rw [houtcome] at hrun
    have hrun : (outcome.snapshot.get "orders").any _ = true := hrun
    obtain ⟨e, he, hrun⟩ := (Option.any_eq_true _ _).mp hrun
    obtain ⟨hverdict, hrun⟩ := Bool.and_eq_true_iff.mp hrun
    obtain ⟨hserved, hresolved⟩ := Bool.and_eq_true_iff.mp hrun
    have hverdict := of_decide_eq_true hverdict
    have hserved := of_decide_eq_true hserved
    refine ⟨outcome, e, rfl, he, ?_, hverdict, hserved, hresolved⟩
    intro hagrees
    have hhere := hagrees.2 "by-tag-2"
    rw [hverdict, hserved] at hhere
    cases hhere

end Rektifier
