import Rektifier.ReconcilePass

namespace Rektifier

open Fallible List

namespace TableRecord

def GsisNamed (e : TableRecord) : Prop := ∀ name g, e.gsis.get name = some g → g.name = name

/-- The stored verdict is what introspection gives. -/
structure Settled (t : PhysicalTable) (schema : String) (e : TableRecord) : Prop where
  status : e.status = if (e.tableReason t).isSome then .degraded else .active
  serveable : e.serveable = (e.tableReason t).isNone
  reason : e.unserveableReason = (e.tableReason t).map Prod.fst
  lsis : ∀ l ∈ e.lsis, l.judged (e.lsiReason t schema l) = l
  gsis : ∀ name g, e.gsis.get name = some g → g.judged (e.gsiReason t schema g) = g

def verdict (e : TableRecord) :
    TableStatus × Bool × Option String × List LsiRecord × OrderedMap String GsiEntry :=
  (e.status, e.serveable, e.unserveableReason, e.lsis, e.gsis)

variable {t : PhysicalTable} {schema : String} {e : TableRecord} {gsis : List GsiEntry}

theorem map_eq_self_iff {α : Type} {f : α → α} {l : List α} :
    l.map f = l ↔ ∀ a ∈ l, f a = a := by
  have h := map_inj_left (l := l) (f := f) (g := id)
  rwa [map_id] at h

theorem mem_values_iff (hvalues : gsis.Perm (e.gsis.entries.map Prod.snd)) {g : GsiEntry} :
    g ∈ gsis ↔ ∃ name, e.gsis.get name = some g := by
  rw [hvalues.mem_iff, mem_map]
  constructor
  · rintro ⟨⟨name, g⟩, hmem, rfl⟩
    exact ⟨name, OrderedMap.get_of_mem hmem⟩
  · rintro ⟨name, hget⟩
    exact ⟨(name, g), Entries.get_eq_some_mem hget, rfl⟩

/-- A pass writes nothing exactly where it finds the stored verdict, in whatever order of the
GSIs. -/
theorem introspect_eq_stored_iff (hvalues : gsis.Perm (e.gsis.entries.map Prod.snd)) :
    e.introspect t schema gsis = e.storedVerdict gsis ↔ e.Settled t schema := by
  have hgsis : (gsis.map fun g => g.judged (e.gsiReason t schema g)) = gsis ↔
      ∀ name g, e.gsis.get name = some g → g.judged (e.gsiReason t schema g) = g := by
    rw [map_eq_self_iff]
    constructor
    · intro h name g hget
      exact h g ((mem_values_iff hvalues).mpr ⟨name, hget⟩)
    · intro h g hmem
      obtain ⟨name, hget⟩ := (mem_values_iff hvalues).mp hmem
      exact h name g hget
  show (⟨_, _, _, e.lsis.map fun l => l.judged (e.lsiReason t schema l),
    gsis.map fun g => g.judged (e.gsiReason t schema g)⟩ : RecordVerdict) = e.storedVerdict gsis ↔ _
  rw [storedVerdict, Verdict.mk.injEq, hgsis, map_eq_self_iff]
  constructor
  · rintro ⟨hstatus, hserveable, hreason, hlsis, hgsis⟩
    exact ⟨hstatus.symm, hserveable.symm, hreason.symm, hlsis, hgsis⟩
  · rintro ⟨hstatus, hserveable, hreason, hlsis, hgsis⟩
    exact ⟨hstatus.symm, hserveable.symm, hreason.symm, hlsis, hgsis⟩

theorem gsisByName_values (hnamed : e.GsisNamed)
    (hvalues : gsis.Perm (e.gsis.entries.map Prod.snd)) :
    gsisByName gsis = e.gsis := by
  apply OrderedMap.ofList_of_perm
  refine (hvalues.map fun s => (s.name, s)).trans ?_
  rw [map_map]
  have hself : (e.gsis.entries.map fun g => (g.2.name, g.2)) = e.gsis.entries := by
    apply map_eq_self_iff.mpr
    rintro ⟨name, g⟩ hmem
    rw [hnamed name g (OrderedMap.get_of_mem hmem)]
  exact List.Perm.of_eq hself

theorem verdict_merged (v : RecordVerdict) (now : Int) : (e.merged v now).verdict =
    (v.status, v.serveable, v.reason, v.lsis, gsisByName v.gsis) := by
  simp only [merged]
  split <;> rfl

theorem schema_merged (v : RecordVerdict) (now : Int) : (e.merged v now).schema = e.schema := by
  simp only [merged]
  split <;> rfl

theorem Settled.verdict_merged (hsettled : e.Settled t schema) (hnamed : e.GsisNamed)
    (hvalues : gsis.Perm (e.gsis.entries.map Prod.snd)) (now : Int) :
    (e.merged (e.introspect t schema gsis) now).verdict = e.verdict := by
  rw [(introspect_eq_stored_iff hvalues).mpr hsettled, TableRecord.verdict_merged]
  show (e.status, e.serveable, e.unserveableReason, e.lsis, gsisByName gsis) = _
  rw [gsisByName_values hnamed hvalues]
  rfl

end TableRecord

section Rows

variable {row : MetadataRow} {status : TableStatus} {pkType : KeyType} {skType : Option KeyType}
  {lsis : List LsiRecord} {gsis : List GsiEntry} {t : PhysicalTable} {schema : String} {e : TableRecord}

theorem entry_gsisNamed : (row.entry status pkType skType lsis gsis).GsisNamed := by
  intro name g hget
  rcases OrderedMap.get_insertAll_cases hget with hmem | ⟨_, hempty⟩
  · obtain ⟨s, _, heq⟩ := mem_map.mp hmem
    cases heq
    rfl
  · cases hempty

theorem rowToEntry_gsisNamed (h : row.rowToEntry = .ok e) : e.GsisNamed := by
  obtain ⟨status, pkType, skType, lsis, gsis, _, rfl⟩ := row.rowToEntry_ok_iff.mp h
  exact entry_gsisNamed

theorem rowToEntry_name (h : row.rowToEntry = .ok e) : e.schema.name = row.tableName := by
  obtain ⟨status, pkType, skType, lsis, gsis, _, rfl⟩ := row.rowToEntry_ok_iff.mp h
  rfl

/-- A written verdict is read back, and is what introspection gives again. -/
theorem writeVerdict_settled (t : PhysicalTable) (schema : String)
    (hread : row.ReadsAs status pkType skType lsis gsis) (now : Int) (values : List GsiEntry) :
    let v := (row.entry status pkType skType lsis gsis).introspect t schema values
    let written := (row.writeVerdict v now).entry v.status pkType skType v.lsis v.gsis
    (row.writeVerdict v now).rowToEntry = .ok written ∧ written.Settled t schema := by
  intro v written
  refine ⟨(row.writeVerdict v now).rowToEntry_ok_iff.mpr ⟨v.status, pkType, skType, v.lsis, v.gsis,
    ⟨?_, hread.pkTypeText, hread.skTypeText, hread.sortKey, lsiSpecsFromJson_toJson _ _,
      gsiSpecsFromJson_toJson _ _⟩, rfl⟩, ?_⟩
  · simp only [MetadataRow.parsedStatus, MetadataRow.writeVerdict, TableStatus.parse_asInternalStr]
  -- introspection looks at nothing that the verdict has changed
  · refine ⟨rfl, rfl, rfl, ?_, ?_⟩
    · intro l hl
      obtain ⟨l₀, _, rfl⟩ := mem_map.mp hl
      rfl
    · intro name g hget
      have hmem : g ∈ v.gsis := by
        rcases OrderedMap.get_insertAll_cases hget with hmem | ⟨_, hempty⟩
        · obtain ⟨s, hs, heq⟩ := mem_map.mp hmem
          cases heq
          exact hs
        · cases hempty
      obtain ⟨g₀, _, rfl⟩ := mem_map.mp hmem
      rfl

/-- Where the pass finds what is stored, it leaves the row and publishes it. -/
theorem reconcileRow_settled (p : Pass) (row : MetadataRow) (hnamed : e.GsisNamed)
    (hsettled : ∀ t, e.status.isReconcilerOwned → p.physical e.schema.pgTable = some t →
      e.Settled t p.schema) :
    (p.reconcileRow row e).row = row ∧ (p.reconcileRow row e).written = false ∧
      (p.reconcileRow row e).entry.verdict = e.verdict := by
  unfold Pass.reconcileRow
  split
  · next howned =>
    split
    · exact ⟨rfl, rfl, rfl⟩
    · next t hphysical =>
      have hhere := hsettled t howned hphysical
      have hvalues := p.values_perm e.schema.name e.gsis
      have hsame := (TableRecord.introspect_eq_stored_iff hvalues).mpr hhere
      exact ⟨if_neg (not_not.mpr hsame), decide_eq_false (not_not.mpr hsame),
        hhere.verdict_merged hnamed hvalues p.now⟩
  · exact ⟨rfl, rfl, rfl⟩

/-- A pass leaves a row that reads as what it published, and that it would not write again. -/
theorem reconcileRow_stored (p : Pass) (hread : row.rowToEntry = .ok e) :
    ∃ e', (p.reconcileRow row e).row.rowToEntry = .ok e' ∧
      e'.verdict = (p.reconcileRow row e).entry.verdict ∧ e'.schema.name = row.tableName ∧
      ∀ t, e'.status.isReconcilerOwned → p.physical e'.schema.pgTable = some t →
        e'.Settled t p.schema := by
  unfold Pass.reconcileRow
  split
  · next howned =>
    split
    · next hphysical =>
      refine ⟨e, hread, rfl, rowToEntry_name hread, ?_⟩
      intro t _ hsome
      rw [hphysical] at hsome
      cases hsome
    · next t hphysical =>
      have hvalues := p.values_perm e.schema.name e.gsis
      by_cases hsame : e.introspect t p.schema (p.values e.schema.name e.gsis) =
          e.storedVerdict (p.values e.schema.name e.gsis)
      · have hsettled := (TableRecord.introspect_eq_stored_iff hvalues).mp hsame
        refine ⟨e, ?_, ?_, rowToEntry_name hread, ?_⟩
        · show (if _ then _ else row).rowToEntry = .ok e
          rw [if_neg (not_not.mpr hsame)]
          exact hread
        · exact (hsettled.verdict_merged (rowToEntry_gsisNamed hread) hvalues p.now).symm
        · intro t' _ hsome
          rw [hphysical] at hsome
          cases hsome
          exact hsettled
      · obtain ⟨status, pkType, skType, lsis, gsis, hreads, rfl⟩ := row.rowToEntry_ok_iff.mp hread
        obtain ⟨hwritten, hsettled⟩ := writeVerdict_settled t p.schema hreads p.now
          (p.values row.tableName (gsisByName gsis))
        have hname := rowToEntry_name hwritten
        refine ⟨_, ?_, ?_, hname, ?_⟩
        · show (if _ then _ else row).rowToEntry = .ok _
          rw [if_pos hsame]
          exact hwritten
        · rw [TableRecord.verdict_merged]
          rfl
        · intro t' _ hsome
          have hsome : p.physical row.pgTable = some t' := hsome
          rw [show p.physical row.pgTable = some t from hphysical] at hsome
          cases hsome
          exact hsettled
  · next hother =>
    refine ⟨e, hread, rfl, rowToEntry_name hread, ?_⟩
    intro t howned
    exact absurd howned hother

end Rows

section Tables

variable {p q : Pass} {rows : List MetadataRow} {stored : List TableRecord}
  {r : MetadataRow × TableRecord}

theorem zip_reads (h : rows.mapM MetadataRow.rowToEntry = .ok stored) :
    (rows.zip stored).map Prod.fst = rows ∧
      ∀ r ∈ rows.zip stored, r.1.rowToEntry = .ok r.2 := by
  have hreads := forall₂_of_mapM_ok h
  refine ⟨map_fst_zip (Nat.le_of_eq hreads.length_eq), ?_⟩
  intro r hr
  exact (forall₂_iff_zip.mp hreads).2 hr

theorem reconcileRow_name (p : Pass) (hread : r.1.rowToEntry = .ok r.2) :
    (p.reconcileRow r.1 r.2).row.tableName = r.1.tableName ∧
      (p.reconcileRow r.1 r.2).entry.schema.name = r.1.tableName := by
  have hname := rowToEntry_name hread
  unfold Pass.reconcileRow
  split
  · split
    · exact ⟨rfl, hname⟩
    · refine ⟨?_, by rw [TableRecord.schema_merged]; exact hname⟩
      show (if _ then _ else r.1).tableName = _
      split <;> rfl
  · exact ⟨rfl, hname⟩

theorem reconcileNow_ok_iff {outcome : PassOutcome} : p.reconcileNow rows = .ok outcome ↔
    ∃ stored, rows.mapM MetadataRow.rowToEntry = .ok stored ∧
      outcome = ⟨(rows.zip stored).map fun r => (p.reconcileRow r.1 r.2).row,
        .ofList ((rows.zip stored).map fun r =>
          ((p.reconcileRow r.1 r.2).entry.schema.name, (p.reconcileRow r.1 r.2).entry)),
        ((rows.zip stored).map fun r => p.reconcileRow r.1 r.2).countP RowOutcome.written⟩ := by
  rw [Pass.reconcileNow, bind_ok_iff]
  constructor
  · rintro ⟨stored, hstored, h⟩
    refine ⟨stored, hstored, ?_⟩
    rw [← Except.ok.inj h]
    simp only [map_map]
    rfl
  · rintro ⟨stored, hstored, rfl⟩
    refine ⟨stored, hstored, ?_⟩
    simp only [map_map]
    rfl

/-- Each row's entry is under the row's name, and nothing else. -/
theorem snapshot_get_iff (hkey : (rows.map MetadataRow.tableName).Nodup)
    (h : rows.mapM MetadataRow.rowToEntry = .ok stored) {name : String} {e : TableRecord} :
    (OrderedMap.ofList ((rows.zip stored).map fun r =>
        ((p.reconcileRow r.1 r.2).entry.schema.name, (p.reconcileRow r.1 r.2).entry))).get name
      = some e ↔
    ∃ r ∈ rows.zip stored, r.1.tableName = name ∧ (p.reconcileRow r.1 r.2).entry = e := by
  obtain ⟨hrows, hreads⟩ := zip_reads h
  have hnames : ((rows.zip stored).map fun r => (p.reconcileRow r.1 r.2).entry.schema.name) =
      rows.map MetadataRow.tableName := by
    conv_rhs => rw [← hrows, map_map]
    exact map_congr_left fun r hr => (reconcileRow_name p (hreads r hr)).2
  rw [OrderedMap.get_ofList_iff (by rw [map_map]; exact hnames ▸ hkey), mem_map]
  constructor
  · rintro ⟨r, hr, heq⟩
    obtain ⟨hname, hentry⟩ := Prod.mk.inj heq
    exact ⟨r, hr, (reconcileRow_name p (hreads r hr)).2.symm.trans hname, hentry⟩
  · rintro ⟨r, hr, rfl, rfl⟩
    exact ⟨r, hr, by rw [(reconcileRow_name p (hreads r hr)).2]⟩

/-- The entry of the row a pass leaves. -/
def Pass.reread (p : Pass) (r : MetadataRow × TableRecord) : TableRecord :=
  ((p.reconcileRow r.1 r.2).row.rowToEntry.toOption).getD r.2

theorem reread_stored (p : Pass) (hread : r.1.rowToEntry = .ok r.2) :
    (p.reconcileRow r.1 r.2).row.rowToEntry = .ok (p.reread r) ∧
      (p.reread r).verdict = (p.reconcileRow r.1 r.2).entry.verdict ∧
      ∀ t, (p.reread r).status.isReconcilerOwned →
        p.physical (p.reread r).schema.pgTable = some t → (p.reread r).Settled t p.schema := by
  obtain ⟨e', hread', hverdict, _, hsettled⟩ := reconcileRow_stored p hread
  have hreread : p.reread r = e' := by rw [Pass.reread, hread']; rfl
  rw [hreread]
  exact ⟨hread', hverdict, hsettled⟩

theorem reconcileRow_again (hphysical : q.physical = p.physical) (hschema : q.schema = p.schema)
    (hread : r.1.rowToEntry = .ok r.2) :
    (q.reconcileRow (p.reconcileRow r.1 r.2).row (p.reread r)).row = (p.reconcileRow r.1 r.2).row ∧
      (q.reconcileRow (p.reconcileRow r.1 r.2).row (p.reread r)).written = false ∧
      (q.reconcileRow (p.reconcileRow r.1 r.2).row (p.reread r)).entry.verdict =
        (p.reread r).verdict := by
  obtain ⟨hread', _, hsettled⟩ := reread_stored p hread
  refine reconcileRow_settled q _ (rowToEntry_gsisNamed hread') ?_
  rw [hphysical, hschema]
  exact hsettled

end Tables

/-- A second pass over the same tables, with its hash maps in whatever order, writes nothing and
publishes the verdicts the first has stored. A table of tables that cannot be read is refused by
both. -/
theorem second_pass_settled (p q : Pass) (table : MetadataTable)
    (hphysical : q.physical = p.physical)
    (hschema : q.schema = p.schema) :
    match p.reconcileNow table.rows with
    | .error err => q.reconcileNow table.rows = .error err
    | .ok first => ∃ second, q.reconcileNow first.rows = .ok second ∧ second.updatesWritten = 0 ∧
        second.rows = first.rows ∧
        (∀ name, (second.snapshot.get name).isSome = true →
          name ∈ first.rows.map MetadataRow.tableName) ∧
        ∀ row ∈ first.rows, ∃ stored published, row.rowToEntry = .ok stored ∧
          second.snapshot.get row.tableName = some published ∧ published.verdict = stored.verdict ∧
          (first.snapshot.get row.tableName).map TableRecord.verdict = some stored.verdict := by
  cases hfirst : p.reconcileNow table.rows with
  | error err =>
    have hread : table.rows.mapM MetadataRow.rowToEntry = .error err := by
      rcases bind_error_iff.mp hfirst with hread | ⟨stored, _, hok⟩
      · exact hread
      · cases hok
    show q.reconcileNow table.rows = .error err
    exact bind_error_iff.mpr (.inl hread)
  | ok first =>
    obtain ⟨stored, hstored, rfl⟩ := reconcileNow_ok_iff.mp hfirst
    obtain ⟨hrows, hreads⟩ := zip_reads hstored
    let pairs := table.rows.zip stored
    let left := pairs.map fun r => (p.reconcileRow r.1 r.2).row
    -- the second pass reads what the first has left
    have hagain : left.mapM MetadataRow.rowToEntry = .ok (pairs.map p.reread) := by
      have hmap : ∀ l : List (MetadataRow × TableRecord), (∀ r ∈ l, r ∈ pairs) →
          (l.map fun r => (p.reconcileRow r.1 r.2).row).mapM MetadataRow.rowToEntry =
            .ok (l.map p.reread) := by
        intro l
        induction l with
        | nil => exact fun _ => rfl
        | cons r l ih =>
          intro hmem
          obtain ⟨hr, hl⟩ := forall_mem_cons.mp hmem
          rw [map_cons, mapM_cons, (reread_stored p (hreads r hr)).1, ok_bind, ih hl]
          rfl
      exact hmap pairs fun _ hr => hr
    have hzip : left.zip (pairs.map p.reread) =
        pairs.map fun r => ((p.reconcileRow r.1 r.2).row, p.reread r) := zip_map'
    have hleftName : left.map MetadataRow.tableName = table.rows.map MetadataRow.tableName := by
      conv_rhs => rw [← hrows, map_map]
      rw [map_map]
      exact map_congr_left fun r hr => (reconcileRow_name p (hreads r hr)).1
    have hkey : (left.map MetadataRow.tableName).Nodup := hleftName ▸ table.primaryKey
    refine ⟨_, reconcileNow_ok_iff.mpr ⟨_, hagain, rfl⟩, ?_, ?_, ?_, ?_⟩
    · rw [hzip, countP_eq_zero]
      intro outcome houtcome
      obtain ⟨again, hmem, rfl⟩ := mem_map.mp houtcome
      obtain ⟨r, hr, rfl⟩ := mem_map.mp hmem
      have hquiet := (reconcileRow_again hphysical hschema (hreads r hr)).2.1
      exact Bool.eq_false_iff.mp hquiet
    · rw [hzip, map_map]
      exact map_congr_left fun r hr =>
        (reconcileRow_again hphysical hschema (hreads r hr)).1
    · intro name hsome
      obtain ⟨e, he⟩ := Option.isSome_iff_exists.mp hsome
      obtain ⟨r, hr, rfl, _⟩ := (snapshot_get_iff hkey hagain).mp he
      have hmem := mem_map_of_mem (f := Prod.fst) hr
      rw [(zip_reads hagain).1] at hmem
      exact mem_map_of_mem hmem
    · intro row hrow
      obtain ⟨r, hr, rfl⟩ := mem_map.mp hrow
      obtain ⟨hread', hverdict, _⟩ := reread_stored p (hreads r hr)
      obtain ⟨_, _, hpublished⟩ := reconcileRow_again hphysical hschema (hreads r hr)
      refine ⟨p.reread r, (q.reconcileRow (p.reconcileRow r.1 r.2).row (p.reread r)).entry, hread', ?_,
        hpublished, ?_⟩
      · refine (snapshot_get_iff hkey hagain).mpr ⟨((p.reconcileRow r.1 r.2).row, p.reread r), ?_,
          rfl, rfl⟩
        rw [hzip]
        exact mem_map_of_mem hr
      · have hget := (snapshot_get_iff (p := p) table.primaryKey hstored).mpr ⟨r, hr, rfl, rfl⟩
        have hname := (reconcileRow_name p (hreads r hr)).1
        show (OrderedMap.get _ (p.reconcileRow r.1 r.2).row.tableName).map _ = _
        rw [hname, hget, hverdict]
        rfl

/-- Values in the order of their names, or the other way round. -/
def samplePass (physical : PhysicalTable) (now : Int) (reversed : Bool) : Pass where
  physical := fun _ => some physical
  schema := "public"
  now := now
  values := fun _ m =>
    if reversed then (m.entries.map Prod.snd).reverse else m.entries.map Prod.snd
  values_perm := by
    intro _ m
    cases reversed with
    | false => exact List.Perm.refl _
    | true => exact reverse_perm _

/-- The columns of two GSIs on `tag`, and the index of the first. -/
def orderedTable : PhysicalTable where
  columns := [⟨"data", "jsonb", "NEVER"⟩, ⟨"id", "text", "ALWAYS"⟩, ⟨"tag", "text", "ALWAYS"⟩]
  primaryKey := ["id"]
  indexes := [⟨"idx1", false, "btree", [.column "tag" []], ["data"], ""⟩]
  columnsApart := by decide
  indexesApart := by decide

def tagRecord (name indexName : String) (reason : Option String) : GsiEntry :=
  ⟨name, "tag", .s, "tag", none, none, none, indexName, none, none, .generated, reason.isNone, reason⟩

def tagRow (gsis : List GsiEntry) : MetadataRow :=
  ⟨"orders", "rekt_t_orders", "data", "id", "S", none, none, "ACTIVE", true, none, 0, "ddl", 0,
    .obj [], none, none, none, .arr [], gsiSpecsToJson gsis⟩

def tagTable (gsis : List GsiEntry) : MetadataTable := ⟨[tagRow gsis], by simp⟩

/-- The second index is gone; the first pass says so and the second leaves it at that. -/
theorem second_pass_settled_lost : ∃ first second,
    (samplePass orderedTable 1 false).reconcileNow
        (tagTable [tagRecord "by-tag" "idx1" none, tagRecord "by-tag-2" "idx2" none]).rows = .ok first ∧
      first.updatesWritten = 1 ∧
      (samplePass orderedTable 2 true).reconcileNow first.rows = .ok second ∧
      second.updatesWritten = 0 := by
  have hcount : ((samplePass orderedTable 1 false).reconcileNow (tagTable [tagRecord "by-tag" "idx1"
      none, tagRecord "by-tag-2" "idx2" none]).rows).toOption.map PassOutcome.updatesWritten = some 1 := by
    decide +kernel
  have hagain := second_pass_settled (samplePass orderedTable 1 false)
    (samplePass orderedTable 2 true)
    (tagTable [tagRecord "by-tag" "idx1" none, tagRecord "by-tag-2" "idx2" none]) rfl rfl
  cases hfirst : (samplePass orderedTable 1 false).reconcileNow (tagTable [tagRecord "by-tag" "idx1"
      none, tagRecord "by-tag-2" "idx2" none]).rows with
  | error err =>
    rw [hfirst] at hcount
    cases hcount
  | ok first =>
    rw [hfirst] at hcount hagain
    obtain ⟨second, hsecond, hquiet, _⟩ := hagain
    exact ⟨first, second, rfl, Option.some.inj hcount, hsecond, hquiet⟩

end Rektifier
