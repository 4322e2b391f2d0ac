import Rektifier.RelationNames
import Rektifier.CreateValidationSpec
import Rektifier.GsiLifecycle

namespace Rektifier

open List

variable {r : NamedRelation}

def TableEntry.relations (e : TableEntry) : List NamedRelation :=
  .table e.pgTable :: (e.lsis.map (fun l => .index e.pgTable .lsi l.name)
    ++ e.gsis.keys.map (.index e.pgTable .gsi))

def TableEntry.relationNames (hex8 : String → String) (e : TableEntry) : List String :=
  e.pgTable :: (e.lsis.map (fun l => deriveLsiIndexName hex8 e.pgTable l.name)
    ++ e.gsis.entries.map fun g => g.2.indexName)

def relations (tables : List TableState) : List NamedRelation :=
  tables.flatMap fun s => s.entry.relations

def relationNames (hex8 : String → String) (tables : List TableState) : List String :=
  tables.flatMap fun s => s.entry.relationNames hex8

inductive DdlCall where
  | createTable (req : CreateTableRequest)
  | updateTable (table : String) (req : UpdateTableRequest)
  | removed (table index : String)
  | deleteTable (table : String)

/-- The accepted calls, and the end of an index's removal. CreateTable refuses a name taken in the
catalog or by a table. -/
inductive TablesStep (names : PgNames) (hex8 : String → String) :
    List TableState → DdlCall → List TableState → Prop
  | create {tables : List TableState} {req : CreateTableRequest} {plan : CreateTablePlan}
      {new : TableState} : validateCreateTable req = .ok plan →
      plan.tableName ∉ tables.map (fun s => s.entry.name) →
      sanitizePgTableName hex8 plan.tableName ∉ tables.map (fun s => s.entry.pgTable) →
      createTable names hex8 plan = some new →
      TablesStep names hex8 tables (.createTable req) (new :: tables)
  | update {l r : List TableState} {s s' : TableState} {req : UpdateTableRequest}
      {creates : List GsiSpec} : updateTable names hex8 s req = .ok (s', creates) →
      TablesStep names hex8 (l ++ s :: r) (.updateTable s.entry.name req) (l ++ s' :: r)
  | remove {l r : List TableState} {s : TableState} {index : String} :
      TablesStep names hex8 (l ++ s :: r) (.removed s.entry.name index)
        (l ++ removeGsi s index :: r)
  | delete {l r : List TableState} {s : TableState} :
      TablesStep names hex8 (l ++ s :: r) (.deleteTable s.entry.name) (l ++ r)

/-- Names are the derived ones, of distinct indexes. -/
structure TableEntry.WellNamed (hex8 : String → String) (e : TableEntry) : Prop where
  table : ∃ name, e.pgTable = sanitizePgTableName hex8 name
  lsis : (e.lsis.map LsiSchema.name).Nodup
  gsis : ∀ name g, e.gsis.get name = some g → g.indexName = deriveGsiIndexName hex8 e.pgTable name

def WellNamedTables (hex8 : String → String) (tables : List TableState) : Prop :=
  (∀ s ∈ tables, s.entry.WellNamed hex8) ∧ (tables.map fun s => s.entry.pgTable).Nodup

section Entries

variable {names : PgNames} {hex8 : String → String} {e : TableEntry}

theorem TableEntry.WellNamed.relationNames_eq (h : e.WellNamed hex8) :
    e.relationNames hex8 = e.relations.map (NamedRelation.pgName hex8) := by
  have hgsis : e.gsis.entries.map (fun g => g.2.indexName)
      = e.gsis.keys.map (deriveGsiIndexName hex8 e.pgTable) := by
    rw [OrderedMap.keys, map_map]
    exact map_congr_left fun g hg => h.gsis g.1 g.2 (OrderedMap.get_of_mem hg)
  simp only [TableEntry.relationNames, TableEntry.relations, hgsis, map_cons, map_append,
    map_map]
  rfl

theorem TableEntry.pgTable_of_mem (h : r ∈ e.relations) :
    r.pgTable = e.pgTable := by
  simp only [TableEntry.relations, mem_cons, mem_append, mem_map] at h
  rcases h with rfl | ⟨_, _, rfl⟩ | ⟨_, _, rfl⟩ <;> rfl

theorem TableEntry.WellNamed.relations_nodup (h : e.WellNamed hex8) : e.relations.Nodup := by
  have hlsis : (e.lsis.map fun l => NamedRelation.index e.pgTable .lsi l.name).Nodup := by
    have hmap := h.lsis.map (f := NamedRelation.index e.pgTable .lsi)
      fun _ _ heq => by injection heq
    rwa [map_map] at hmap
  have hgsis : (e.gsis.keys.map (NamedRelation.index e.pgTable .gsi)).Nodup :=
    (OrderedMap.keys_nodup e.gsis).map fun _ _ heq => by injection heq
  refine nodup_cons.mpr ⟨by simp, List.Nodup.append hlsis hgsis ?_⟩
  simp [List.Disjoint]

end Entries

theorem WellNamedTables.relationNames_eq {hex8 : String → String} {tables : List TableState}
    (h : WellNamedTables hex8 tables) :
    relationNames hex8 tables = (relations tables).map (NamedRelation.pgName hex8) := by
  rw [relations, map_flatMap]
  exact flatMap_congr fun s hs => (h.1 s hs).relationNames_eq

theorem WellNamedTables.relations_nodup {hex8 : String → String} {tables : List TableState}
    (h : WellNamedTables hex8 tables) : (relations tables).Nodup := by
  refine nodup_flatMap.mpr ⟨fun s hs => (h.1 s hs).relations_nodup, ?_⟩
  refine (pairwise_map.mp h.2).imp fun {s s'} hne r hr hr' => hne ?_
  rw [← TableEntry.pgTable_of_mem hr, TableEntry.pgTable_of_mem hr']

section Steps

variable {names : PgNames} {hex8 : String → String} {s s' : TableState}

theorem createEntry_pgTable (plan : CreateTablePlan) :
    (createEntry hex8 plan).pgTable = sanitizePgTableName hex8 plan.tableName := by
  simp only [createEntry]

theorem createTable_wellNamed {req : CreateTableRequest} {plan : CreateTablePlan}
    (hplan : validateCreateTable req = .ok plan) (h : createTable names hex8 plan = some s) :
    s.entry.WellNamed hex8 := by
  obtain ⟨_, _, rfl⟩ := Option.map_eq_some_iff.mp h
  refine ⟨⟨plan.tableName, createEntry_pgTable plan⟩, ?_, fun name g hget => ?_⟩
  · have hlsis := (validateCreateTable_names hplan).1
    simpa [createEntry, Function.comp_def] using hlsis
  · rcases OrderedMap.get_insertAll_cases hget with hmem | ⟨_, hget⟩
    · obtain ⟨_, _, heq⟩ := mem_map.mp hmem
      obtain ⟨rfl, rfl⟩ := Prod.mk.inj heq
      simp only [plannedSpec, createEntry]
    · exact absurd hget (by simp [OrderedMap.get, OrderedMap.empty])

theorem updateTable_wellNamed {req : UpdateTableRequest} {creates : List GsiSpec}
    (h : updateTable names hex8 s req = .ok (s', creates)) (hs : s.entry.WellNamed hex8) :
    s'.entry.WellNamed hex8 ∧ s'.entry.pgTable = s.entry.pgTable := by
  obtain ⟨hcreates, hentry, _⟩ := updateTable_ok h
  rw [hentry]
  refine ⟨⟨hs.table, hs.lsis, fun name g hget => ?_⟩, rfl⟩
  rcases OrderedMap.get_insertAll_cases hget with hnew | ⟨_, hget⟩
  · obtain ⟨_, hg, heq⟩ := mem_map.mp hnew
    obtain ⟨_, _, _, _, rfl⟩ := validateCreates_mem hcreates hg
    obtain ⟨rfl, rfl⟩ := Prod.mk.inj heq
    simp only [plannedSpec]
  · rcases OrderedMap.get_insertAll_cases hget with hmarked | ⟨_, hget⟩
    · obtain ⟨_, _, heq⟩ := mem_filterMap.mp hmarked
      obtain ⟨g₀, hg₀, heq⟩ := Option.map_eq_some_iff.mp heq
      cases heq
      exact hs.gsis _ g₀ hg₀
    · exact hs.gsis name g (OrderedMap.get_eraseAll_eq_some hget).2

theorem removeGsi_wellNamed {index : String} (hs : s.entry.WellNamed hex8) :
    (removeGsi s index).entry.WellNamed hex8 ∧
      (removeGsi s index).entry.pgTable = s.entry.pgTable := by
  unfold removeGsi
  split
  next =>
    refine ⟨⟨hs.table, hs.lsis, fun name g hget => ?_⟩, rfl⟩
    exact hs.gsis name g (OrderedMap.get_erase_eq_some hget).2
  next => exact ⟨hs, rfl⟩

theorem WellNamedTables.replace {l r : List TableState} (h : WellNamedTables hex8 (l ++ s :: r))
    (hs : s'.entry.WellNamed hex8 ∧ s'.entry.pgTable = s.entry.pgTable) :
    WellNamedTables hex8 (l ++ s' :: r) := by
  refine ⟨fun t ht => ?_, ?_⟩
  · rcases mem_append.mp ht with ht | ht
    · exact h.1 t (mem_append_left _ ht)
    · rcases mem_cons.mp ht with rfl | ht
      · exact hs.1
      · exact h.1 t (mem_append_right _ (mem_cons_of_mem _ ht))
  · have hnodup := h.2
    rw [map_append, map_cons] at hnodup ⊢
    rwa [hs.2]

theorem TablesStep.wellNamed {tables tables' : List TableState} {call : DdlCall}
    (h : TablesStep names hex8 tables call tables') (hinv : WellNamedTables hex8 tables) :
    WellNamedTables hex8 tables' := by
  cases h with
  | @create _ _ plan new hplan _ hfree hnew =>
    have hpg : new.entry.pgTable = sanitizePgTableName hex8 plan.tableName := by
      obtain ⟨_, _, rfl⟩ := Option.map_eq_some_iff.mp hnew
      exact createEntry_pgTable plan
    refine ⟨forall_mem_cons.mpr ⟨createTable_wellNamed hplan hnew, hinv.1⟩, ?_⟩
    rw [map_cons, hpg]
    exact nodup_cons.mpr ⟨hfree, hinv.2⟩
  | update hupdate =>
    exact hinv.replace (updateTable_wellNamed hupdate (hinv.1 _ (by simp)))
  | remove => exact hinv.replace (removeGsi_wellNamed (hinv.1 _ (by simp)))
  | @delete l r s =>
    have hsub : (l ++ r).Sublist (l ++ s :: r) :=
      List.Sublist.append_left (sublist_cons_self s r) l
    exact ⟨fun t ht => hinv.1 t (hsub.subset ht), hinv.2.sublist (hsub.map _)⟩

theorem wellNamed_of_run {trace : List (List TableState × DdlCall)} {tables : List TableState}
    (hrun : Run (TablesStep names hex8) [] trace tables) : WellNamedTables hex8 tables :=
  hrun.preserved (WellNamedTables hex8) (fun _ _ _ hstep => hstep.wellNamed)
    ⟨by simp, nodup_nil⟩

end Steps

/-- A shortened name has room for its digest; names that fit are spelled differently, and none is
spelled as a shortened one. -/
structure NamesApart (hex8 : String → String) (rs : List NamedRelation) : Prop where
  room : ∀ r ∈ rs, r.Fits ∨ r.pgTable.utf8ByteSize ≤ 45
  spelled : ∀ r ∈ rs, ∀ r' ∈ rs, r.Fits → r'.Fits → r.spelling = r'.spelling → r = r'
  digests : ∀ r ∈ rs, ∀ r' ∈ rs, r.Fits → ¬ r'.Fits → r.spelling ≠ r'.shortened hex8

def DigestsDiffer (hex8 : String → String) (rs : List NamedRelation) : Prop :=
  ∀ r ∈ rs, ∀ r' ∈ rs, ¬ r.Fits → ¬ r'.Fits → hex8 r.digested = hex8 r'.digested →
    r.digested = r'.digested

section Names

variable {hex8 : String → String} (hhex : IsHex8 hex8) {tables : List TableState}
  (hnamed : WellNamedTables hex8 tables)

include hhex hnamed

theorem WellNamedTables.pgTable_spec (hr : r ∈ relations tables) :
    r.pgTable.utf8ByteSize ≤ pgIdentMax ∧ ':' ∉ r.pgTable.toList := by
  obtain ⟨s, hs, hr⟩ := mem_flatMap.mp hr
  obtain ⟨name, hname⟩ := (hnamed.1 s hs).table
  have hspec := sanitizePgTableName_spec hhex name
  rw [TableEntry.pgTable_of_mem hr, hname]
  exact ⟨hspec.1, colon_not_mem hspec.2⟩

theorem WellNamedTables.long_spec (hr : r ∈ relations tables)
    (hlong : ¬ r.Fits) : (∃ p kind name, r = .index p kind name) ∧
      r.pgName hex8 = r.shortened hex8 ∧
      ((r.pgName hex8).utf8ByteSize ≤ pgIdentMax ↔ r.pgTable.utf8ByteSize ≤ 45) := by
  cases r with
  | table p => exact absurd (hnamed.pgTable_spec hhex hr).1 hlong
  | index p kind name => exact ⟨⟨p, kind, name, rfl⟩, pgName_of_long hhex hlong⟩

theorem WellNamedTables.names_fit_iff : (∀ r ∈ relations tables,
    (r.pgName hex8).utf8ByteSize ≤ pgIdentMax) ↔
      ∀ r ∈ relations tables, r.Fits ∨ r.pgTable.utf8ByteSize ≤ 45 := by
  refine forall₂_congr fun r hr => ?_
  by_cases hfits : r.Fits
  · rw [pgName_of_fits hfits]
    exact ⟨fun _ => .inl hfits, fun _ => hfits⟩
  · rw [(hnamed.long_spec hhex hr hfits).2.2]
    exact ⟨.inr, fun h => h.resolve_left hfits⟩

theorem WellNamedTables.eq_of_shortened (hdigest : DigestsDiffer hex8 (relations tables))
    {r' : NamedRelation} (hr : r ∈ relations tables) (hr' : r' ∈ relations tables)
    (hlong : ¬ r.Fits) (hlong' : ¬ r'.Fits) (heq : r.pgName hex8 = r'.pgName hex8) : r = r' := by
  obtain ⟨⟨p, kind, name, rfl⟩, hname, _⟩ := hnamed.long_spec hhex hr hlong
  obtain ⟨⟨p', kind', name', rfl⟩, hname', _⟩ := hnamed.long_spec hhex hr' hlong'
  rw [hname, hname'] at heq
  have hdigested := hdigest _ hr _ hr' hlong hlong' (hex8_of_shortened_eq hhex heq)
  exact digested_inj (hnamed.pgTable_spec hhex hr).2 (hnamed.pgTable_spec hhex hr').2 hdigested

theorem WellNamedTables.names_distinct_iff (hdigest : DigestsDiffer hex8 (relations tables)) :
    (∀ r ∈ relations tables, ∀ r' ∈ relations tables, r.pgName hex8 = r'.pgName hex8 → r = r') ↔
      (∀ r ∈ relations tables, ∀ r' ∈ relations tables, r.Fits → r'.Fits →
        r.spelling = r'.spelling → r = r') ∧
      ∀ r ∈ relations tables, ∀ r' ∈ relations tables, r.Fits → ¬ r'.Fits →
        r.spelling ≠ r'.shortened hex8 := by
  constructor
  · refine fun h => ⟨fun r hr r' hr' hfits hfits' heq => h r hr r' hr' ?_,
      fun r hr r' hr' hfits hlong heq => hlong ?_⟩
    · rw [pgName_of_fits hfits, pgName_of_fits hfits', heq]
    · rw [← h r hr r' hr' ?_]
      · exact hfits
      · rw [pgName_of_fits hfits, (hnamed.long_spec hhex hr' hlong).2.1, heq]
  · rintro ⟨hspelled, hshort⟩ r hr r' hr' heq
    by_cases hfits : r.Fits <;> by_cases hfits' : r'.Fits
    · rw [pgName_of_fits hfits, pgName_of_fits hfits'] at heq
      exact hspelled r hr r' hr' hfits hfits' heq
    · rw [pgName_of_fits hfits, (hnamed.long_spec hhex hr' hfits').2.1] at heq
      exact absurd heq (hshort r hr r' hr' hfits hfits')
    · rw [pgName_of_fits hfits', (hnamed.long_spec hhex hr hfits).2.1] at heq
      exact absurd heq.symm (hshort r' hr' r hr hfits' hfits)
    · exact hnamed.eq_of_shortened hhex hdigest hr hr' hfits hfits' heq

end Names

/-- In every state that accepted calls reach, the derived names fit, are distinct and stay distinct
as PostgreSQL cuts them, so that no IF NOT EXISTS finds another relation, exactly if the spelled-out
names are apart and shortened ones have room. -/
theorem relation_names_distinct_iff {names : PgNames} {hex8 : String → String} (hhex : IsHex8 hex8)
    {trace : List (List TableState × DdlCall)} {tables : List TableState}
    (hrun : Run (TablesStep names hex8) [] trace tables)
    (hdigest : DigestsDiffer hex8 (relations tables)) :
    ((∀ name ∈ relationNames hex8 tables, name.utf8ByteSize ≤ pgIdentMax) ∧
      (relationNames hex8 tables).Nodup ∧ ((relationNames hex8 tables).map truncateIdent).Nodup) ↔
    NamesApart hex8 (relations tables) := by
  have hnamed := wellNamed_of_run hrun
  have hfit := hnamed.names_fit_iff hhex
  have hdistinct := hnamed.names_distinct_iff hhex hdigest
  rw [hnamed.relationNames_eq, forall_mem_map, hfit,
    nodup_map_iff_inj_on hnamed.relations_nodup, hdistinct]
  constructor
  · exact fun ⟨hroom, ⟨hspelled, hdigests⟩, _⟩ => ⟨hroom, hspelled, hdigests⟩
  · rintro ⟨hroom, hspelled, hdigests⟩
    refine ⟨hroom, ⟨hspelled, hdigests⟩, ?_⟩
    -- short names are not cut
    have hcut : ((relations tables).map (NamedRelation.pgName hex8)).map truncateIdent
        = (relations tables).map (NamedRelation.pgName hex8) := by
      rw [map_map]
      exact map_congr_left fun r hr => if_pos (hfit.mpr hroom r hr)
    rw [hcut, nodup_map_iff_inj_on hnamed.relations_nodup]
    exact hdistinct.mpr ⟨hspelled, hdigests⟩

def tableWith (gsis : List String) : TableState :=
  ⟨createEntry zeroDigest (taggedWith gsis),
    (createColumns plainNames (taggedWith gsis)).getD fun _ => none⟩

theorem isHex8_zeroDigest : IsHex8 zeroDigest := by
  intro x
  have hzeros : (zeroDigest x).toList = List.replicate 8 '0' := by
    rw [zeroDigest]
    decide
  rw [hzeros]
  refine ⟨rfl, fun c hc => ?_⟩
  rw [(mem_replicate.mp hc).2]
  decide

theorem relation_names_distinct_sample :
    (∀ name ∈ relationNames zeroDigest
        [tableWith ["by-tag", "orders-by-the-tag-their-customer-gave-them"]],
      name.utf8ByteSize ≤ pgIdentMax) ∧
    (relationNames zeroDigest
      [tableWith ["by-tag", "orders-by-the-tag-their-customer-gave-them"]]).Nodup := by
  have hplan : validateCreateTable
        (taggedRequest ["by-tag", "orders-by-the-tag-their-customer-gave-them"])
      = .ok (taggedWith ["by-tag", "orders-by-the-tag-their-customer-gave-them"]) := rfl
  have hstep : TablesStep plainNames zeroDigest [] (.createTable _) [tableWith _] :=
    .create hplan not_mem_nil not_mem_nil rfl
  have hdigest : DigestsDiffer zeroDigest
      (relations [tableWith ["by-tag", "orders-by-the-tag-their-customer-gave-them"]]) := by
    unfold DigestsDiffer
    decide
  have hnames := (relation_names_distinct_iff isHex8_zeroDigest (.cons hstep (.nil _)) hdigest).mpr
    ⟨by decide, by decide, by decide⟩
  exact ⟨hnames.1, hnames.2.1⟩

/-- Two accepted indexes of one name: the second CREATE INDEX IF NOT EXISTS is skipped. -/
theorem same_index_name_accepted :
    validateCreateTable (taggedRequest ["by-tag", "by.tag"])
      = .ok (taggedWith ["by-tag", "by.tag"]) ∧
    Run (TablesStep plainNames zeroDigest) []
      [([], .createTable (taggedRequest ["by-tag", "by.tag"]))] [tableWith ["by-tag", "by.tag"]] ∧
    relationNames zeroDigest [tableWith ["by-tag", "by.tag"]] =
      ["rekt_t_orders", "rekt_t_orders_gsi_by_tag_idx", "rekt_t_orders_gsi_by_tag_idx"] := by
  have hplan : validateCreateTable (taggedRequest ["by-tag", "by.tag"])
      = .ok (taggedWith ["by-tag", "by.tag"]) := rfl
  refine ⟨hplan, .cons (.create hplan not_mem_nil not_mem_nil rfl) (.nil _), ?_⟩
  decide

end Rektifier
