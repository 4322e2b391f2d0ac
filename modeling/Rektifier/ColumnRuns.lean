import Rektifier.ColumnNames
import Rektifier.ColumnRefs
import Rektifier.CreateValidationSpec
import Rektifier.SpecRace

namespace Rektifier

open List Function

variable {name : String} {plan : CreateTablePlan} {names : PgNames} {hex8 : String → String}
  {s : TableState} {req : UpdateTableRequest} {creates : List GsiSpec} {e e' : TableEntry}
  {col : String}

/-- Beside the item's there are exactly the columns in use. -/
def TableState.ColumnsMatch (s : TableState) : Prop :=
  ∀ col, s.entry.References col ↔ col ≠ "data" ∧ (s.columns col).isSome = true

structure SameIndexes (e e' : TableEntry) : Prop where
  fixed : e.fixedCols = e'.fixedCols
  gsis : ∀ name, (e.gsis.get name).map (fun g => (g.mode, g.columns))
    = (e'.gsis.get name).map fun g => (g.mode, g.columns)

theorem SameIndexes.symm (h : SameIndexes e e') : SameIndexes e' e :=
  ⟨h.fixed.symm, fun name => (h.gsis name).symm⟩

theorem SameIndexes.indexes (h : SameIndexes e e') (hcol : e.Indexes col) : e'.Indexes col := by
  obtain ⟨name, g, hget, hcol⟩ := hcol
  have hsame := h.gsis name
  rw [hget, Option.map_some] at hsame
  obtain ⟨g', hget', heq⟩ := Option.map_eq_some_iff.mp hsame.symm
  exact ⟨name, g', hget', (Prod.mk.inj heq).2 ▸ hcol⟩

theorem SameIndexes.references (h : SameIndexes e e') : e.References col ↔ e'.References col := by
  unfold TableEntry.References
  rw [h.fixed]
  exact or_congr Iff.rfl ⟨h.indexes, h.symm.indexes⟩

/-- A change of the specs that leaves the keys alone. -/
theorem TableState.ColumnsMatch.congr (h : s.ColumnsMatch) {gsis : OrderedMap String GsiSpec}
    (hsame : SameIndexes { s.entry with gsis := gsis } s.entry) :
    TableState.ColumnsMatch ⟨{ s.entry with gsis := gsis }, s.columns⟩ := by
  intro col
  rw [hsame.references]
  exact h col

theorem setServeable_sameIndexes {serveable : Bool} {reason : Option String} :
    SameIndexes (setServeable s name serveable reason).entry s.entry := by
  unfold setServeable
  split
  next g hg =>
    refine ⟨rfl, fun other => ?_⟩
    by_cases heq : other = name
    · subst heq
      rw [OrderedMap.get_insert_self, hg]
      rfl
    · rw [OrderedMap.get_insert_of_ne _ heq]
  next => exact ⟨rfl, fun _ => rfl⟩

theorem setServeable_columnsMatch {serveable : Bool} {reason : Option String}
    (h : s.ColumnsMatch) : (setServeable s name serveable reason).ColumnsMatch := by
  intro col
  rw [setServeable_sameIndexes.references, setServeable_columns]
  exact h col

theorem references_iff {g : GsiSpec} (hget : e.gsis.get name = some g) :
    e.References col ↔ col ∈ e.referencedColumns name ∨ col ∈ g.columns := by
  rw [mem_referencedColumns, or_assoc]
  refine or_congr Iff.rfl ⟨?_, ?_⟩
  · rintro ⟨other, g', hget', hcol⟩
    by_cases heq : other = name
    · subst heq
      cases hget.symm.trans hget'
      exact .inr hcol
    · exact .inl ⟨other, g', heq, hget', hcol⟩
  · rintro (⟨other, g', _, hget', hcol⟩ | hcol)
    · exact ⟨other, g', hget', hcol⟩
    · exact ⟨name, g, hget, hcol⟩

theorem references_erase :
    TableEntry.References { e with gsis := e.gsis.erase name } col ↔
      col ∈ e.referencedColumns name := by
  rw [mem_referencedColumns]
  refine or_congr Iff.rfl ⟨?_, ?_⟩
  · rintro ⟨other, g, hget, hcol⟩
    obtain ⟨hne, hget⟩ := OrderedMap.get_erase_eq_some hget
    exact ⟨other, g, hne, hget, hcol⟩
  · rintro ⟨other, g, hne, hget, hcol⟩
    exact ⟨other, g, (OrderedMap.get_erase_of_ne _ hne).trans hget, hcol⟩

/-- The removal worker counts the stored references. -/
theorem removeGsi_columnsMatch (h : s.ColumnsMatch) :
    (removeGsi s name).ColumnsMatch := by
  unfold removeGsi
  split
  next g hget =>
    intro col
    have hbefore := h col
    rw [references_iff hget] at hbefore
    rw [references_erase]
    change _ ↔ col ≠ "data" ∧ (dropUnreferenced s.entry name g s.columns col).isSome
    rw [dropUnreferenced_apply]
    split
    next hdrop =>
      simp only [Option.isSome_none, Bool.false_eq_true, and_false, iff_false]
      exact hdrop.2
    next hkeep =>
      rw [← hbefore]
      refine ⟨.inl, fun href => ?_⟩
      by_contra hnot
      exact hkeep ⟨href.resolve_left hnot, hnot⟩
  next => exact h

/-- A GSI that the request does not delete at once has the column. -/
def TableEntry.KeptIndexes (e : TableEntry) (deletes : List String) (col : String) : Prop :=
  ∃ name g, e.gsis.get name = some g ∧ (g.mode = .generated → name ∉ deletes) ∧ col ∈ g.columns

/-- Two Generated GSIs that the request deletes share a key column only if it stays in use. -/
def UpdateTableRequest.SharesNoDropped (req : UpdateTableRequest) (e : TableEntry) : Prop :=
  ∀ name ∈ req.deletes, ∀ other ∈ req.deletes, other ≠ name → ∀ g g',
    e.gsis.get name = some g → e.gsis.get other = some g' → g.mode = .generated →
    g'.mode = .generated → ∀ col ∈ g.columns, col ∈ g'.columns →
      col ∈ e.fixedCols ∨ e.KeptIndexes req.deletes col ∨ req.Declares col

/-- Key attributes named in the DDL texts as they are, each index once. -/
structure UpdateTableRequest.Plain (names : PgNames) (req : UpdateTableRequest) : Prop where
  keys : ∀ col, req.Declares col → PlainKey names col
  distinct : (req.creates.map GlobalSecondaryIndex.indexName).Nodup

theorem keepsColumn_of_kept (h : col ∈ e.fixedCols ∨ e.KeptIndexes req.deletes col) :
    e.References col ∧ e.KeepsColumn req.deletes col := by
  rcases h with hfixed | ⟨name, g, hget, hkept, hcol⟩
  · refine ⟨.inl hfixed, fun other _ g _ _ _ => ?_⟩
    exact mem_referencedColumns.mpr (.inl hfixed)
  · refine ⟨.inr ⟨name, g, hget, hcol⟩, fun other hother g' hget' hgen _ => ?_⟩
    refine mem_referencedColumns.mpr (.inr ⟨name, g, ?_, hget, hcol⟩)
    rintro rfl
    cases hget.symm.trans hget'
    exact hkept hgen hother

theorem updateTable_columns {columns : Columns} {table : TableState}
    (h : updateTable names hex8 ⟨e, columns⟩ req = .ok (table, creates))
    (hplain : req.Plain names) :
    (∀ col, (table.columns col).isSome ↔
      (columns col).isSome ∧ e.KeepsColumn req.deletes col ∨ req.Declares col) ∧
    ∀ col, table.entry.Indexes col ↔ req.Declares col ∨ e.KeptIndexes req.deletes col := by
  obtain ⟨hcreates, hentry, hcolumns⟩ := updateTable_ok h
  constructor
  · intro col
    rw [addColumns_isSome ?_ hcolumns, dropDeleted_isSome, validateCreates_declares hcreates]
    exact fun g hg col hcol =>
      hplain.keys col ((validateCreates_declares hcreates).mp ⟨g, hg, hcol⟩)
  · intro col
    have hnodup : (creates.map GsiSpec.name).Nodup := by
      rw [validateCreates_names hcreates]
      exact hplain.distinct
    have hnew := fun g hg => (validateCreates_new (g := g) hcreates hg).2
    rw [TableEntry.Indexes, hentry]
    exact (mergedGsis_indexes hnew hnodup).trans
      (or_congr (validateCreates_declares hcreates) Iff.rfl)

/-- A column in use stays so, if the deleted GSIs share none that goes out of use. -/
theorem kept_of_keepsColumn (hshares : req.SharesNoDropped e) (href : e.References col)
    (hkeeps : e.KeepsColumn req.deletes col) :
    col ∈ e.fixedCols ∨ e.KeptIndexes req.deletes col ∨ req.Declares col := by
  rcases href with hfixed | ⟨name, g, hget, hcol⟩
  · exact .inl hfixed
  by_cases hkept : g.mode = .generated → name ∉ req.deletes
  · exact .inr (.inl ⟨name, g, hget, hkept, hcol⟩)
  push Not at hkept
  rcases mem_referencedColumns.mp (hkeeps name hkept.2 g hget hkept.1 hcol) with
    hfixed | ⟨other, g', hne, hget', hcol'⟩
  · exact .inl hfixed
  by_cases hkept' : g'.mode = .generated → other ∉ req.deletes
  · exact .inr (.inl ⟨other, g', hget', hkept', hcol'⟩)
  push Not at hkept'
  exact hshares name hkept.2 other hkept'.2 hne g g' hget hget' hkept.1 hkept'.1 col hcol hcol'

section Update

variable {table : TableState} (hs : s.ColumnsMatch) (hsame : SameIndexes e s.entry)
  (h : updateTable names hex8 ⟨e, s.columns⟩ req = .ok (table, creates))
  (hplain : req.Plain names)

include hsame h hplain in
theorem updateTable_references :
    TableEntry.References { s.entry with gsis := table.entry.gsis } col ↔
      col ∈ e.fixedCols ∨ e.KeptIndexes req.deletes col ∨ req.Declares col := by
  have hindexes := (updateTable_columns h hplain).2 col
  rw [TableEntry.References, hsame.fixed, or_comm (a := e.KeptIndexes req.deletes col), ← hindexes]
  rfl

include hs hsame h hplain

theorem updateTable_columnsMatch (hshares : req.SharesNoDropped e) :
    TableState.ColumnsMatch ⟨{ s.entry with gsis := table.entry.gsis }, table.columns⟩ := by
  intro col
  rw [updateTable_references hsame h hplain, (updateTable_columns h hplain).1 col]
  constructor
  · rw [← or_assoc]
    rintro (hkept | hnew)
    · obtain ⟨href, hkeeps⟩ := keepsColumn_of_kept hkept
      obtain ⟨hne, hthere⟩ := (hs col).mp (hsame.references.mp href)
      exact ⟨hne, .inl ⟨hthere, hkeeps⟩⟩
    · exact ⟨(hplain.keys col hnew).2, .inr hnew⟩
  · rintro ⟨hne, ⟨hthere, hkeeps⟩ | hnew⟩
    · have href := hsame.references.mpr ((hs col).mpr ⟨hne, hthere⟩)
      exact kept_of_keepsColumn hshares href hkeeps
    · exact .inr (.inr hnew)

theorem sharesNoDropped_of_columns (hused : ∀ col, e.Indexes col →
      (table.columns col).isSome →
      TableEntry.References { s.entry with gsis := table.entry.gsis } col) :
    req.SharesNoDropped e := by
  intro name hname other hother hne g g' hget hget' _ _ col hcol hcol'
  have href : e.References col := .inr ⟨name, g, hget, hcol⟩
  have hthere := ((hs col).mp (hsame.references.mp href)).2
  have hkeeps : e.KeepsColumn req.deletes col := by
    intro deleted _ _ _ _ _
    by_cases heq : deleted = name
    · exact mem_referencedColumns.mpr (.inr ⟨other, g', heq ▸ hne, hget', hcol'⟩)
    · exact mem_referencedColumns.mpr (.inr ⟨name, g, Ne.symm heq, hget, hcol⟩)
  have hafter := hused col ⟨name, g, hget, hcol⟩
    (((updateTable_columns h hplain).1 col).mpr (.inl ⟨hthere, hkeeps⟩))
  exact (updateTable_references hsame h hplain).mp hafter

end Update

/-- Whole-array writes and deletes go by the stored keys, and no request deletes two Generated GSIs
that share a column then out of use. -/
def CountsReferences (names : PgNames) (s : SpecsState) : SpecsEvent → Prop
  | .commit c => ∀ e req, s.updates c = .prepared e req →
      SameIndexes e s.table.entry ∧ req.Plain names ∧ req.SharesNoDropped e
  | .write p => ∀ server row verdict, s.passes p = .judged server row verdict →
      SameIndexes row s.table.entry
  | _ => True

theorem afterUpdate_columnsMatch {s : SpecsState} {table : TableState} (hs : s.table.ColumnsMatch)
    (hsame : SameIndexes e s.table.entry)
    (h : updateTable names hex8 ⟨e, s.table.columns⟩ req = .ok (table, creates))
    (hplain : req.Plain names) (hshares : req.SharesNoDropped e) :
    (s.afterUpdate e req table creates).table.ColumnsMatch := by
  unfold SpecsState.afterUpdate
  split
  next => exact updateTable_columnsMatch hs hsame h hplain hshares
  next => exact hs

/-- Matching columns, other than the item's. -/
theorem TableState.ColumnsMatch.exists_iff (h : s.ColumnsMatch) (hne : col ≠ "data") :
    (s.columns col).isSome ↔ s.entry.References col := by
  rw [h col]
  exact ⟨fun hthere => ⟨hne, hthere⟩, And.right⟩

theorem TableState.ColumnsMatch.ne_data (h : s.ColumnsMatch) (hcol : s.entry.Indexes col) :
    col ≠ "data" :=
  ((h col).mp (.inr hcol)).1

theorem afterUpdate_follows_iff {s : SpecsState} {table : TableState} (hs : s.table.ColumnsMatch)
    (hsame : SameIndexes e s.table.entry)
    (h : updateTable names hex8 ⟨e, s.table.columns⟩ req = .ok (table, creates))
    (hplain : req.Plain names) :
    (∀ col, s.table.entry.Indexes col →
      (((s.afterUpdate e req table creates).table.columns col).isSome ↔
        (s.afterUpdate e req table creates).table.entry.References col)) ↔
    req.SharesNoDropped e := by
  constructor
  · intro hfollow
    unfold SpecsState.afterUpdate at hfollow
    split at hfollow
    next =>
      refine sharesNoDropped_of_columns hs hsame h hplain fun col hcol hthere => ?_
      exact (hfollow col (hsame.indexes hcol)).mp hthere
    next hneeds =>
      have hdeletes : req.deletes = [] := by
        simp only [UpdateTableRequest.needsSpecUpdate, Bool.or_eq_true, not_or] at hneeds
        simpa using hneeds.1
      intro name hname
      rw [hdeletes] at hname
      cases hname
  · intro hshares col hcol
    exact (afterUpdate_columnsMatch hs hsame h hplain hshares).exists_iff (hs.ne_data hcol)

def SameKeys (row : TableEntry) (verdict : OrderedMap String GsiSpec) : Prop :=
  SameIndexes { row with gsis := verdict } row

theorem reconcileGsis_sameKeys (row : TableEntry) (columns : Columns) (primaryKey : List String)
    (indexDefs : String → Option String) :
    SameKeys row (reconcileGsis ⟨row, columns⟩ primaryKey indexDefs) := by
  refine ⟨rfl, fun name => ?_⟩
  simp only [reconcileGsis, OrderedMap.get_mapVals, Option.map_map, Function.comp_def,
    reconcileGsi_keeps]

theorem SpecsStep.columnsMatch {s s' : SpecsState} {event : SpecsEvent}
    (hstep : SpecsStep names hex8 s event s') (hcounts : CountsReferences names s event)
    (hverdicts : s.Verdicts SameKeys) (h : s.table.ColumnsMatch) : s'.table.ColumnsMatch := by
  cases hstep with
  | prepare | fail | load | judge | keep | skip | replace | stop => exact h
  | commit hphase hupdate =>
    obtain ⟨hsame, hplain, hshares⟩ := hcounts _ _ hphase
    exact afterUpdate_columnsMatch h hsame hupdate hplain hshares
  | promote | demote => exact setServeable_columnsMatch h
  | remove => exact removeGsi_columnsMatch h
  | write hphase =>
    have hsame := hcounts _ _ _ hphase
    have hkeys := hverdicts _ _ _ _ hphase
    exact h.congr ⟨rfl, fun name => (hkeys.gsis name).trans (hsame.gsis name)⟩

theorem createEntry_references
    (hnodup : (plan.gsis.map GsiPlan.name).Nodup) :
    (createEntry hex8 plan).References col ↔ col ∈ (emittedCols plan).map Prod.fst := by
  rw [mem_emittedCols, ← or_assoc]
  refine or_congr ?_ ?_
  · simp [createEntry, TableEntry.fixedCols, or_assoc]
  · have hkeys : ((plan.gsis.map fun g => (g.name, plannedSpec hex8
        (sanitizePgTableName hex8 plan.tableName) g .generated true none)).map Prod.fst).Nodup := by
      rw [map_map]
      exact hnodup
    constructor
    · rintro ⟨name, g, hget, hcol⟩
      obtain ⟨p, hp, heq⟩ := mem_map.mp ((OrderedMap.get_ofList_iff hkeys).mp hget)
      obtain ⟨rfl, rfl⟩ := Prod.mk.inj heq
      refine ⟨p, hp, ?_⟩
      cases hsort : p.sort <;> simpa [GsiSpec.columns, GsiSpec.cols, plannedSpec, hsort] using hcol
    · rintro ⟨p, hp, hcol⟩
      refine ⟨p.name, _, (OrderedMap.get_ofList_iff hkeys).mpr (mem_map_of_mem hp), ?_⟩
      cases hsort : p.sort <;> simpa [GsiSpec.columns, GsiSpec.cols, plannedSpec, hsort] using hcol

theorem createColumns_isSome {columns : Columns}
    (hplain : ∀ c ∈ emittedCols plan, PlainKey names c.1)
    (h : createColumns names plan = some columns) :
    (columns col).isSome ↔ col = "data" ∨ col ∈ (emittedCols plan).map Prod.fst := by
  have hthere := Fallible.foldlM_collects (fun columns : Columns => (columns col).isSome = true)
    (fun c : String × KeyType => c.1 = col) ?_ ((createColumns_eq names plan).symm.trans h)
  · have hstart : ((update (fun _ => none) "data" (some ⟨.jsonb, false⟩) : Columns)
        col).isSome ↔ col = "data" := by
      by_cases heq : col = "data"
      · simp [heq]
      · simp [heq]
    rw [hthere, hstart, mem_map]
  · intro columns₀ c hc columns₁ hstep
    obtain ⟨_, rfl⟩ := (createColumn_self (hplain c hc).1).mp hstep
    by_cases heq : col = c.1
    · simp [heq]
    · simp [update_of_ne heq, Ne.symm heq]

theorem createTable_columnsMatch {creq : CreateTableRequest}
    (hplan : validateCreateTable creq = .ok plan)
    (hplain : ∀ c ∈ emittedCols plan, PlainKey names c.1)
    (h : createTable names hex8 plan = some s) : s.ColumnsMatch := by
  obtain ⟨columns, hcolumns, rfl⟩ := Option.map_eq_some_iff.mp h
  intro col
  rw [createEntry_references (validateCreateTable_names hplan).2]
  change _ ↔ col ≠ "data" ∧ (columns col).isSome
  rw [createColumns_isSome hplain hcolumns]
  constructor
  · intro hmem
    obtain ⟨c, hc, rfl⟩ := mem_map.mp hmem
    exact ⟨(hplain c hc).2, .inr hmem⟩
  · rintro ⟨hne, hdata | hmade⟩
    · exact absurd hdata hne
    · exact hmade

/-- From CreateTable on, a key column of a GSI that was there at some time exists exactly if it is
in use, where all steps count the stored references; and a request that does so otherwise leaves its
columns right exactly if it deletes no two Generated GSIs with a column that goes out of use. -/
theorem deleted_columns_follow_references {creq : CreateTableRequest} {plan : CreateTablePlan}
    {table : TableState} {cache : ServerId → TableEntry} {trace : List (SpecsState × SpecsEvent)}
    {s : SpecsState} (hplan : validateCreateTable creq = .ok plan)
    (hkeys : ∀ c ∈ emittedCols plan, PlainKey names c.1)
    (hcreate : createTable names hex8 plan = some table)
    (hrun : Run (SpecsStep names hex8) (SpecsState.start table cache) trace s)
    (hcounts : ∀ step ∈ trace, CountsReferences names step.1 step.2) :
    (∀ step ∈ trace, ∀ col, step.1.table.entry.Indexes col →
      ((s.table.columns col).isSome = true ↔ s.table.entry.References col)) ∧
    ∀ c e req s', s.updates c = .prepared e req → SameIndexes e s.table.entry → req.Plain names →
      SpecsStep names hex8 s (.commit c) s' →
      ((∀ col, s.table.entry.Indexes col →
        ((s'.table.columns col).isSome = true ↔ s'.table.entry.References col)) ↔
      req.SharesNoDropped e) := by
  have hstart : (SpecsState.start table cache).Verdicts SameKeys ∧
      (SpecsState.start table cache).table.ColumnsMatch :=
    ⟨nofun, createTable_columnsMatch hplan hkeys hcreate⟩
  have hkeep : ∀ s event s', SpecsStep names hex8 s event s' → CountsReferences names s event →
      s.Verdicts SameKeys ∧ s.table.ColumnsMatch → s'.Verdicts SameKeys ∧ s'.table.ColumnsMatch :=
    fun s event s' hstep hcounts h =>
      ⟨hstep.verdicts h.1 reconcileGsis_sameKeys, hstep.columnsMatch hcounts h.1 h.2⟩
  have hmatch := (hrun.invariant _ hkeep hcounts hstart).2
  refine ⟨fun step hstep col hcol => ?_, fun c e req s' hphase hsame hplain hstep => ?_⟩
  · have hbefore := (hrun.invariant_states _ hkeep hcounts hstart step hstep).2
    exact hmatch.exists_iff (hbefore.ne_data hcol)
  · cases hstep with
    | commit hphase' hupdate =>
      cases hphase.symm.trans hphase'
      exact afterUpdate_follows_iff hmatch hsame hupdate hplain

def twiceTagged : CreateTablePlan := taggedWith ["by-tag", "tagged"]

def twiceTaggedTable : TableState :=
  ⟨createEntry id twiceTagged, (createColumns plainNames twiceTagged).getD fun _ => none⟩

def deleteTags (deletes : List String) : UpdateTableRequest := ⟨[], deletes, none⟩

def twiceTaggedSpecs : SpecsState :=
  SpecsState.start twiceTaggedTable fun _ => twiceTaggedTable.entry

/-- One of them deleted: the other keeps the column. -/
theorem deleted_columns_follow_references_sample : ∃ trace s,
    Run (SpecsStep plainNames id) twiceTaggedSpecs trace s ∧
    trace.map Prod.snd = [.prepare 0, .commit 0] ∧ s.table.entry.gsis.keys = ["tagged"] ∧
    (∀ step ∈ trace, ∀ col, step.1.table.entry.Indexes col →
      ((s.table.columns col).isSome = true ↔ s.table.entry.References col)) := by
  let s₁ := twiceTaggedSpecs.setUpdate 0 (.prepared twiceTaggedTable.entry (deleteTags ["by-tag"]))
  have hprepare : SpecsStep plainNames id twiceTaggedSpecs (.prepare 0) s₁ := .prepare 0 _ rfl
  have hcommit : SpecsStep plainNames id s₁ (.commit 0) _ := .commit rfl rfl
  have hrun := Run.cons hprepare (.cons hcommit (.nil _))
  have hplan : validateCreateTable (taggedRequest ["by-tag", "tagged"]) = .ok twiceTagged := rfl
  have hkeys : ∀ c ∈ emittedCols twiceTagged, PlainKey plainNames c.1 := by
    have hdata : ∀ c ∈ emittedCols twiceTagged, c.1 ≠ "data" := by decide
    exact fun c hc => ⟨rfl, hdata c hc⟩
  refine ⟨_, _, hrun, rfl, rfl,
    (deleted_columns_follow_references hplan hkeys rfl hrun ?_).1⟩
  intro step hstep
  simp only [mem_cons, not_mem_nil, or_false] at hstep
  rcases hstep with rfl | rfl
  · trivial
  · intro e req hphase
    cases hphase
    refine ⟨⟨rfl, fun _ => rfl⟩, ⟨?_, nodup_nil⟩, ?_⟩
    · rintro col ⟨_, hmem, _⟩
      cases hmem
    · intro name hname other hother hne
      rw [mem_singleton.mp hname, mem_singleton.mp hother] at hne
      exact absurd rfl hne

/-- Deleted together, they leave the column behind. -/
theorem shared_column_outlives_deletes : ∃ trace s,
    validateCreateTable (taggedRequest ["by-tag", "tagged"]) = .ok twiceTagged ∧
    createTable plainNames id twiceTagged = some twiceTaggedTable ∧
    Run (SpecsStep plainNames id) twiceTaggedSpecs trace s ∧
    trace.map Prod.snd = [.prepare 0, .commit 0] ∧
    twiceTaggedTable.entry.Indexes "tag" ∧ s.table.columns "tag" = some ⟨.text, true⟩ ∧
    s.table.entry.gsis.keys = [] ∧ s.table.entry.fixedCols = ["id"] := by
  let s₁ := twiceTaggedSpecs.setUpdate 0
    (.prepared twiceTaggedTable.entry (deleteTags ["by-tag", "tagged"]))
  have hprepare : SpecsStep plainNames id twiceTaggedSpecs (.prepare 0) s₁ := .prepare 0 _ rfl
  have hcommit : SpecsStep plainNames id s₁ (.commit 0) _ := .commit rfl rfl
  refine ⟨_, _, rfl, rfl, .cons hprepare (.cons hcommit (.nil _)), rfl, ?_, rfl, rfl, rfl⟩
  exact ⟨"by-tag", _, rfl, by decide⟩

end Rektifier
