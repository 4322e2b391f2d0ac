import Rektifier.LifecycleRun

namespace Rektifier

open List

variable {gsi : GlobalSecondaryIndex} {ads : Option (List AttributeDefinition)}

section

variable {bk : BaseKey} {names : PgNames} {hex8 : String → String}
  {message : OrchestratorError → String} {order : ScanOrder} {w w' : GsiWorld bk} {id pgTable : String}
  {row : GsiState} {g : GsiSpec}

/-- The worker stops at its first statement where the SET list is refused. -/
theorem runLifecycleToActive_rejected (hrow : w.states id = some row)
    (hphase : row.phase = .backfilling) (hdesc : row.Describes pgTable g)
    (hset : checkSetList w.state.columns g.cols ≠ .ok ()) :
    ∃ w₂, runLifecycleToActive names message order w id = some w₂ ∧
      (w₂.states id).map GsiState.phase = some .failed := by
  have hcols : g.cols ≠ [] := by simp [GsiSpec.cols]
  obtain ⟨e, he⟩ : ∃ e, checkSetList w.state.columns g.cols = .error e := by
    rcases hcheck : checkSetList w.state.columns g.cols with e | u
    · exact ⟨e, rfl⟩
    · exact absurd hcheck hset
  have hloop : runBackfill order w.state.columns row w.table = .error (.db e) := by
    rw [runBackfill, if_neg (not_not.mpr hphase), parseColumnSpecs_json hdesc.columnSpecs]
    simp only [bind, Except.bind, backfillLoop, runChunk, if_neg hcols, he, Except.mapError]
  refine ⟨{ w with
    states := w.states.updatePhase id .failed (some ("backfill: " ++ message (.db e))) }, ?_, ?_⟩
  · simp only [runLifecycleToActive, hrow, hloop]
  · simp [hrow]

/-- The backfill ends where the SET list and the values go through. -/
theorem runBackfill_ends (order : ScanOrder) (hphase : row.phase = .backfilling)
    (hdesc : row.Describes pgTable g)
    (hset : checkSetList w.state.columns g.cols = .ok ()) (hcast : Castable g.cols w.table) :
    ∃ t lastPk, runBackfill order w.state.columns row w.table = .ok (some (t, lastPk)) ∧
      SameData w.table t := by
  have hfuel : (remaining order (seedCursor bk row.lastPkCopied) w.table).card
      < order.keys.length + 1 := by
    have hsub := Finset.card_filter_le order.keys.toFinset fun k =>
      ((w.table.rows k).map PgRow.data).any (resumePred bk (seedCursor bk row.lastPkCopied))
    have hkeys := order.keys.toFinset_card_le
    exact Nat.lt_succ_of_le (hsub.trans hkeys)
  obtain ⟨t, lastPk, hloop, hsame⟩ := backfillLoop_ends hset hcast hfuel
  refine ⟨t, lastPk, ?_, hsame⟩
  rw [runBackfill, if_neg (not_not.mpr hphase), parseColumnSpecs_json hdesc.columnSpecs]
  simp only [bind, Except.bind, hloop, Except.mapError]

/-- The worker comes to CREATE INDEX with the row as it was, its cursor apart. -/
theorem runLifecycleToActive_backfilled (names : PgNames) (message : OrchestratorError → String)
    (order : ScanOrder) (hrow : w.states id = some row)
    (hphase : row.phase = .backfilling ∨ row.phase = .indexing) (hdesc : row.Describes pgTable g)
    (hset : checkSetList w.state.columns g.cols = .ok ()) (hcast : Castable g.cols w.table) :
    ∃ t states row', runLifecycleToActive names message order w id
        = some (runIndexCreation names message order { w with table := t, states := states } id) ∧
      SameData w.table t ∧
      states id = some row' ∧ row'.phase = row.phase ∧ row'.Describes pgTable g := by
  obtain ⟨t, lastPk, hback, hsame⟩ : ∃ t lastPk,
      runBackfill order w.state.columns row w.table = .ok (some (t, lastPk)) ∧
        SameData w.table t := by
    rcases hphase with hphase | hphase
    · exact runBackfill_ends order hphase hdesc hset hcast
    · exact ⟨_, _, if_pos (by simp [hphase]), fun _ => rfl⟩
  obtain ⟨hname, htable, hspecs, hindex⟩ := hdesc
  rcases lastPk with _ | cursor
  · refine ⟨t, w.states, row, by simp only [runLifecycleToActive, hrow, hback], hsame, hrow, rfl,
      ?_⟩
    exact ⟨hname, htable, hspecs, hindex⟩
  · refine ⟨t, w.states.setLastPkCopied id cursor, { row with lastPkCopied := some cursor },
      by simp only [runLifecycleToActive, hrow, hback], hsame, ?_, rfl,
      ⟨hname, htable, hspecs, hindex⟩⟩
    simp [StateTable.setLastPkCopied, hrow]

/-- What the worker finds under the index's name after CREATE INDEX. -/
def indexAfter (names : PgNames) (relations : Relations) (pgTable : String) (g : GsiSpec) :
    Option Relation :=
  if g.indexName.utf8ByteSize ≤ pgIdentMax then
    (relations g.indexName).or
      (some (.index pgTable (indexDefText names pgTable g.indexName g.columns) true))
  else none

/-- Whether the worker ends in Active depends on what it finds there. -/
theorem runLifecycleToActive_fits (hrow : w.states id = some row)
    (hphase : row.phase = .backfilling ∨ row.phase = .indexing) (hdesc : row.Describes pgTable g)
    (hset : checkSetList w.state.columns g.cols = .ok ()) (hcast : Castable g.cols w.table)
    (hfit : IndexRowsFit order g.columns w.table) (hshort : ShortNames w.relations) :
    ∃ w₂, runLifecycleToActive names message order w id = some w₂ ∧
      (∀ rel, indexAfter names w.relations pgTable g = some rel → rel.isValidIndex →
        w₂.state = setServeable w.state g.name true none ∧
        w₂.relations g.indexName = some rel ∧
        (w₂.states id).map GsiState.phase = some .active) ∧
      ((∀ rel, indexAfter names w.relations pgTable g = some rel → rel.isValidIndex = false) →
        (w₂.states id).map GsiState.phase = some .failed) := by
  obtain ⟨t, states, row', hrun, hsame, hrow', hphase', hdesc'⟩ :=
    runLifecycleToActive_backfilled names message order hrow hphase hdesc hset hcast
  have hcols : ∀ col ∈ g.columns, w.state.columns col ≠ none := by
    intro col hcol
    obtain ⟨c, hc, rfl⟩ := mem_map.mp hcol
    obtain ⟨info, hinfo, _⟩ := checkAssigned_ok_iff.mp ((checkSetList_ok_iff.mp hset).1 c hc)
    simp [hinfo]
  obtain ⟨relations', hcreate, hafter⟩ := createIndexIfNotExists_apply
    (w := { w with table := t, states := states }) names row' hshort hcols
    (hsame.indexRowsFit hfit)
  have hparse := parseIndexCols_json hdesc'.columnSpecs
  rw [← hphase'] at hphase
  replace hafter : relations' g.indexName = indexAfter names w.relations pgTable g := by
    rw [hdesc'.indexName, hdesc'.pgTable] at hafter
    exact hafter
  refine ⟨_, hrun, fun rel hrel hvalid => ?_, fun hinvalid => ?_⟩
  · rw [← hafter, ← hdesc'.indexName] at hrel
    rw [runIndexCreation_active (w := { w with table := t, states := states }) hrow' hphase hparse
      hcreate hrel hvalid, hdesc'.gsiName]
    refine ⟨rfl, ?_, ?_⟩
    · rw [← hdesc'.indexName]
      exact hrel
    · simp [hrow']
  · rw [← hafter, ← hdesc'.indexName] at hinvalid
    exact runIndexCreation_failed (w := { w with table := t, states := states }) hrow' hphase
      hparse hcreate hinvalid

/-- The index's name fits, and is free for an index that shows the key columns, or such an index of
the table has it. -/
def IndexFits (names : PgNames) (relations : Relations) (pgTable : String) (g : GsiSpec) : Prop :=
  g.indexName.utf8ByteSize ≤ pgIdentMax ∧
    match relations g.indexName with
    | none =>
      textContains (indexDefText names pgTable g.indexName g.columns) g.expectedColumns = true
    | some (.index table indexDef valid) =>
      table = pgTable ∧ valid = true ∧ textContains indexDef g.expectedColumns = true
    | some .other => False

theorem indexFits_iff {relations : Relations} : IndexFits names relations pgTable g ↔
    ∃ indexDef, indexAfter names relations pgTable g = some (.index pgTable indexDef true) ∧
      textContains indexDef g.expectedColumns := by
  unfold IndexFits indexAfter
  by_cases hsize : g.indexName.utf8ByteSize ≤ pgIdentMax
  · rw [if_pos hsize]
    rcases relations g.indexName with _ | ⟨table, indexDef, valid⟩ | _
    · simp [hsize]
    · constructor
      · rintro ⟨_, rfl, rfl, hcontains⟩
        exact ⟨indexDef, rfl, hcontains⟩
      · rintro ⟨indexDef', heq, hcontains⟩
        cases heq
        exact ⟨hsize, rfl, rfl, hcontains⟩
    · simp
  · simp [hsize]

def GsiWorld.withGsi (w : GsiWorld bk) (g : GsiSpec) (columns : Columns) : GsiWorld bk :=
  { w with
    state := ⟨{ w.state.entry with gsis := w.state.entry.gsis.insert g.name g }, columns⟩
    states := createDualWriteGsiInTx w.state.entry.name w.state.entry.pgTable w.states g }

/-- ADD COLUMN is all that can stop the transaction. -/
theorem createGsi_eq
    {plan : GsiPlan}
    (hplan : validateUpdateTableGsiCreate w.state.entry.name gsi ads w.state.entry.pkAttr
      (w.state.entry.sk.map Prod.fst) w.state.entry.gsis.keys = .ok plan)
    (hg : g = plannedSpec hex8 w.state.entry.pgTable plan .dualWrite false (some creatingReason)) :
    createGsi names hex8 w gsi ads = .ok w' ↔ ∃ columns,
      addColumns names g w.state.columns = some columns ∧ w' = w.withGsi g columns := by
  have hcreates : validateCreates hex8 w.state.entry ⟨[gsi], [], ads⟩ = .ok [g] := by
    simp only [validateCreates, mapM_cons, mapM_nil, hplan, hg]
    rfl
  have hdeletes : checkDeletes w.state.entry [] = .ok () := rfl
  have hadd : [g].foldlM (fun columns g => addColumns names g columns)
      (dropDeleted w.state.entry [] w.state.columns) = addColumns names g w.state.columns := by
    simp [dropDeleted]
  simp only [createGsi, updateTable, hdeletes, hcreates, bind, Except.bind, hadd]
  rcases addColumns names g w.state.columns with _ | columns
  · constructor
    · intro h
      cases h
    · rintro ⟨_, h, _⟩
      cases h
  · constructor
    · intro h
      cases h
      exact ⟨columns, rfl, rfl⟩
    · rintro ⟨_, h, rfl⟩
      cases h
      rfl

theorem setServeable_get (s : TableState) (name : String) (serveable : Bool)
    (reason : Option String) : (setServeable s name serveable reason).entry.gsis.get name
      = (s.entry.gsis.get name).map fun g =>
        { g with serveable := serveable, unserveableReason := reason } := by
  rcases hget : s.entry.gsis.get name with _ | g
  · simp only [setServeable, hget, Option.map_none]
  · simp only [setServeable, hget, OrderedMap.get_insert_self, Option.map_some]

theorem baseReason_setServeable (s : TableState) (name : String) (serveable : Bool)
    (reason : Option String) (columns : Columns) (primaryKey : List String) :
    baseReason (setServeable s name serveable reason).entry columns primaryKey
      = baseReason s.entry columns primaryKey := by
  unfold setServeable
  split <;> rfl

theorem reconcile_promoted_iff {s : TableState} {rel : Relation} (hmode : g.mode = .dualWrite)
    (hget : s.entry.gsis.get g.name = some g)
    (hstate : w.state = setServeable s g.name true none)
    (hrel : w.relations g.indexName = some rel) :
    (∃ g', w.state.entry.gsis.get g.name = some g' ∧
      (reconcileGsi w.state bk.columns (w.relations.indexDefs pgTable) g').serveable) ↔
    baseReason s.entry s.columns bk.columns = none ∧
      (∀ c ∈ g.cols, s.columns c.col = some ⟨c.keyType.columnType, false⟩) ∧
      ∃ indexDef valid, rel = .index pgTable indexDef valid ∧
        textContains indexDef g.expectedColumns := by
  have hindex : (∃ indexDef, w.relations.indexDefs pgTable g.indexName = some indexDef ∧
      textContains indexDef g.expectedColumns) ↔
      ∃ indexDef valid, rel = .index pgTable indexDef valid ∧
        textContains indexDef g.expectedColumns := by
    rcases rel with ⟨table, indexDef, valid⟩ | _
    · by_cases htable : table = pgTable
      · simp [Relations.indexDefs, hrel, htable]
      · simp [Relations.indexDefs, hrel, htable]
    · simp [Relations.indexDefs, hrel]
  rw [hstate, setServeable_get, hget, Option.map_some]
  simp only [Option.some.injEq, exists_eq_left']
  have hpromoted : ({ g with serveable := true, unserveableReason := none } : GsiSpec).mode
      = .dualWrite := hmode
  rw [reconcileGsi_serveable hpromoted, setServeable_columns, baseReason_setServeable, ← hindex]
  rfl

theorem ReachesServeable.setList {plan : GsiPlan}
    (hplan : validateUpdateTableGsiCreate w.state.entry.name gsi ads w.state.entry.pkAttr
      (w.state.entry.sk.map Prod.fst) w.state.entry.gsis.keys = .ok plan)
    (hg : g = plannedSpec hex8 w.state.entry.pgTable plan .dualWrite false (some creatingReason))
    (hold : ∀ row, w.states (gsiId w.state.entry.name g.name) = some row →
      row.Describes w.state.entry.pgTable g)
    (h : ReachesServeable names hex8 message order w gsi ads) : ∃ columns,
      addColumns names g w.state.columns = some columns ∧ checkSetList columns g.cols = .ok () := by
  have hname : gsi.indexName = g.name := by
    rw [hg]
    exact (validateUpdateTableGsiCreate_ok hplan).2.1.symm
  obtain ⟨row, hrow, hphase, hdesc⟩ := createDualWriteGsiInTx_row hold
  obtain ⟨w₁, w₂, hcreate, hrun, ⟨row₂, hrow₂, hactive⟩, _⟩ := h
  obtain ⟨columns, hadd, rfl⟩ := (createGsi_eq hplan hg).mp hcreate
  refine ⟨columns, hadd, ?_⟩
  by_contra hset
  rw [hname] at hrun hrow₂
  obtain ⟨w₂', hrun', hfailed⟩ := runLifecycleToActive_rejected
    (w := w.withGsi g columns) hrow hphase hdesc hset
  cases hrun.symm.trans hrun'
  rw [hrow₂, Option.map_some, hactive] at hfailed
  cases hfailed

end

def taggedRelations : Relations := fun name =>
  if name = "rekt_t_orders" then some .other
  else if name = "rekt_t_orders_gsi_by_tag_idx" then
    some (.index "rekt_t_orders" (indexDefText plainNames "rekt_t_orders" name ["tag"]) true)
  else none

def taggedWorld : GsiWorld ⟨"id", .s, none, .plain⟩ :=
  ⟨taggedTable, taggedRelations, fun _ => none, PgTable.empty⟩

def noKeys : ScanOrder :=
  ⟨[], nodup_nil, List.Pairwise.nil, id, fun _ => List.Perm.refl _, fun _ _ => true⟩

theorem taggedRelations_short : ShortNames taggedRelations := by
  intro name hname
  unfold taggedRelations at hname
  split at hname
  · rename_i heq
    rw [heq]
    decide
  · split at hname
    · rename_i heq
      rw [heq]
      decide
    · exact absurd rfl hname

end Rektifier
