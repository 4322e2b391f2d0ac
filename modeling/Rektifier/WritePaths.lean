import Rektifier.ColumnsFilled

namespace Rektifier

open Fallible List

theorem putStatement_synced (shape : TableShape) :
    (WriteStatement.insert (putStatement shape)).Synced shape.dualWriteCols := by
  intro clause hclause
  rcases mem_cons.mp hclause with rfl | hclause
  · exact ⟨.extract shape.insertParamIdx, rfl, rfl⟩
  · cases mem_singleton.mp hclause
    exact ⟨.setExcluded, rfl, rfl⟩

theorem updateStatement_synced (shape : TableShape) (nSets nRemoves : Nat) :
    (WriteStatement.insert (updateStatement shape nSets nRemoves)).Synced shape.dualWriteCols := by
  intro clause hclause
  rcases mem_cons.mp hclause with rfl | hclause
  · exact ⟨.extract shape.insertParamIdx, rfl, rfl⟩
  · cases mem_singleton.mp hclause
    exact ⟨.setFromExpr _, rfl, rfl⟩

theorem insertOnlyStatement_synced (shape : TableShape) :
    (WriteStatement.insert (insertOnlyStatement shape)).Synced shape.dualWriteCols := by
  intro clause hclause
  cases mem_singleton.mp hclause
  exact ⟨.extract 1, rfl, rfl⟩

theorem rmwUpdateStatement_synced (shape : TableShape) :
    (WriteStatement.update (rmwUpdateStatement shape)).Synced shape.dualWriteCols := by
  intro clause hclause
  cases mem_singleton.mp hclause
  exact ⟨.setFromParam 1, rfl, rfl⟩

theorem simpleConditionStatement_synced (shape : TableShape) (key : KeyPredicate)
    (expr : JsonbExpr) (cond : SqlCond) :
    (WriteStatement.update (simpleConditionStatement shape key expr cond)).Synced
      shape.dualWriteCols := by
  intro clause hclause
  cases mem_singleton.mp hclause
  exact ⟨.setFromExpr expr, rfl, rfl⟩

theorem batchPutStatement_synced (shape : TableShape) (nPuts : Nat) :
    (WriteStatement.insert (batchPutStatement shape nPuts)).Synced shape.dualWriteCols := by
  intro clause hclause
  rcases mem_append.mp hclause with hclause | hclause
  · obtain ⟨i, _, rfl⟩ := mem_map.mp hclause
    exact ⟨.extract (i + 1), rfl, rfl⟩
  · cases mem_singleton.mp hclause
    exact ⟨.setExcluded, rfl, rfl⟩

theorem delete_synced (cols : List DualWriteCol) (key : KeyPredicate) :
    (WriteStatement.delete key).Synced cols :=
  fun _ h => absurd h not_mem_nil

section

variable {shape : TableShape} {t : PgTable shape.baseKey} {pk : KeyValue} {sk : Option KeyValue}
  {issued : IssuedStatement}

theorem issuePut_synced {item : Json} (h : issuePut shape pk sk item = .ok issued) :
    issued.1.Synced shape.dualWriteCols := by
  obtain ⟨_, _, h⟩ := bind_ok h
  cases h
  exact putStatement_synced shape

theorem issueLocked_synced (existing : Option Json) (newItem : Json) :
    (issueLocked shape pk sk existing newItem).1.Synced shape.dualWriteCols := by
  unfold issueLocked
  split
  next => exact rmwUpdateStatement_synced shape
  next => exact insertOnlyStatement_synced shape

theorem issuePutWithCondition_synced {item : Json} {condition : Option Json → Bool}
    (h : issuePutWithCondition shape t pk sk item condition = .ok issued) :
    issued.1.Synced shape.dualWriteCols := by
  obtain ⟨_, _, h⟩ := bind_ok h
  obtain ⟨existing, _, h⟩ := bind_ok h
  obtain ⟨_, _, h⟩ := bind_ok h
  cases h
  exact issueLocked_synced existing item

theorem issueGeneralRmw_synced {apply : Option Json → Except BackendError UpdateDecision}
    (h : issueGeneralRmw shape t pk sk apply = .ok issued) :
    issued.1.Synced shape.dualWriteCols := by
  obtain ⟨_, _, h⟩ := bind_ok h
  obtain ⟨existing, _, h⟩ := bind_ok h
  obtain ⟨decision, _, h⟩ := bind_ok h
  obtain ⟨newItem, _, h⟩ := bind_ok h
  cases h
  exact issueLocked_synced existing newItem

theorem issueSimpleCondition_synced {sets : List (String × Json)} {removes : List String}
    {condition : Condition}
    (h : issueSimpleCondition shape pk sk sets removes condition = .ok issued) :
    issued.1.Synced shape.dualWriteCols := by
  obtain ⟨_, _, h⟩ := bind_ok h
  obtain ⟨cond, _, h⟩ := bind_ok h
  cases h
  exact simpleConditionStatement_synced shape _ _ _

theorem TransactAction.issue_synced {action : TransactAction}
    (h : action.issue shape t pk sk = .ok (some issued)) :
    issued.1.Synced shape.dualWriteCols := by
  cases action with
  | put item condition =>
    cases condition with
    | none =>
      obtain ⟨_, hput, h⟩ := map_ok_iff.mp h
      cases h
      exact issuePut_synced hput
    | some cond =>
      obtain ⟨_, hput, h⟩ := map_ok_iff.mp h
      cases h
      exact issuePutWithCondition_synced hput
  | delete condition =>
    cases condition with
    | none =>
      obtain ⟨_, hdelete, h⟩ := map_ok_iff.mp h
      cases h
      obtain ⟨_, _, h⟩ := bind_ok hdelete
      cases h
      exact delete_synced _ _
    | some cond =>
      obtain ⟨_, _, h⟩ := bind_ok h
      obtain ⟨existing, _, h⟩ := bind_ok h
      obtain ⟨_, _, h⟩ := bind_ok h
      cases existing with
      | none => cases h
      | some old =>
        cases h
        exact delete_synced _ _
  | conditionCheck cond =>
    obtain ⟨_, _, h⟩ := map_ok_iff.mp h
    cases h
  | update apply =>
    obtain ⟨_, hupdate, h⟩ := map_ok_iff.mp h
    cases h
    exact issueGeneralRmw_synced hupdate

theorem WriteCall.issue_synced {call : WriteCall} (h : call.issue shape t = .ok (some issued)) :
    issued.1.Synced shape.dualWriteCols := by
  cases call with
  | put pk sk item =>
    obtain ⟨_, hput, h⟩ := map_ok_iff.mp h
    cases h
    exact issuePut_synced hput
  | putWithCondition pk sk item condition =>
    obtain ⟨_, hput, h⟩ := map_ok_iff.mp h
    cases h
    exact issuePutWithCondition_synced hput
  | updateSimple pk sk insertItem sets removes =>
    obtain ⟨_, _, h⟩ := bind_ok h
    cases h
    exact updateStatement_synced shape _ _
  | updateWithSimpleCondition pk sk sets removes condition =>
    obtain ⟨_, hupdate, h⟩ := map_ok_iff.mp h
    cases h
    exact issueSimpleCondition_synced hupdate
  | updateInsertOnly insertItem =>
    cases h
    exact insertOnlyStatement_synced shape
  | updateGeneralRmw pk sk apply =>
    obtain ⟨_, hupdate, h⟩ := map_ok_iff.mp h
    cases h
    exact issueGeneralRmw_synced hupdate
  | batchPuts puts =>
    cases puts with
    | nil => cases h
    | cons item puts =>
      cases h
      exact batchPutStatement_synced shape _
  | transact pk sk action => exact TransactAction.issue_synced h

end

/-- Whatever a call has read, and on whatever table its statement then runs: in each branch the row
version is the new item with every dual-write column extracted from it, and the statement leaves the
rows that were there and those it has written, whose columns agree with their items. -/
theorem write_fills_columns {shape : TableShape}
    (hplain : ∀ c ∈ shape.dualWriteCols, plainAttr c.attr = true)
    (hnodup : (shape.dualWriteCols.map DualWriteCol.col).Nodup) {call : WriteCall}
    {seen : PgTable shape.baseKey} {stmt : WriteStatement} {params : List Param}
    (hissue : call.issue shape seen = .ok (some (stmt, params))) :
    (∀ clause ∈ stmt.clauses, ∀ env start, clause.version shape env start =
      (clause.item.eval env >>= fun item => newVersion shape.dualWriteCols item start)) ∧
    ∀ (t : PgTable shape.baseKey) (r : StatementRun shape.baseKey),
      stmt.exec shape params t = .ok r →
      (∀ item ∈ r.written, ∃ k row, r.table.rows k = some row ∧ row.data = item ∧
        Filled shape.dualWriteCols row) ∧
      ∀ k row, r.table.rows k = some row →
        t.rows k = some row ∨ row.data ∈ r.written ∧ Filled shape.dualWriteCols row := by
  have hsynced := WriteCall.issue_synced hissue
  refine ⟨fun clause hclause => (hsynced clause hclause).version hplain shape, ?_⟩
  intro t r hexec
  have hfills := stmt.exec_fills hplain hnodup hsynced hexec
  refine ⟨?_, hfills.rows⟩
  intro item hitem
  obtain ⟨k, _, row, hrow, hdata, hfilled⟩ := hfills.written item hitem
  exact ⟨k, row, hrow, hdata, hfilled⟩

def taggedShape : TableShape :=
  ⟨"rekt_t_orders", "id", .s, none, "data", [⟨"due", "due", .n⟩, ⟨"tag", "tag", .s⟩], .plain⟩

def taggedItem : Json := .obj [("id", .obj [("S", .str "a")]), ("tag", .obj [("S", .str "new")])]

def taggedParams : List Param := [.text "a", .jsonb taggedItem]

theorem write_fills_columns_sample :
    (∀ c ∈ taggedShape.dualWriteCols, plainAttr c.attr = true) ∧
    ∃ r, (WriteStatement.insert (putStatement taggedShape)).exec taggedShape taggedParams
        PgTable.empty = .ok r ∧ r.written = [taggedItem] ∧
      ∃ k row, r.table.rows k = some row ∧ row.data = taggedItem ∧
        Filled taggedShape.dualWriteCols row := by
  have hplain : ∀ c ∈ taggedShape.dualWriteCols, plainAttr c.attr = true := by decide
  have hissue : (WriteCall.put (.s "a") none taggedItem).issue taggedShape PgTable.empty =
      .ok (some (.insert (putStatement taggedShape), taggedParams)) := rfl
  refine ⟨hplain, _, rfl, rfl, ?_⟩
  have hfills := (write_fills_columns hplain (by decide) hissue).2 PgTable.empty _ rfl
  exact hfills.1 taggedItem mem_cons_self

end Rektifier
