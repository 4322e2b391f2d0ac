import Rektifier.BackfillCorrect
import Rektifier.ColumnStatements

namespace Rektifier

open SqlLiteral Fallible List Function

/-- The constant of a plain attribute is its path. -/
theorem ExtractSite.constant_plain (site : ExtractSite) {c : DualWriteCol}
    (hplain : plainAttr c.attr) : ∃ content, site.constant c = some content ∧
      arrayIn content = some [.text c.attr.toList, .text c.keyType.tag.toList] := by
  obtain ⟨htag, hquote, hzero⟩ := plainElem_tag c.keyType
  have hafter := frame_after site c.col c.keyType
  obtain ⟨content, hbody, harray⟩ :=
    (literal_pair_iff htag hquote hzero hafter).mpr ((plainAttr_iff c.attr).mp hplain)
  have htext := site.text_toList c ""
  rw [String.append_empty, String.append_empty] at htext
  refine ⟨content, ?_, harray⟩
  rw [ExtractSite.constant, htext, drop_left]
  simp only [hbody, if_true]

theorem ColumnExpr.eval_plain (shape : TableShape) (env : ClauseEnv) {c : DualWriteCol}
    (hplain : plainAttr c.attr) (e : ColumnExpr) :
    e.eval shape env c = (e.source.eval env >>= extractCol c.attr c.keyType) := by
  obtain ⟨content, hconstant, harray⟩ := (e.site shape).constant_plain hplain
  simp only [ColumnExpr.eval, hconstant, harray, extractAt_pair]
  refine bind_congr ?_
  intro item
  rw [extractCol]
  cases extractText item c.attr c.keyType.tag with
  | none => rfl
  | some s =>
    show (castKey c.keyType s >>= fun v => pure (some v)) = (castKey c.keyType s).map some
    cases castKey c.keyType s <;> rfl

theorem assignColumns_plain {cols : List DualWriteCol}
    (hplain : ∀ c ∈ cols, plainAttr c.attr) (shape : TableShape) {env : ClauseEnv}
    {e : ColumnExpr} {item : Json} (hitem : e.source.eval env = .ok item)
    (start : String → Option PgValue) :
    assignColumns shape env (cols.map fun c => (c, e)) start = fillCols cols item start := by
  induction cols generalizing start with
  | nil => rfl
  | cons c cols ih =>
    have hvalue : e.eval shape env c = extractCol c.attr c.keyType item := by
      rw [e.eval_plain shape env (hplain c mem_cons_self), hitem]
      rfl
    have hrest := ih fun c' hc' => hplain c' (mem_cons_of_mem _ hc')
    rw [fillCols_cons, ← hvalue]
    simp only [assignColumns, map_cons, foldlM_cons, bind_assoc, pure_bind]
    exact bind_congr fun v => hrest _

/-- Every column is computed from the item the clause writes. -/
def RowClause.Synced (cols : List DualWriteCol) (clause : RowClause) : Prop :=
  ∃ e : ColumnExpr, clause.item = e.source ∧ clause.cols = cols.map fun c => (c, e)

def WriteStatement.Synced (cols : List DualWriteCol) (stmt : WriteStatement) : Prop :=
  ∀ clause ∈ stmt.clauses, clause.Synced cols

theorem RowClause.Synced.version {cols : List DualWriteCol} {clause : RowClause}
    (h : clause.Synced cols) (hplain : ∀ c ∈ cols, plainAttr c.attr) (shape : TableShape)
    (env : ClauseEnv) (start : String → Option PgValue) : clause.version shape env start =
      (clause.item.eval env >>= fun item => newVersion cols item start) := by
  obtain ⟨e, hitem, hcols⟩ := h
  rw [RowClause.version, hitem, hcols]
  cases hsource : e.source.eval env with
  | error err => rfl
  | ok item =>
    show (assignColumns shape env _ start >>= fun m => pure (PgRow.mk item m)) = _
    rw [assignColumns_plain hplain shape hsource]
    rfl

section

variable {bk : BaseKey} {cols : List DualWriteCol}

theorem newVersion_filled {item : Json} {start : String → Option PgValue} {row : PgRow}
    (hnodup : (cols.map DualWriteCol.col).Nodup) (h : newVersion cols item start = .ok row) :
    row.data = item ∧ Filled cols row := by
  obtain ⟨m, hm, rfl⟩ := newVersion_eq h
  exact ⟨rfl, fillCols_extract hnodup hm⟩

/-- The rows written are there and filled, the others as they were. -/
structure StatementRun.Fills (cols : List DualWriteCol) (t : PgTable bk) (r : StatementRun bk) :
    Prop where
  written : ∀ item ∈ r.written, ∃ k ∈ r.touched, ∃ row, r.table.rows k = some row ∧
    row.data = item ∧ Filled cols row
  rows : ∀ k row, r.table.rows k = some row →
    t.rows k = some row ∨ row.data ∈ r.written ∧ Filled cols row

theorem StatementRun.Fills.start (cols : List DualWriteCol) (t : PgTable bk) :
    StatementRun.Fills cols t ⟨t, [], []⟩ :=
  ⟨fun _ h => absurd h not_mem_nil, fun _ _ h => .inl h⟩

theorem StatementRun.Fills.delete (cols : List DualWriteCol) (t : PgTable bk) (k : PgKey) :
    StatementRun.Fills cols t ⟨t.deleteRow k, [], []⟩ := by
  refine ⟨fun _ h => absurd h not_mem_nil, ?_⟩
  intro j row hrow
  by_cases hj : j = k
  · subst hj
    rw [show (t.deleteRow j).rows j = none from t.without_self j] at hrow
    cases hrow
  · left
    rwa [show (t.deleteRow k).rows j = t.rows j from update_of_ne hj _ _] at hrow

/-- One more filled row, in place of one not yet written. -/
theorem StatementRun.Fills.store {t : PgTable bk} {r r' : StatementRun bk} {old : Option PgKey}
    {version : PgRow} (h : r.Fills cols t) (hold : ∀ k, old = some k → k ∉ r.touched)
    (hfilled : Filled cols version) (hstore : r.store old version = .ok r') : r'.Fills cols t := by
  obtain ⟨k, hk, hstore⟩ := bind_ok hstore
  obtain ⟨t', hwrite, hstore⟩ := bind_ok hstore
  cases hstore
  obtain ⟨k', hk', _, hfree, hrows⟩ := PgTable.write_eq hwrite
  cases hk.symm.trans hk'
  have hwithout : ∀ j ∈ r.touched, r.table.without old j = r.table.rows j := by
    intro j hj
    cases old with
    | none => rfl
    | some o =>
      have hne : j ≠ o := fun heq => hold o rfl (heq ▸ hj)
      exact update_of_ne hne _ _
  refine ⟨?_, ?_⟩
  · intro item hitem
    rcases mem_append.mp hitem with hitem | hitem
    · obtain ⟨j, hj, row, hrow, hdata, hrowFilled⟩ := h.written item hitem
      have hj' := hwithout j hj
      have hne : j ≠ k := by
        rintro rfl
        rw [hj', hrow] at hfree
        cases hfree
      refine ⟨j, mem_cons_of_mem _ hj, row, ?_, hdata, hrowFilled⟩
      rw [hrows, update_of_ne hne, hj', hrow]
    · refine ⟨k, mem_cons_self, version, ?_, (mem_singleton.mp hitem).symm, hfilled⟩
      rw [hrows, update_self]
  · intro j row hrow
    rw [hrows] at hrow
    by_cases hj : j = k
    · subst hj
      rw [update_self] at hrow
      cases hrow
      exact .inr ⟨mem_append_right _ mem_cons_self, hfilled⟩
    · rw [update_of_ne hj] at hrow
      have hstored : r.table.rows j = some row := by
        cases old with
        | none => exact hrow
        | some o =>
          by_cases ho : j = o
          · subst ho
            rw [PgTable.without_self] at hrow
            cases hrow
          · rwa [PgTable.without, update_of_ne ho] at hrow
      rcases h.rows j row hstored with hsame | ⟨hmem, hrowFilled⟩
      · exact .inl hsame
      · exact .inr ⟨mem_append_left _ hmem, hrowFilled⟩

end

section

variable {shape : TableShape} {params : List Param} {t : PgTable shape.baseKey}
  (hplain : ∀ c ∈ shape.dualWriteCols, plainAttr c.attr)
  (hnodup : (shape.dualWriteCols.map DualWriteCol.col).Nodup)

include hplain hnodup

theorem RowClause.Synced.filled {clause : RowClause} (h : clause.Synced shape.dualWriteCols)
    {env : ClauseEnv} {start : String → Option PgValue} {row : PgRow}
    (hrow : clause.version shape env start = .ok row) : Filled shape.dualWriteCols row := by
  rw [h.version hplain] at hrow
  obtain ⟨item, _, hrow⟩ := bind_ok hrow
  exact (newVersion_filled hnodup hrow).2

theorem InsertStatement.insertRow_fills {stmt : InsertStatement} {r r' : StatementRun shape.baseKey}
    {row : RowClause} (hrow : row.Synced shape.dualWriteCols)
    (hset : ∀ set, stmt.doUpdate = some set → set.Synced shape.dualWriteCols)
    (hr : r.Fills shape.dualWriteCols t) (h : stmt.insertRow shape params r row = .ok r') :
    r'.Fills shape.dualWriteCols t := by
  obtain ⟨proposed, hproposed, h⟩ := bind_ok h
  obtain ⟨k, hk, h⟩ := bind_ok h
  unfold InsertStatement.place at h
  split at h
  next =>
    refine hr.store ?_ (hrow.filled hplain hnodup hproposed) h
    intro j hj
    cases hj
  next old hold =>
    split at h
    next =>
      cases h
      exact hr
    next set hdo =>
      split at h
      next => cases h
      next hk' =>
        obtain ⟨version, hversion, h⟩ := bind_ok h
        refine hr.store ?_ ((hset set hdo).filled hplain hnodup hversion) h
        intro j hj
        cases hj
        exact hk'

theorem InsertStatement.exec_fills {stmt : InsertStatement} {r : StatementRun shape.baseKey}
    (hsynced : (WriteStatement.insert stmt).Synced shape.dualWriteCols)
    (h : stmt.exec shape params t = .ok r) : r.Fills shape.dualWriteCols t := by
  have hset : ∀ set, stmt.doUpdate = some set → set.Synced shape.dualWriteCols := by
    intro set hdo
    exact hsynced set (mem_append_right _ (by simp [hdo]))
  obtain ⟨_, _, hrows⟩ := bind_ok h
  refine foldlM_ok_preserves (StatementRun.Fills shape.dualWriteCols t) ?_ hrows
    (StatementRun.Fills.start _ t)
  intro r row hmem r' hrow hr
  exact insertRow_fills hplain hnodup (hsynced row (mem_append_left _ hmem)) hset hr hrow

theorem UpdateStatement.exec_fills {stmt : UpdateStatement} {r : StatementRun shape.baseKey}
    (hsynced : stmt.set.Synced shape.dualWriteCols) (h : stmt.exec shape params t = .ok r) :
    r.Fills shape.dualWriteCols t := by
  have hstart := StatementRun.Fills.start shape.dualWriteCols t
  obtain ⟨k, _, h⟩ := bind_ok h
  split at h
  next =>
    cases h
    exact hstart
  next old hold =>
    obtain ⟨passes, _, h⟩ := bind_ok h
    split at h
    next =>
      obtain ⟨version, hversion, h⟩ := bind_ok h
      exact hstart.store (fun _ _ => not_mem_nil) (hsynced.filled hplain hnodup hversion) h
    next =>
      cases h
      exact hstart

theorem WriteStatement.exec_fills {stmt : WriteStatement} {r : StatementRun shape.baseKey}
    (hsynced : stmt.Synced shape.dualWriteCols) (h : stmt.exec shape params t = .ok r) :
    r.Fills shape.dualWriteCols t := by
  cases stmt with
  | insert stmt => exact stmt.exec_fills hplain hnodup hsynced h
  | update stmt => exact stmt.exec_fills hplain hnodup (hsynced _ mem_cons_self) h
  | delete key =>
    obtain ⟨k, _, h⟩ := bind_ok h
    cases h
    exact StatementRun.Fills.delete _ t k

end

end Rektifier
