import Rektifier.Writers
import Rektifier.SharedBackfill
import Rektifier.DualWriteColumns

namespace Rektifier

open List Function

variable {snapshot : TableSchema} {data : Json} {m : String → Option PgValue} {bk : BaseKey}
  {g : GsiSpec} {generated : List String} {s s' t : RaceState bk}

/-- What the backfill of the GSI is given. -/
def raceEnv (generated : List String) (g : GsiSpec) : BackfillEnv :=
  ⟨generated, g.cols, defaultChunkSize⟩

/-- Each key column is filled by the snapshot, or not touched and already right for the new item. -/
def WriteKeepsRight (g : GsiSpec) (snapshot : TableSchema) (data : Json)
    (stored : String → Option PgValue) : Prop :=
  ∀ c ∈ g.cols, c ∈ snapshot.dualWriteCols ∨
    c.col ∉ snapshot.dualWriteCols.map DualWriteCol.col ∧
      extractCol c.attr c.keyType data = .ok (stored c.col)

/-- The backfill runs, the partition column is NULL and stays so, and the key is above the
cursor. -/
def WriteStaysAhead (g : GsiSpec) (snapshot : TableSchema) (data : Json)
    (stored : String → Option PgValue) (s : RaceState bk) : Prop :=
  s.progress = .filling ∧ g.partitionPgCol ∉ snapshot.dualWriteCols.map DualWriteCol.col ∧
    stored g.partitionPgCol = none ∧
    resumePred bk (seedCursor bk s.backfill.lastPkCopied) data = true

/-- A row that is right, or that the backfill is still to come to. -/
def RaceState.RightOrAhead (g : GsiSpec) (s : RaceState bk) (row : PgRow) : Prop :=
  Filled g.cols row ∨ s.progress = .filling ∧ row.cols g.partitionPgCol = none ∧
    resumePred bk (seedCursor bk s.backfill.lastPkCopied) row.data = true

/-- Writes since the commit keep their row right or ahead of the backfill, the commit finds the
wrong rows ahead of it, and no chunk leaves a wrong row behind. -/
def RaceEvent.Covered (g : GsiSpec) : RaceEvent → RaceState bk → Prop
  | .write snapshot data, s => s.progress = .undeclared ∨ ∀ k, generatedKey bk data = .ok k →
      WriteKeepsRight g snapshot data (s.table.storedCols k) ∨
        WriteStaysAhead g snapshot data (s.table.storedCols k) s
  | .commit, s => ∀ k row, s.table.rows k = some row → ¬ Filled g.cols row →
      row.cols g.partitionPgCol = none ∧
        resumePred bk (seedCursor bk s.backfill.lastPkCopied) row.data = true
  | .backfill e, s => LeavesNoneBehind (fun row => ¬ Filled g.cols row) s.backfill e
  | _, _ => True

/-- From the commit on every row is right or ahead. -/
structure RaceState.Ready (g : GsiSpec) (s : RaceState bk) : Prop where
  synced : s.progress = .filling → s.backfill.Synced
  rows : s.progress ≠ .undeclared → ∀ k row, s.table.rows k = some row → s.RightOrAhead g row

theorem RaceState.Ready.filled (hs : s.Ready g) (hdeclared : s.progress ≠ .undeclared)
    (hreturned : s.progress ≠ .filling) :
    ∀ k row, s.table.rows k = some row → Filled g.cols row := by
  intro k row hrow
  rcases hs.rows hdeclared k row hrow with hfilled | ⟨hfilling, _⟩
  · exact hfilled
  · exact absurd hfilling hreturned

theorem WriteKeepsRight.filled
    {stored : String → Option PgValue} (h : WriteKeepsRight g snapshot data stored)
    (hm : fillCols snapshot.dualWriteCols data stored = .ok m) : Filled g.cols ⟨data, m⟩ := by
  intro c hc
  rcases h c hc with hmem | ⟨hnot, hright⟩
  · exact fillCols_extract (dualWriteCols_nodup snapshot) hm c hmem
  · have hsame : m c.col = stored c.col := fillCols_of_not_mem hm hnot
    exact hright.trans (congrArg _ hsame.symm)

theorem covered_write_row {k : PgKey} (hk : generatedKey bk data = .ok k)
    (hm : fillCols snapshot.dualWriteCols data (s.table.storedCols k) = .ok m)
    (hcovered : (RaceEvent.write snapshot data).Covered g s)
    (hdeclared : s.progress ≠ .undeclared) :
    s.RightOrAhead g ⟨data, m⟩ := by
  rcases hcovered.resolve_left hdeclared k hk with hright | ⟨hfilling, hnot, hnull, hresume⟩
  · exact .inl (hright.filled hm)
  · have hsame : m g.partitionPgCol = s.table.storedCols k g.partitionPgCol :=
      fillCols_of_not_mem hm hnot
    exact .inr ⟨hfilling, hsame.trans hnull, hresume⟩

theorem write_ready {t' : PgTable bk}
    (hwrite : Writes snapshot.dualWriteCols s.table data t')
    (hcovered : (RaceEvent.write snapshot data).Covered g s) (hs : s.Ready g) :
    (s.withTable t').Ready g := by
  obtain ⟨k, m, hk, hm, hrows⟩ := hwrite.rows
  refine ⟨hs.synced, fun hdeclared k' row hrow => ?_⟩
  change t'.rows k' = some row at hrow
  rw [hrows] at hrow
  by_cases heq : k' = k
  · subst heq
    rw [update_self] at hrow
    cases hrow
    have hwritten : s.RightOrAhead g ⟨data, m⟩ := covered_write_row hk hm hcovered hdeclared
    exact hwritten
  · rw [update_of_ne heq] at hrow
    exact hs.rows hdeclared k' row hrow

theorem delete_ready (k : PgKey) (hs : s.Ready g) :
    (s.withTable (s.table.deleteRow k)).Ready g := by
  refine ⟨hs.synced, fun hdeclared k' row hrow => ?_⟩
  change s.table.without (some k) k' = some row at hrow
  by_cases heq : k' = k
  · subst heq
    rw [PgTable.without_self] at hrow
    cases hrow
  · have hstored : s.table.rows k' = some row := by simpa [PgTable.without, heq] using hrow
    exact hs.rows hdeclared k' row hstored

theorem RaceState.Ready.ahead (hs : s.Ready g) (hfilling : s.progress = .filling) :
    (s.backfill.scan g.cols fun row => ¬ Filled g.cols row).Ahead := by
  have hdeclared : s.progress ≠ .undeclared := by simp [hfilling]
  refine ahead_iff.mpr fun k row hrow hwrong => ?_
  obtain ⟨_, hnull, hresume⟩ := (hs.rows hdeclared k row hrow).resolve_left hwrong
  exact ⟨(nullFilter_cols g row).mpr hnull, hresume⟩

theorem chunk_ready {e : BackfillEvent} {b : BackfillState bk} (hfilling : s.progress = .filling)
    (hstep : BackfillStep (raceEnv generated g) s.backfill e b)
    (hcovered : (RaceEvent.backfill e).Covered g s) (hs : s.Ready g) :
    RaceState.Ready g { s with backfill := b } := by
  have howes : ∀ row, ¬ Filled g.cols row → ¬ Filled (raceEnv generated g).cols row :=
    fun _ h => h
  have hscan := hstep.scan_step howes (hs.synced hfilling)
  have hahead := hscan.ahead ((passesOnlyDone_iff hstep.stored).mpr hcovered) (hs.ahead hfilling)
  refine ⟨fun _ => hstep.synced, fun _ k row hrow => ?_⟩
  by_cases hright : Filled g.cols row
  · exact .inl hright
  · obtain ⟨hnull, hresume⟩ := ahead_iff.mp hahead k row hrow hright
    exact .inr ⟨hfilling, (nullFilter_cols g row).mp hnull, hresume⟩

theorem filled_ready (hfilling : s.progress = .filling)
    (hend : s.backfill.Finished (raceEnv generated g)) (hs : s.Ready g) :
    RaceState.Ready g { s with progress := .filled } := by
  have hpositive : 0 < defaultChunkSize.toNat := by decide
  have hnone := (hend.exhausted g.cols_ne_nil (hs.synced hfilling)).none_owed hpositive
    (hs.ahead hfilling)
  refine ⟨nofun, fun _ k row hrow => .inl ?_⟩
  by_contra hwrong
  exact hnone k ⟨row, hrow, hwrong⟩

theorem RaceStep.ready {e : RaceEvent} (hstep : RaceStep (raceEnv generated g) s e s')
    (hcovered : e.Covered g s) (hs : s.Ready g) : s'.Ready g := by
  cases hstep with
  | write hwrite => exact write_ready hwrite hcovered hs
  | delete k => exact delete_ready k hs
  | commit _ hworker =>
    refine ⟨fun _ cursor hc => ?_, fun _ k row hrow => ?_⟩
    · rw [hworker] at hc
      cases hc
    · by_cases hright : Filled g.cols row
      · exact .inl hright
      · exact .inr ⟨rfl, hcovered k row hrow hright⟩
  | backfill hfilling hstep => exact chunk_ready hfilling hstep hcovered hs
  | filled hfilling hend => exact filled_ready hfilling hend hs
  | crash hfilled =>
    have hrows := hs.filled (by simp [hfilled]) (by simp [hfilled])
    exact ⟨fun _ _ hc => (nomatch hc), fun _ k row hrow => .inl (hrows k row hrow)⟩
  | indexing hfilled =>
    have hrows := hs.filled (by simp [hfilled]) (by simp [hfilled])
    exact ⟨nofun, fun _ k row hrow => .inl (hrows k row hrow)⟩
  | promote hindexing =>
    have hrows := hs.filled (by simp [hindexing]) (by simp [hindexing])
    exact ⟨nofun, fun _ k row hrow => .inl (hrows k row hrow)⟩

/-- Whenever the GSI is active every row is right, if every write since the commit keeps its row
right or ahead of the backfill and the backfill passes no wrong row. -/
theorem active_gsi_filled_of_covered {trace : List (RaceState bk × RaceEvent)}
    (hstart : s.progress = .undeclared) (hrun : Run (RaceStep (raceEnv generated g)) s trace t)
    (hcovered : ∀ e ∈ trace, e.2.Covered g e.1) (hactive : t.progress = .active) :
    ∀ k row, t.table.rows k = some row → Filled g.cols row := by
  have hready : s.Ready g := by
    refine ⟨fun h => ?_, fun h => absurd hstart h⟩
    rw [hstart] at h
    cases h
  have hend := hrun.invariant (RaceState.Ready g) (fun _ _ _ hstep => hstep.ready) hcovered hready
  exact hend.filled (by simp [hactive]) (by simp [hactive])

def emptyRace : RaceState ⟨"id", .s, none, .plain⟩ := ⟨⟨.empty, none, none⟩, .undeclared⟩

/-- A request from before the GSI was declared. -/
def staleSchema : TableSchema := ⟨"orders", "rekt_t_orders", "id", .s, none, "data", [], [], .plain⟩

def freshSchema : TableSchema := { staleSchema with gsis := [tagGsi.toSchema] }

def orderData : Json := (orderRow nullCols).data

theorem emptyRace_finished :
    (⟨.empty, none, some (.simple none)⟩ : BackfillState ⟨"id", .s, none, .plain⟩).Finished
      (raceEnv [] tagGsi) := by
  refine ⟨_, rfl, .update tagGsi.cols_ne_nil (by decide) rfl ?_ rfl⟩
  refine ⟨nodup_nil, by simp, by simp, by simp, ?_⟩
  rintro - k ⟨row, hrow, _⟩
  cases hrow

theorem active_gsi_filled_sample : ∃ trace t,
    Run (RaceStep (raceEnv [] tagGsi)) emptyRace trace t ∧
    trace.map Prod.snd = [.commit, .backfill .start, .filled, .write freshSchema orderData,
      .indexing, .promote] ∧
    ∀ k row, t.table.rows k = some row → Filled tagGsi.cols row := by
  obtain ⟨stored, hwrite⟩ : ∃ stored : PgTable ⟨"id", .s, none, .plain⟩,
      Writes freshSchema.dualWriteCols .empty orderData stored := ⟨_, .put rfl⟩
  have hrun : Run (RaceStep (raceEnv [] tagGsi)) emptyRace _ _ :=
    .cons (.commit rfl rfl) (.cons (.backfill rfl .start) (.cons (.filled rfl emptyRace_finished)
      (.cons (.write hwrite) (.cons (.indexing rfl) (.cons (.promote rfl) (.nil _))))))
  refine ⟨_, _, hrun, rfl, ?_⟩
  refine active_gsi_filled_of_covered rfl hrun ?_ rfl
  refine forall_mem_cons.mpr ⟨?_, forall_mem_cons.mpr ⟨?_, forall_mem_cons.mpr
    ⟨trivial, forall_mem_cons.mpr ⟨?_, forall_mem_cons.mpr ⟨trivial,
    forall_mem_cons.mpr ⟨trivial, forall_mem_nil _⟩⟩⟩⟩⟩⟩
  · intro k row hrow
    cases hrow
  · intro last hlast
    cases hlast
  · have hcols : freshSchema.dualWriteCols = tagGsi.cols := by decide
    refine .inr fun k _ => .inl fun c hc => .inl ?_
    rw [hcols]
    exact hc

/-- A writer that loaded its schema before the commit stores an order behind the backfill's back. -/
theorem stale_writer_leaves_row_unfilled : ∃ trace t,
    Run (RaceStep (raceEnv [] tagGsi)) emptyRace trace t ∧
    trace.map Prod.snd = [.commit, .backfill .start, .filled, .write staleSchema orderData,
      .indexing, .promote] ∧
    t.progress = .active ∧ t.table.rows orderKey = some (orderRow nullCols) ∧
    ¬ Filled tagGsi.cols (orderRow nullCols) := by
  refine ⟨_, _, .cons (.commit rfl rfl) (.cons (.backfill rfl .start)
    (.cons (.filled rfl emptyRace_finished) (.cons (.write (.put rfl)) (.cons (.indexing rfl)
    (.cons (.promote rfl) (.nil _)))))), rfl, rfl, rfl, ?_⟩
  intro h
  cases h _ mem_cons_self

end Rektifier
