import Rektifier.GsiLifecycle
import Rektifier.BackfillSpec
import Rektifier.UpdateTableSpec

namespace Rektifier

open List

variable {bk : BaseKey} {columns columns' : Columns} {cols : List DualWriteCol}
  {t : PgTable bk} {order : ScanOrder} {names : PgNames}

theorem checkAssigned_ok_iff {c : DualWriteCol} : checkAssigned columns c = .ok () ↔
    ∃ info, columns c.col = some info ∧ info.isGenerated = false ∧
      assignable c.keyType.columnType info.dataType := by
  unfold checkAssigned
  rcases columns c.col with _ | info
  · simp
  · by_cases hgen : info.isGenerated
    · simp [hgen]
    · by_cases htype : assignable c.keyType.columnType info.dataType = true <;> simp [hgen, htype]

theorem checkSetList_ok_iff : checkSetList columns cols = .ok () ↔
    (∀ c ∈ cols, checkAssigned columns c = .ok ()) ∧ (cols.map DualWriteCol.col).Nodup := by
  unfold checkSetList
  rw [Fallible.bind_ok_iff]
  constructor
  · rintro ⟨_, hall, hnodup⟩
    split at hnodup
    · rename_i h
      exact ⟨Fallible.forM_ok_iff.mp hall, h⟩
    · cases hnodup
  · rintro ⟨hall, hnodup⟩
    exact ⟨(), Fallible.forM_ok_iff.mpr hall, if_pos hnodup⟩

theorem checkSetList_of_regular (hnodup : (cols.map DualWriteCol.col).Nodup)
    (hcols : ∀ c ∈ cols, columns c.col = some ⟨c.keyType.columnType, false⟩) :
    checkSetList columns cols = .ok () := by
  refine checkSetList_ok_iff.mpr ⟨fun c hc => ?_, hnodup⟩
  exact checkAssigned_ok_iff.mpr ⟨_, hcols c hc, rfl, by simp [assignable]⟩

/-- Every stored value has its column's type. -/
def Castable (cols : List DualWriteCol) (t : PgTable bk) : Prop :=
  ∀ k row, t.rows k = some row → ∀ c ∈ cols, ∃ v, extractCol c.attr c.keyType row.data = .ok v

def SameData (t t' : PgTable bk) : Prop :=
  ∀ k, (t'.rows k).map PgRow.data = (t.rows k).map PgRow.data

theorem SameData.castable {t' : PgTable bk} (h : SameData t t') (hcast : Castable cols t) :
    Castable cols t' := by
  intro k row hrow c hc
  have hdata := h k
  rw [hrow] at hdata
  obtain ⟨row₀, hrow₀, heq⟩ := Option.map_eq_some_iff.mp hdata.symm
  rw [← heq]
  exact hcast k row₀ hrow₀ c hc

/-- Every item's row fits in an index on the columns, whichever have a value. -/
def IndexRowsFit (order : ScanOrder) (cols : List String) (t : PgTable bk) : Prop :=
  ∀ k row, t.rows k = some row → ∀ values, order.indexRowFits cols ⟨row.data, values⟩ = true

theorem SameData.indexRowsFit {cols : List String} {t' : PgTable bk} (h : SameData t t')
    (hfit : IndexRowsFit order cols t) : IndexRowsFit order cols t' := by
  intro k row hrow
  have hdata := h k
  rw [hrow] at hdata
  obtain ⟨row₀, hrow₀, heq⟩ := Option.map_eq_some_iff.mp hdata.symm
  rw [← heq]
  exact hfit k row₀ hrow₀

theorem IndexRowsFit.all {cols : List String} (hfit : IndexRowsFit order cols t) :
    indexRowsFit order cols t := by
  rw [indexRowsFit, all_eq_true]
  intro k _
  rcases hrow : t.rows k with _ | row
  · rfl
  · exact hfit k row hrow row.cols

theorem fillRow_castable (hcast : Castable cols t) (k : PgKey) :
    ∃ t', fillRow cols t k = .ok t' ∧ SameData t t' := by
  rcases hrow : t.rows k with _ | row
  · refine ⟨t, ?_, fun _ => rfl⟩
    simp only [fillRow, hrow]
  · obtain ⟨m, hm⟩ := (fillCols_ok_iff cols row.data row.cols).mpr (hcast k row hrow)
    refine ⟨t.setCols k m, fillRow_eq hrow hm, fun k' => ?_⟩
    by_cases hk : k' = k
    · subst hk
      rw [PgTable.setCols_self, Option.map_map]
      rfl
    · rw [PgTable.setCols_of_ne _ hk]

theorem fillRows_castable (hcast : Castable cols t) (keys : List PgKey) :
    ∃ t', keys.foldlM (fillRow cols) t = .ok t' ∧ SameData t t' := by
  induction keys generalizing t with
  | nil => exact ⟨t, rfl, fun _ => rfl⟩
  | cons k keys ih =>
    obtain ⟨t₁, hfirst, hsame⟩ := fillRow_castable hcast k
    obtain ⟨t', hrest, hsame'⟩ := ih (hsame.castable hcast)
    refine ⟨t', ?_, fun k' => (hsame' k').trans (hsame k')⟩
    rw [foldlM_cons, hfirst]
    exact hrest

def remaining (order : ScanOrder) (cursor : ResumeCursor) (t : PgTable bk) : Finset PgKey :=
  order.keys.toFinset.filter fun k =>
    ((t.rows k).map PgRow.data).any (resumePred bk cursor) = true

theorem SameData.remaining {t' : PgTable bk} (h : SameData t t') (cursor : ResumeCursor) :
    remaining order cursor t' = remaining order cursor t := by
  unfold Rektifier.remaining
  refine Finset.filter_congr fun k _ => ?_
  rw [h k]

/-- Behind the row a chunk ends with fewer keys are left. -/
theorem remaining_lt {lastPk : Option Json} {last : PgKey} {row : PgRow}
    (hmem : last ∈ order.keys) (hrow : t.rows last = some row)
    (hresume : resumePred bk (seedCursor bk lastPk) row.data) :
    (remaining order (cursorAfter bk row.data) t).card
      < (remaining order (seedCursor bk lastPk) t).card := by
  have hafter : ∀ data, resumePred bk (cursorAfter bk row.data) data ↔
      keyText bk row.data < keyText bk data := by
    intro data
    rw [← seedCursor_lastPkJson, resumePred_seedCursor, seedCursor_lastPkJson, point_cursorAfter]
    simp
  have hbefore := (resumePred_seedCursor bk lastPk row.data).mp hresume
  apply Finset.card_lt_card
  refine ⟨fun k hk => ?_, fun hsub => ?_⟩
  · obtain ⟨hkey, hpassed⟩ := Finset.mem_filter.mp hk
    refine Finset.mem_filter.mpr ⟨hkey, ?_⟩
    rcases hk : t.rows k with _ | row'
    · simp [hk] at hpassed
    · have hlt := (hafter row'.data).mp (by simpa [hk] using hpassed)
      have hgoal : resumePred bk (seedCursor bk lastPk) row'.data := by
        refine (resumePred_seedCursor bk lastPk row'.data).mpr ?_
        rintro ⟨c, hc, hle⟩
        exact hbefore ⟨c, hc, hlt.le.trans hle⟩
      simpa using hgoal
  · have hlast : last ∈ remaining order (seedCursor bk lastPk) t :=
      Finset.mem_filter.mpr ⟨mem_toFinset.mpr hmem, by simpa [hrow] using hresume⟩
    have hstill := (Finset.mem_filter.mp (hsub hlast)).2
    have hlt := (hafter row.data).mp (by simpa [hrow] using hstill)
    exact lt_irrefl _ hlt

theorem mem_chunkKeys {cursor : ResumeCursor} {k : PgKey}
    (h : k ∈ chunkKeys order cols cursor t) : k ∈ order.keys ∧
      ∃ row, t.rows k = some row ∧ resumePred bk cursor row.data := by
  have hselected := mem_of_mem_take ((order.perm _).mem_iff.mp h)
  obtain ⟨hkey, hany⟩ := mem_filter.mp hselected
  refine ⟨hkey, ?_⟩
  rcases hrow : t.rows k with _ | row
  · simp [hrow] at hany
  · have hboth : nullFilter cols row ∧ resumePred bk cursor row.data := by
      simpa [hrow] using hany
    exact ⟨row, rfl, hboth.2⟩

/-- A chunk goes through where the SET list and every value do. -/
theorem runChunk_castable (hset : checkSetList columns cols = .ok ()) (hcast : Castable cols t)
    (order : ScanOrder) (cursor : ResumeCursor) : ∃ returned t',
      runChunk order columns cols cursor t = .ok (returned, t') ∧ SameData t t' ∧
      ∀ k ∈ returned, k ∈ order.keys ∧
        ∃ row, t.rows k = some row ∧ resumePred bk cursor row.data := by
  unfold runChunk
  split
  · exact ⟨[], t, rfl, fun _ => rfl, by simp⟩
  · obtain ⟨t', hfill, hsame⟩ := fillRows_castable hcast (chunkKeys order cols cursor t)
    refine ⟨chunkKeys order cols cursor t, t', ?_, hsame, fun k => mem_chunkKeys⟩
    simp only [hset, bind, Except.bind, hfill]
    rfl

/-- The loop ends before its fuel does: every chunk leaves fewer keys. -/
theorem backfillLoop_ends (hset : checkSetList columns cols = .ok ()) (hcast : Castable cols t)
    {lastPk : Option Json} {n : Nat}
    (hfuel : (remaining order (seedCursor bk lastPk) t).card < n) :
    ∃ t' lastPk', backfillLoop order columns cols n lastPk (seedCursor bk lastPk) t
      = .ok (some (t', lastPk')) ∧ SameData t t' := by
  induction n generalizing t lastPk with
  | zero => exact absurd hfuel (Nat.not_lt_zero _)
  | succ n ih =>
    obtain ⟨returned, t', hchunk, hsame, hreturned⟩ :=
      runChunk_castable hset hcast order (seedCursor bk lastPk)
    rw [backfillLoop, hchunk]
    simp only [bind, Except.bind]
    rcases hlast : returned.getLast? with _ | last
    · exact ⟨t', lastPk, rfl, hsame⟩
    · obtain ⟨hmem, row, hrow, hresume⟩ := hreturned last (mem_of_getLast? hlast)
      have hfewer := remaining_lt hmem hrow hresume
      simp only [Option.bind_some, hrow]
      rw [← seedCursor_lastPkJson]
      have hless : (remaining order (seedCursor bk (some (lastPkJson bk row.data))) t').card < n := by
        rw [hsame.remaining, seedCursor_lastPkJson]
        exact lt_of_lt_of_le hfewer (Nat.lt_succ_iff.mp hfuel)
      obtain ⟨t'', lastPk', hloop, hsame'⟩ := ih (hsame.castable hcast) hless
      exact ⟨t'', lastPk', hloop, fun k => (hsame' k).trans (hsame k)⟩

end Rektifier
