import Rektifier.BackfillSpec

namespace Rektifier

variable {e : BackfillEvent}

/-- The columns hold what is extracted from the JSONB. -/
def Filled (cols : List DualWriteCol) (row : PgRow) : Prop :=
  ∀ c ∈ cols, extractCol c.attr c.keyType row.data = .ok (row.cols c.col)

/-- The item has every indexed attribute, with its type. -/
def Carries (cols : List DualWriteCol) (data : Json) : Prop :=
  ∀ c ∈ cols, (extractText data c.attr c.keyType.tag).isSome = true

def BackfillEvent.keys : BackfillEvent → List PgKey
  | .chunk returned => returned
  | _ => []

variable {bk : BaseKey} {env : BackfillEnv} {s s' t : BackfillState bk}
  {trace : List (BackfillState bk × BackfillEvent)} {cols : List DualWriteCol}
  {owes : PgRow → Prop}

/-- A backfill as a scan for the rows that owe work. -/
def BackfillState.scan (cols : List DualWriteCol) (owes : PgRow → Prop) (s : BackfillState bk) :
    KeysetScan PgKey TextKey where
  pending k := ∃ row, s.table.rows k = some row ∧ nullFilter cols row = true
  owed k := ∃ row, s.table.rows k = some row ∧ owes row
  text k := ((s.table.rows k).map fun row => keyText bk row.data).getD (toLex ("", ""))
  cursor := (seedCursor bk s.lastPkCopied).point

def BackfillState.Synced (s : BackfillState bk) : Prop :=
  ∀ cursor ∈ s.worker, cursor = seedCursor bk s.lastPkCopied

theorem BackfillStep.synced (h : BackfillStep env s e s') : s'.Synced := by
  cases h with
  | start =>
    intro cursor hc
    exact (Option.mem_some_iff.mp hc).symm
  | crash =>
    intro cursor hc
    cases hc
  | chunk =>
    intro cursor hc
    rw [Option.mem_some_iff] at hc
    rw [← hc]
    exact (seedCursor_lastPkJson bk _).symm

theorem scan_text {k : PgKey} {row : PgRow} (h : s.table.rows k = some row) :
    (s.scan cols owes).text k = keyText bk row.data := by
  simp [BackfillState.scan, h]

theorem scan_selects_iff (owes : PgRow → Prop) (k : PgKey) :
    (∃ row, s.table.rows k = some row ∧ nullFilter cols row ∧
      resumePred bk (seedCursor bk s.lastPkCopied) row.data) ↔
      (s.scan cols owes).Selects k := by
  constructor
  · rintro ⟨row, hrow, hnull, hresume⟩
    refine ⟨⟨row, hrow, hnull⟩, ?_⟩
    rintro ⟨c, hc, hle⟩
    rw [scan_text hrow] at hle
    exact (resumePred_seedCursor bk s.lastPkCopied row.data).mp hresume ⟨c, hc, hle⟩
  · rintro ⟨⟨row, hrow, hnull⟩, hpassed⟩
    refine ⟨row, hrow, hnull, (resumePred_seedCursor bk s.lastPkCopied row.data).mpr ?_⟩
    rintro ⟨c, hc, hle⟩
    exact hpassed ⟨c, hc, by rwa [scan_text hrow]⟩

theorem checkAssignable_nodup {generated : List String} {cols : List DualWriteCol}
    (h : checkAssignable generated cols = .ok ()) : (cols.map DualWriteCol.col).Nodup := by
  unfold checkAssignable at h
  split at h
  · assumption
  · cases h

/-- A chunk fills the rows it returns; nothing else touches the table or the cursor. -/
theorem BackfillStep.scan_step (howes : ∀ row, owes row → ¬ Filled env.cols row)
    (h : BackfillStep env s e s') (hsync : s.Synced) :
    KeysetScan.Step PgKey.Le env.chunkSize.toNat (s.scan env.cols owes) e.keys
      (s'.scan env.cols owes) := by
  cases h with
  | start => exact .idle
  | crash => exact .idle
  | @chunk cursor returned t' last row hworker hchunk hlast hrow =>
    obtain rfl := hsync cursor hworker
    cases hchunk with
    | noCols => cases hlast
    | update _ _ hassign hlimit hupdate =>
      have hlimit' := hlimit.congr (scan_selects_iff owes)
      obtain ⟨hother, hself⟩ := fillRows_spec hlimit.nodup hupdate
      have hstored : ∀ k ∈ returned, ∃ row, s.table.rows k = some row :=
        fun k hk => (hlimit.admitted k hk).imp fun _ h => h.1
      refine .advance hlimit' hlast ?_ ?_ ?_ ?_ ?_
      · funext k
        by_cases hk : k ∈ returned
        · obtain ⟨row, hr⟩ := hstored k hk
          obtain ⟨m, _, hr'⟩ := hself k hk row hr
          simp [BackfillState.scan, hr, hr']
        · simp [BackfillState.scan, hother k hk]
      · simp only [BackfillState.scan, seedCursor_lastPkJson, point_cursorAfter, hrow,
          Option.map_some, Option.getD_some]
      · rintro k hk ⟨row', hr', howe⟩
        obtain ⟨row, hr⟩ := hstored k hk
        obtain ⟨m, hm, hfilled⟩ := hself k hk row hr
        obtain rfl : { row with cols := m } = row' := Option.some.inj (hfilled.symm.trans hr')
        exact howes _ howe (fillCols_extract (checkAssignable_nodup hassign) hm)
      · intro k hk
        simp only [BackfillState.scan, hother k hk]
      · intro k hk
        simp only [BackfillState.scan, hother k hk]

theorem BackfillState.Finished.exhausted (hcols : env.cols ≠ []) (hsync : t.Synced)
    (h : t.Finished env) :
    KeysetScan.Exhausted PgKey.Le env.chunkSize.toNat (t.scan env.cols owes) := by
  obtain ⟨cursor, hworker, hchunk⟩ := h
  obtain rfl := hsync cursor hworker
  cases hchunk with
  | noCols hnil => exact absurd hnil hcols
  | update _ _ _ hlimit _ => exact hlimit.congr (scan_selects_iff owes)

/-- No row that owes work is up to the row returned last and outside the chunk. -/
def LeavesNoneBehind (owes : PgRow → Prop) (s : BackfillState bk) (e : BackfillEvent) : Prop :=
  ∀ last ∈ e.keys.getLast?, ∀ lastRow, s.table.rows last = some lastRow →
    ∀ k row, s.table.rows k = some row → owes row → k ∉ e.keys →
      keyText bk lastRow.data < keyText bk row.data

theorem passesOnlyDone_iff
    (hstored : ∀ k ∈ e.keys, ∃ row, s.table.rows k = some row) :
    (s.scan cols owes).PassesOnlyDone e.keys ↔ LeavesNoneBehind owes s e := by
  constructor
  · intro h last hlast lastRow hlastRow k row hrow howe hout
    have hlt := h last hlast k ⟨row, hrow, howe⟩ hout
    rwa [scan_text hlastRow, scan_text hrow] at hlt
  · rintro h last hlast k ⟨row, hrow, howe⟩ hout
    obtain ⟨lastRow, hlastRow⟩ := hstored last (List.mem_of_getLast? hlast)
    rw [scan_text hlastRow, scan_text hrow]
    exact h last hlast lastRow hlastRow k row hrow howe hout

theorem BackfillStep.stored (h : BackfillStep env s e s') :
    ∀ k ∈ e.keys, ∃ row, s.table.rows k = some row := by
  cases h with
  | start | crash => simp [BackfillEvent.keys]
  | chunk _ hchunk hlast _ =>
    cases hchunk with
    | noCols => cases hlast
    | update _ _ _ hlimit _ => exact fun k hk => (hlimit.admitted k hk).imp fun _ h => h.1

/-- Rows that owe work are ahead where their first column is NULL and their key above the cursor. -/
theorem ahead_iff : (s.scan cols owes).Ahead ↔ ∀ k row, s.table.rows k = some row → owes row →
    nullFilter cols row ∧
      resumePred bk (seedCursor bk s.lastPkCopied) row.data := by
  constructor
  · intro h k row hrow howe
    obtain ⟨row', hrow', hsel⟩ := (scan_selects_iff owes k).mpr (h k ⟨row, hrow, howe⟩)
    rw [hrow] at hrow'
    cases hrow'
    exact hsel
  · rintro h k ⟨row, hrow, howe⟩
    exact (scan_selects_iff owes k).mp ⟨row, hrow, h k row hrow howe⟩

theorem backfill_scan (howes : ∀ row, owes row → ¬ Filled env.cols row)
    (hrun : Run (BackfillStep env) s trace t) (hstart : s.worker = none) :
    Run (fun u chunk u' => KeysetScan.Step PgKey.Le env.chunkSize.toNat u chunk u')
      (s.scan env.cols owes) (trace.map fun e => (e.1.scan env.cols owes, e.2.keys))
      (t.scan env.cols owes) ∧
    t.Synced ∧
    ((∀ e ∈ trace.map fun e => (e.1.scan env.cols owes, e.2.keys), e.1.PassesOnlyDone e.2) ↔
      ∀ e ∈ trace, LeavesNoneBehind owes e.1 e.2) := by
  have hsync : s.Synced := by
    intro cursor hc
    rw [hstart] at hc
    cases hc
  refine ⟨hrun.simulate (fun _ _ _ h _ => h.synced) (fun _ _ _ h hs => h.scan_step howes hs) hsync,
    hrun.preserved _ (fun _ _ _ h _ => h.synced) hsync, ?_⟩
  have hstored := hrun.forall_steps (fun _ _ _ h => h.stored)
  rw [List.forall_mem_map]
  exact forall₂_congr fun e he => passesOnlyDone_iff (hstored e he)

/-- `run_backfill` has filled all rows that owed work exactly when each was to be selected at the
start and no chunk left one behind. -/
theorem backfill_done_iff (owes : PgRow → Prop) (howes : ∀ row, owes row → ¬ Filled env.cols row)
    (hcols : env.cols ≠ []) (hrun : Run (BackfillStep env) s trace t) (hstart : s.worker = none)
    (hend : t.Finished env) :
    (∀ k row, t.table.rows k = some row → ¬ owes row) ↔
      (0 < env.chunkSize ∨ ∀ k row, s.table.rows k = some row → ¬ owes row) ∧
      (∀ k row, s.table.rows k = some row → owes row → nullFilter env.cols row ∧
        resumePred bk (seedCursor bk s.lastPkCopied) row.data) ∧
      ∀ e ∈ trace, LeavesNoneBehind owes e.1 e.2 := by
  obtain ⟨hscan, hsync, hpass⟩ := backfill_scan howes hrun hstart
  have hdone := KeysetScan.run_done_iff hscan (hend.exhausted hcols hsync)
  have howed : ∀ u : BackfillState bk, (∀ k, ¬ (u.scan env.cols owes).owed k) ↔
      ∀ k row, u.table.rows k = some row → ¬ owes row := by
    intro u
    simp only [BackfillState.scan, not_exists, not_and]
  rw [← howed, hdone, howed, ahead_iff, hpass, Int.lt_toNat]
  rfl

/-- Keys are in the order of their texts. -/
def PgTable.TextOrdered (t : PgTable bk) : Prop :=
  ∀ k row k' row', t.rows k = some row → t.rows k' = some row' → k ≠ k' → PgKey.Le k k' →
    keyText bk row.data < keyText bk row'.data

theorem BaseKey.NumberFree.textOrdered (hfree : bk.NumberFree) (t : PgTable bk) :
    t.TextOrdered := by
  intro k row k' row' hrow hrow' hne hle
  exact keyText_lt hfree (t.keyed k row hrow) (t.keyed k' row' hrow') hle hne

theorem backfill_leavesNoneBehind (howes : ∀ row, owes row → ¬ Filled env.cols row)
    (hrun : Run (BackfillStep env) s trace t) (hstart : s.worker = none)
    (hordered : s.table.TextOrdered)
    (hahead : ∀ k row, s.table.rows k = some row → owes row → nullFilter env.cols row ∧
      resumePred bk (seedCursor bk s.lastPkCopied) row.data) :
    ∀ e ∈ trace, LeavesNoneBehind owes e.1 e.2 := by
  obtain ⟨hscan, _, hpass⟩ := backfill_scan howes hrun hstart
  refine hpass.mp (KeysetScan.run_passesOnlyDone hscan ?_ (ahead_iff.mpr hahead))
  rintro k k' ⟨row, hrow, _⟩ ⟨row', hrow', _⟩ hne hle
  rw [scan_text hrow, scan_text hrow']
  exact hordered k row k' row' hrow hrow' hne hle

end Rektifier
