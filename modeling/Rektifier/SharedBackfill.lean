import Rektifier.BackfillCoverage

namespace Rektifier

open List

variable {bk : BaseKey} {g : GsiSpec} {generated : List String} {chunkSize : Int}
  {s t : BackfillState bk} {trace : List (BackfillState bk × BackfillEvent)}

/-- Whatever the columns held before, a backfill leaves every row with its columns equal to the
extraction exactly when the rows whose partition column was filled had the others filled too, and
its cursor never passes a row that is not right. -/
theorem shared_backfill_fills_iff
    (hrun : Run (BackfillStep ⟨generated, g.cols, chunkSize⟩) s trace t)
    (hstart : s.worker = none) (hend : t.Finished ⟨generated, g.cols, chunkSize⟩) :
    (∀ k row, t.table.rows k = some row → Filled g.cols row) ↔
      (0 < chunkSize ∨ ∀ k row, s.table.rows k = some row → Filled g.cols row) ∧
      (∀ k row, s.table.rows k = some row → ¬ Filled g.cols row →
        row.cols g.partitionPgCol = none ∧
          resumePred bk (seedCursor bk s.lastPkCopied) row.data = true) ∧
      ∀ e ∈ trace, LeavesNoneBehind (fun row => ¬ Filled g.cols row) e.1 e.2 := by
  have hdone := backfill_done_iff (fun row => ¬ Filled g.cols row)
    (fun _ h => h) g.cols_ne_nil hrun hstart hend
  simp only [not_not, nullFilter_cols] at hdone
  exact hdone

def tagStatusGsi : GsiSpec :=
  ⟨"by-tag-status", "tag", .s, "tag", some ⟨"status", "status", .s⟩, "orders_by_tag_status",
    .dualWrite, false, none⟩

def orderRow (cols : String → Option PgValue) : PgRow :=
  ⟨Item.toValue (OrderedMap.ofList [("id", .s "o1"), ("status", .s "new"), ("tag", .s "x")]), cols⟩

def orderKey : PgKey := (.text "o1", none)

def orderTable (cols : String → Option PgValue) : PgTable ⟨"id", .s, none, .plain⟩ :=
  .ofRows [(orderKey, orderRow cols)] (by
    intro e he
    rw [mem_singleton] at he
    subst he
    rfl)

theorem orderTable_key (cols : String → Option PgValue) :
    (orderTable cols).rows orderKey = some (orderRow cols) := by
  simp [orderTable, PgTable.ofRows]

theorem orderTable_rows {cols : String → Option PgValue} {k : PgKey} {row : PgRow}
    (h : (orderTable cols).rows k = some row) : k = orderKey ∧ row = orderRow cols := by
  simpa using PgTable.mem_of_ofRows h

theorem orderTable_setCols (cols cols' : String → Option PgValue) :
    (orderTable cols).setCols orderKey cols' = orderTable cols' := by
  have hrows : ((orderTable cols).setCols orderKey cols').rows = (orderTable cols').rows := by
    funext k
    by_cases hk : k = orderKey
    · subst hk
      rw [PgTable.setCols_self, orderTable_key, orderTable_key]
      rfl
    · rw [PgTable.setCols_of_ne _ hk]
      simp [orderTable, PgTable.ofRows, Ne.symm hk]
  cases h : (orderTable cols).setCols orderKey cols'
  cases h' : orderTable cols'
  simpa [h, h'] using hrows

section OneOrder

variable {g : GsiSpec} {cols : String → Option PgValue}

theorem orderTable_chunk (g : GsiSpec) (cols cols' : String → Option PgValue)
    (hassign : checkAssignable [] g.cols = .ok ())
    (hnull : cols g.partitionPgCol = none)
    (hfill : fillCols g.cols (orderRow cols).data cols = .ok cols') :
    Run (BackfillStep ⟨[], g.cols, 1⟩) ⟨orderTable cols, none, none⟩
      [(⟨orderTable cols, none, none⟩, .start),
        (⟨orderTable cols, none, some (.simple none)⟩, .chunk [orderKey])]
      ⟨orderTable cols', some (.str "o1"), some (.simple (some "o1"))⟩ := by
  have hlimit : Limited PgKey.Le (1 : Int).toNat (fun k => ∃ row,
      (orderTable cols).rows k = some row ∧ nullFilter g.cols row ∧
        resumePred ⟨"id", .s, none, .plain⟩ (.simple none) row.data = true) [orderKey] := by
    refine ⟨nodup_singleton _, ?_, le_rfl, ?_, fun h => absurd h (lt_irrefl 1)⟩
    · intro k hk
      rw [mem_singleton] at hk
      subst hk
      exact ⟨_, orderTable_key cols, (nullFilter_cols g _).mpr hnull, rfl⟩
    · rintro k _ k' ⟨row, hrow, _⟩ hout
      exact absurd (mem_singleton.mpr (orderTable_rows hrow).1) hout
  have hupdate : [orderKey].foldlM (fillRow g.cols) (orderTable cols) = .ok (orderTable cols') := by
    rw [← orderTable_setCols cols cols', foldlM_cons,
      fillRow_eq (orderTable_key cols) hfill]
    rfl
  have hchunk : RunChunk ⟨[], g.cols, 1⟩ (orderTable cols) (.simple none) [orderKey]
      (orderTable cols') := .update g.cols_ne_nil Int.one_nonneg hassign hlimit hupdate
  exact .cons .start (.cons (.chunk rfl hchunk rfl (orderTable_key cols)) (.nil _))

theorem orderTable_finished {lastPkCopied : Option Json} {cursor : ResumeCursor}
    (hassign : checkAssignable [] g.cols = .ok ()) (hfull : cols g.partitionPgCol ≠ none) :
    (⟨orderTable cols, lastPkCopied, some cursor⟩ : BackfillState ⟨"id", .s, none, .plain⟩).Finished
      ⟨[], g.cols, 1⟩ := by
  refine ⟨_, rfl, .update g.cols_ne_nil Int.one_nonneg hassign ?_ rfl⟩
  refine ⟨nodup_nil, by simp, by simp, by simp, ?_⟩
  rintro - k ⟨row, hrow, hnull, _⟩
  rw [(orderTable_rows hrow).2, nullFilter_cols] at hnull
  exact absurd hnull hfull

end OneOrder

def tagStatusCols : String → Option PgValue := Function.update taggedCols "status" (some (.text "new"))

theorem shared_backfill_fills_sample :
    (⟨orderTable tagStatusCols, some (.str "o1"), some (.simple (some "o1"))⟩ :
      BackfillState ⟨"id", .s, none, .plain⟩).Finished ⟨[], tagStatusGsi.cols, 1⟩ ∧
    ∀ k row, (orderTable tagStatusCols).rows k = some row → Filled tagStatusGsi.cols row := by
  have hrun := orderTable_chunk tagStatusGsi (fun _ => none) tagStatusCols rfl rfl rfl
  have hend : (⟨orderTable tagStatusCols, some (.str "o1"), some (.simple (some "o1"))⟩ :
      BackfillState ⟨"id", .s, none, .plain⟩).Finished ⟨[], tagStatusGsi.cols, 1⟩ :=
    orderTable_finished rfl nofun
  refine ⟨hend, (shared_backfill_fills_iff hrun rfl hend).mpr ⟨.inl Int.one_pos, ?_, ?_⟩⟩
  · intro k row hrow _
    rw [(orderTable_rows hrow).2]
    exact ⟨rfl, rfl⟩
  · intro e he
    rcases mem_pair.mp he with rfl | rfl
    · intro last hlast
      cases hlast
    · intro last _ lastRow _ k row hrow _ hout
      exact absurd (mem_singleton.mpr (orderTable_rows hrow).1) hout

/-- Once `tagGsi` has filled the shared partition column, the backfill of `tagStatusGsi` selects no
row and the status column stays NULL. -/
theorem shared_backfill_skips_sort_column :
    Run (BackfillStep ⟨[], tagGsi.cols, 1⟩) ⟨orderTable fun _ => none, none, none⟩
        [(⟨orderTable fun _ => none, none, none⟩, .start),
          (⟨orderTable fun _ => none, none, some (.simple none)⟩, .chunk [orderKey])]
        ⟨orderTable taggedCols, some (.str "o1"), some (.simple (some "o1"))⟩ ∧
    Run (BackfillStep ⟨[], tagStatusGsi.cols, 1⟩) ⟨orderTable taggedCols, none, none⟩
        [(⟨orderTable taggedCols, none, none⟩, .start)]
        ⟨orderTable taggedCols, none, some (.simple none)⟩ ∧
    (⟨orderTable taggedCols, none, some (.simple none)⟩ : BackfillState ⟨"id", .s, none, .plain⟩).Finished
        ⟨[], tagStatusGsi.cols, 1⟩ ∧
    (orderTable taggedCols).rows orderKey = some (orderRow taggedCols) ∧
    ¬ Filled tagStatusGsi.cols (orderRow taggedCols) := by
  refine ⟨orderTable_chunk _ _ _ rfl rfl rfl, .cons .start (.nil _), orderTable_finished rfl nofun,
    orderTable_key taggedCols, ?_⟩
  intro hfilled
  cases hfilled ⟨"status", "status", .s⟩ (by simp [tagStatusGsi, GsiSpec.cols])

/-- Nothing, or the row with its columns filled. -/
def Refilled (cols : List DualWriteCol) (row row' : PgRow) : Prop :=
  row' = row ∨ row'.data = row.data ∧ Filled cols row' ∧
    ∀ col, col ∉ cols.map DualWriteCol.col → row'.cols col = row.cols col

theorem Refilled.fill {cols : List DualWriteCol} {row row' : PgRow} {m : String → Option PgValue}
    (h : Refilled cols row row') (hnodup : (cols.map DualWriteCol.col).Nodup)
    (hfill : fillCols cols row'.data row'.cols = .ok m) :
    Refilled cols row { row' with cols := m } := by
  have hother := fun col (hcol : col ∉ cols.map DualWriteCol.col) => fillCols_of_not_mem hfill hcol
  have hfilled : Filled cols { row' with cols := m } := fillCols_extract hnodup hfill
  rcases h with rfl | ⟨hdata, _, hrest⟩
  · exact .inr ⟨rfl, hfilled, hother⟩
  · exact .inr ⟨hdata, hfilled, fun col hcol => (hother col hcol).trans (hrest col hcol)⟩

/-- However its chunks fall and wherever it is interrupted, a backfill adds and deletes no row,
changes no item and no column but its own, and leaves in these what they held or what the item
says. -/
theorem backfill_refills_only {env : BackfillEnv} (hrun : Run (BackfillStep env) s trace t)
    (k : PgKey) : Option.Rel (Refilled env.cols) (s.table.rows k) (t.table.rows k) := by
  refine hrun.preserved
    (fun t => ∀ k, Option.Rel (Refilled env.cols) (s.table.rows k) (t.table.rows k)) ?_ ?_ k
  · intro t₁ e t₂ hstep hrel k
    cases hstep with
    | start | crash => exact hrel k
    | @chunk _ returned _ _ _ _ hchunk _ _ =>
      cases hchunk with
      | noCols _ => exact hrel k
      | update _ _ hassign hlimit hfill =>
        obtain ⟨hother, hself⟩ := fillRows_spec hlimit.nodup hfill
        have hk := hrel k
        by_cases hmem : k ∈ returned
        · obtain ⟨row, hrow, _⟩ := hlimit.admitted k hmem
          obtain ⟨m, hm, hrow'⟩ := hself k hmem row hrow
          rw [hrow] at hk
          rw [hrow']
          generalize s.table.rows k = before at hk ⊢
          cases hk with
          | some hrefilled => exact .some (hrefilled.fill (checkAssignable_nodup hassign) hm)
        · rw [hother k hmem]
          exact hk
  · intro k
    cases s.table.rows k with
    | none => exact .none
    | some row => exact .some (.inl rfl)

theorem backfill_refills_only_sample : Option.Rel (Refilled tagStatusGsi.cols)
    ((orderTable fun _ => none).rows orderKey) ((orderTable tagStatusCols).rows orderKey) :=
  backfill_refills_only (orderTable_chunk tagStatusGsi (fun _ => none) tagStatusCols rfl rfl rfl) _

end Rektifier
