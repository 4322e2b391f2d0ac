import Rektifier.BackfillCorrect

namespace Rektifier

open List

variable {row : PgRow} {k : PgKey} {bk : BaseKey} {g : GsiSpec} {generated : List String}
  {chunkSize : Int} {s t : BackfillState bk} {trace : List (BackfillState bk × BackfillEvent)}

theorem GsiSpec.cols_ne_nil (g : GsiSpec) : g.cols ≠ [] := cons_ne_nil _ _

theorem nullFilter_cols (g : GsiSpec) (row : PgRow) :
    nullFilter g.cols row ↔ row.cols g.partitionPgCol = none := by
  simp [nullFilter, GsiSpec.cols]

theorem not_filled_of_carries {cols : List DualWriteCol} (hne : cols ≠ [])
    (hcarry : Carries cols row.data) (hnull : ∀ c ∈ cols, row.cols c.col = none) :
    ¬ Filled cols row := by
  intro hfilled
  obtain ⟨c, hc⟩ := exists_mem_of_ne_nil cols hne
  obtain ⟨text, htext⟩ := Option.isSome_iff_exists.mp (hcarry c hc)
  have heq := hfilled c hc
  rw [hnull c hc, extractCol, htext] at heq
  obtain ⟨v, _, hv⟩ := Fallible.map_ok_iff.mp heq
  cases hv

/-- A backfill of empty columns fills every row that carries the indexed attributes exactly when
chunks are not of size zero, the cursor starts before all such rows, and no chunk moves it past one.
The last part holds where keys are in the order of their texts, as they are without a number in the
base key. -/
theorem fresh_backfill_fills_iff
    (hrun : Run (BackfillStep ⟨generated, g.cols, chunkSize⟩) s trace t)
    (hstart : s.worker = none)
    (hnull : ∀ k row, s.table.rows k = some row → ∀ c ∈ g.cols, row.cols c.col = none)
    (hend : t.Finished ⟨generated, g.cols, chunkSize⟩) :
    ((∀ k row, t.table.rows k = some row → Carries g.cols row.data → Filled g.cols row) ↔
      (0 < chunkSize ∨ ∀ k row, s.table.rows k = some row → ¬ Carries g.cols row.data) ∧
      (∀ k row, s.table.rows k = some row → Carries g.cols row.data →
        resumePred bk (seedCursor bk s.lastPkCopied) row.data = true) ∧
      ∀ e ∈ trace, LeavesNoneBehind
        (fun row => Carries g.cols row.data ∧ ¬ Filled g.cols row) e.1 e.2) ∧
    (s.table.TextOrdered →
      ((∀ k row, t.table.rows k = some row → Carries g.cols row.data → Filled g.cols row) ↔
        (0 < chunkSize ∨ ∀ k row, s.table.rows k = some row → ¬ Carries g.cols row.data) ∧
        ∀ k row, s.table.rows k = some row → Carries g.cols row.data →
          resumePred bk (seedCursor bk s.lastPkCopied) row.data = true)) ∧
    (bk.NumberFree → s.table.TextOrdered) := by
  have howes : ∀ row, Carries g.cols row.data ∧ ¬ Filled g.cols row → ¬ Filled g.cols row :=
    fun _ h => h.2
  have hdone := backfill_done_iff _ howes g.cols_ne_nil hrun hstart hend
  have howed : ∀ k row, s.table.rows k = some row → Carries g.cols row.data →
      ¬ Filled g.cols row :=
    fun k row hrow hcarry => not_filled_of_carries g.cols_ne_nil hcarry (hnull k row hrow)
  have hpending : ∀ k row, s.table.rows k = some row → nullFilter g.cols row = true :=
    fun k row hrow => (nullFilter_cols g row).mpr (hnull k row hrow _ mem_cons_self)
  have hahead : (∀ k row, s.table.rows k = some row → Carries g.cols row.data ∧ ¬ Filled g.cols row →
      nullFilter g.cols row = true ∧
        resumePred bk (seedCursor bk s.lastPkCopied) row.data = true) ↔
      ∀ k row, s.table.rows k = some row → Carries g.cols row.data →
        resumePred bk (seedCursor bk s.lastPkCopied) row.data = true := by
    refine forall₃_congr fun k row hrow => ?_
    rw [and_iff_left_of_imp (howed k row hrow), and_iff_right (hpending k row hrow)]
  have hnone : (∀ k row, s.table.rows k = some row →
      ¬ (Carries g.cols row.data ∧ ¬ Filled g.cols row)) ↔
      ∀ k row, s.table.rows k = some row → ¬ Carries g.cols row.data := by
    refine forall₃_congr fun k row hrow => ?_
    rw [and_iff_left_of_imp (howed k row hrow)]
  rw [hahead, hnone] at hdone
  simp only [not_and, not_not] at hdone
  refine ⟨hdone, fun hordered => ?_, fun hfree => hfree.textOrdered s.table⟩
  rw [hdone]
  refine and_congr_right fun _ => and_iff_left_of_imp fun hcursor => ?_
  exact backfill_leavesNoneBehind howes hrun hstart hordered (hahead.mpr hcursor)

theorem castNumeric_of_int {text : String} {n : Int}
    (h : Numeric.parse text = some (.finite ⟨n, 0⟩)) : castNumeric text = .ok
    (Numeric.ofRat n) := by
  simp [castNumeric, h, Decimal.value, Numeric.value]

theorem generatedKey_of_int {col text : String} {n : Int} {data : Json} {rules : RowRules}
    (hdata : extractText data col "N" = some text)
    (h : Numeric.parse text = some (.finite ⟨n, 0⟩)) :
    generatedKey ⟨col, .n, none, rules⟩ data = .ok (.numeric (Numeric.ofRat n), none) := by
  have hcol : extractCol col .n data = .ok (some (.numeric (Numeric.ofRat n))) := by
    simp only [extractCol, KeyType.tag, hdata, castKey, castNumeric_of_int h]
    rfl
  simp only [generatedKey, generatedNotNull, hcol]
  rfl

theorem numberKey_ne : numberKey 10 ≠ numberKey 2 := by
  simp [numberKey, Numeric.ofRat_inj]

def tagGsi : GsiSpec :=
  ⟨"by-tag", "tag", .s, "tag", none, "orders_by_tag", .dualWrite, false, none⟩

def numberedRow (id : String) : PgRow :=
  ⟨Item.toValue (OrderedMap.ofList [("id", .n id), ("tag", .s "x")]), fun _ => none⟩

def numberedTable : PgTable ⟨"id", .n, none, .plain⟩ :=
  .ofRows [(numberKey 2, numberedRow "2"), (numberKey 10, numberedRow "10")] (by
    intro e he
    rcases mem_pair.mp he with rfl | rfl
    · exact generatedKey_of_int (n := 2) rfl (by decide)
    · exact generatedKey_of_int (n := 10) rfl (by decide))

theorem numberedTable_rows (h : numberedTable.rows k = some row) :
    (k = numberKey 2 ∧ row = numberedRow "2") ∨
      (k = numberKey 10 ∧ row = numberedRow "10") := by
  have hmem := PgTable.mem_of_ofRows h
  simpa using hmem

theorem numberedTable_two : numberedTable.rows (numberKey 2) = some (numberedRow "2") := by
  simp [numberedTable, PgTable.ofRows]

theorem numberedTable_ten : numberedTable.rows (numberKey 10) = some (numberedRow "10") := by
  simp [numberedTable, PgTable.ofRows, numberKey_ne.symm]

def taggedCols : String → Option PgValue := Function.update (fun _ => none) "tag" (some (.text "x"))

/-- The cursor is at order 2: order 10 is behind it. -/
def numberedEnd : BackfillState ⟨"id", .n, none, .plain⟩ :=
  ⟨numberedTable.setCols (numberKey 2) taggedCols, some (.str "2"), some (.simple (some "2"))⟩

theorem numberedEnd_finished : numberedEnd.Finished ⟨[], tagGsi.cols, 1⟩ := by
  refine ⟨_, rfl, .update tagGsi.cols_ne_nil (by decide) rfl ?_ rfl⟩
  refine ⟨nodup_nil, by simp, by simp, by simp, ?_⟩
  rintro - k ⟨row, hrow, hnull, hresume⟩
  exfalso
  by_cases hk : k = numberKey 2
  · subst hk
    have hself := numberedTable.setCols_self (numberKey 2) taggedCols
    rw [numberedTable_two] at hself
    cases hself.symm.trans hrow
    rw [nullFilter_cols] at hnull
    cases hnull
  · have hother := numberedTable.setCols_of_ne hk taggedCols
    rcases numberedTable_rows (hother.symm.trans hrow) with ⟨rfl, _⟩ | ⟨_, rfl⟩
    · exact hk rfl
    · revert hresume
      decide

/-- Orders 2 and 10 in chunks of one: `'10' > '2'` is false as text. -/
theorem backfill_skips_number_key :
    let env : BackfillEnv := ⟨[], tagGsi.cols, 1⟩
    let first : BackfillState ⟨"id", .n, none, .plain⟩ := ⟨numberedTable, none, none⟩
    let started : BackfillState ⟨"id", .n, none, .plain⟩ := ⟨numberedTable, none, some (.simple none)⟩
    Run (BackfillStep env) first
        [(first, .start), (started, .chunk [numberKey 2])] numberedEnd ∧
      numberedEnd.Finished env ∧
      numberedEnd.table.rows (numberKey 10) = some (numberedRow "10") ∧
      Carries tagGsi.cols (numberedRow "10").data ∧ ¬ Filled tagGsi.cols (numberedRow "10") := by
  intro env first started
  have hlimit : Limited PgKey.Le env.chunkSize.toNat (fun k => ∃ row, started.table.rows k = some row ∧
      nullFilter env.cols row = true ∧ resumePred ⟨"id", .n, none, .plain⟩ (.simple none) row.data = true)
      [numberKey 2] := by
    refine ⟨nodup_singleton _, ?_, le_rfl, ?_, fun h => absurd h (lt_irrefl 1)⟩
    · intro k hk
      rw [mem_singleton] at hk
      subst hk
      exact ⟨_, numberedTable_two, rfl, rfl⟩
    · rintro k hk k' ⟨row, hrow, _⟩ hout
      rw [mem_singleton] at hk hout
      rcases numberedTable_rows hrow with ⟨rfl, _⟩ | ⟨rfl, _⟩
      · exact absurd rfl hout
      · subst hk
        left
        constructor
        · show Numeric.ofRat (2 : Int) ≤ Numeric.ofRat (10 : Int)
          rw [Numeric.ofRat_le]
          norm_num
        · intro heq
          exact hout (Prod.ext heq.symm rfl)
  have hupdate : [numberKey 2].foldlM (fillRow env.cols) started.table
      = .ok numberedEnd.table := by
    rw [foldlM_cons, fillRow_eq numberedTable_two rfl]
    rfl
  have hchunk : BackfillStep env started (.chunk [numberKey 2]) numberedEnd :=
    .chunk rfl (.update tagGsi.cols_ne_nil (by decide) rfl hlimit hupdate) rfl numberedTable_two
  refine ⟨.cons .start (.cons hchunk (.nil _)), numberedEnd_finished, ?_, ?_, ?_⟩
  · exact (numberedTable.setCols_of_ne numberKey_ne taggedCols).trans numberedTable_ten
  · simp [Carries, tagGsi, GsiSpec.cols, numberedRow]
    rfl
  · intro h
    cases h _ mem_cons_self

def nameKey (id : String) : PgKey := (.text id, none)

def namedRow (id : String) : PgRow :=
  ⟨Item.toValue (OrderedMap.ofList [("id", .s id), ("tag", .s "x")]), fun _ => none⟩

def namedTable : PgTable ⟨"id", .s, none, .plain⟩ :=
  .ofRows [(nameKey "a", namedRow "a"), (nameKey "b", namedRow "b")] (by
    intro e he
    rcases mem_pair.mp he with rfl | rfl <;> rfl)

theorem namedTable_rows (h : namedTable.rows k = some row) :
    (k = nameKey "a" ∧ row = namedRow "a") ∨ (k = nameKey "b" ∧ row = namedRow "b") := by
  have hmem := PgTable.mem_of_ofRows h
  simpa using hmem

def namedHalf : PgTable ⟨"id", .s, none, .plain⟩ := namedTable.setCols (nameKey "a") taggedCols

theorem namedHalf_rows (h : namedHalf.rows k = some row) :
    (k = nameKey "a" ∧ row.cols = taggedCols) ∨ (k = nameKey "b" ∧ row = namedRow "b") := by
  by_cases hk : k = nameKey "a"
  · subst hk
    obtain ⟨_, _, rfl⟩ := Option.map_eq_some_iff.mp ((PgTable.setCols_self _ _ _).symm.trans h)
    exact .inl ⟨rfl, rfl⟩
  · rcases namedTable_rows ((PgTable.setCols_of_ne _ hk _).symm.trans h) with ⟨rfl, _⟩ | hb
    · exact absurd rfl hk
    · exact .inr hb

def namedHalfway (worker : Option ResumeCursor) : BackfillState ⟨"id", .s, none, .plain⟩ :=
  ⟨namedHalf, some (.str "a"), worker⟩

def namedDone : BackfillState ⟨"id", .s, none, .plain⟩ :=
  ⟨namedHalf.setCols (nameKey "b") taggedCols, some (.str "b"), some (.simple (some "b"))⟩

theorem namedDone_cols (h : namedDone.table.rows k = some row) :
    row.cols = taggedCols := by
  by_cases hk : k = nameKey "b"
  · subst hk
    obtain ⟨_, _, rfl⟩ := Option.map_eq_some_iff.mp ((PgTable.setCols_self _ _ _).symm.trans h)
    rfl
  · rcases namedHalf_rows ((PgTable.setCols_of_ne _ hk _).symm.trans h) with ⟨_, hcols⟩ | ⟨rfl, _⟩
    · exact hcols
    · exact absurd rfl hk

/-- Orders a and b in chunks of one, with a crash between. -/
theorem fresh_backfill_fills_sample : namedDone.Finished ⟨[], tagGsi.cols, 1⟩ ∧
    ∀ k row, namedDone.table.rows k = some row →
      Carries tagGsi.cols row.data → Filled tagGsi.cols row := by
  let env : BackfillEnv := ⟨[], tagGsi.cols, 1⟩
  let first : BackfillState ⟨"id", .s, none, .plain⟩ := ⟨namedTable, none, none⟩
  let started : BackfillState ⟨"id", .s, none, .plain⟩ := ⟨namedTable, none, some (.simple none)⟩
  have ha : namedTable.rows (nameKey "a") = some (namedRow "a") := rfl
  have hb : namedHalf.rows (nameKey "b") = some (namedRow "b") := rfl
  have hsize : 0 ≤ env.chunkSize := by decide
  have hchunk : RunChunk env namedTable (.simple none) [nameKey "a"] namedHalf := by
    refine .update tagGsi.cols_ne_nil hsize rfl ?_ ?_
    · refine ⟨nodup_singleton _, ?_, le_rfl, ?_, fun h => absurd h (lt_irrefl 1)⟩
      · intro k hk
        obtain rfl := mem_singleton.mp hk
        exact ⟨_, ha, rfl, rfl⟩
      · rintro k hk k' ⟨row, hrow, _⟩ hout
        obtain rfl := mem_singleton.mp hk
        rcases namedTable_rows hrow with ⟨rfl, _⟩ | ⟨rfl, _⟩
        · exact absurd mem_cons_self hout
        · exact .inl ⟨show "a" ≤ "b" by decide, by decide⟩
    · rw [foldlM_cons, fillRow_eq ha rfl]
      rfl
  have hchunk' : RunChunk env namedHalf (.simple (some "a")) [nameKey "b"] namedDone.table := by
    refine .update tagGsi.cols_ne_nil hsize rfl ?_ ?_
    · refine ⟨nodup_singleton _, ?_, le_rfl, ?_, fun h => absurd h (lt_irrefl 1)⟩
      · intro k hk
        obtain rfl := mem_singleton.mp hk
        exact ⟨_, hb, rfl, by decide⟩
      · rintro k hk k' ⟨row, hrow, hnull, _⟩ hout
        rcases namedHalf_rows hrow with ⟨_, hcols⟩ | ⟨rfl, _⟩
        · rw [nullFilter_cols, hcols] at hnull
          cases hnull
        · exact absurd mem_cons_self hout
    · rw [foldlM_cons, fillRow_eq hb rfl]
      rfl
  have hfirst : BackfillStep env started (.chunk [nameKey "a"])
      (namedHalfway (some (.simple (some "a")))) := by
    have hstep := BackfillStep.chunk (s := started) rfl hchunk rfl ha
    exact hstep
  have hsecond : BackfillStep env (namedHalfway (some (.simple (some "a")))) (.chunk [nameKey "b"])
      namedDone := by
    have hstep := BackfillStep.chunk (s := namedHalfway (some (.simple (some "a")))) rfl hchunk' rfl hb
    exact hstep
  have hrun : Run (BackfillStep env) first [(first, .start), (started, .chunk [nameKey "a"]),
      (namedHalfway (some (.simple (some "a"))), .crash), (namedHalfway none, .start),
      (namedHalfway (some (.simple (some "a"))), .chunk [nameKey "b"])] namedDone :=
    .cons .start (.cons hfirst (.cons .crash (.cons .start (.cons hsecond (.nil _)))))
  have hnull : ∀ k row, first.table.rows k = some row →
      ∀ c ∈ tagGsi.cols, row.cols c.col = none := by
    intro k row hrow c _
    rcases namedTable_rows hrow with ⟨_, rfl⟩ | ⟨_, rfl⟩ <;> rfl
  have hend : namedDone.Finished env := by
    refine ⟨_, rfl, .update tagGsi.cols_ne_nil (by decide) rfl ?_ rfl⟩
    refine ⟨nodup_nil, by simp, by simp, by simp, ?_⟩
    rintro - k ⟨row, hrow, hnull, _⟩
    rw [nullFilter_cols, namedDone_cols hrow] at hnull
    cases hnull
  have hfills := fresh_backfill_fills_iff hrun rfl hnull hend
  have hfree : BaseKey.NumberFree ⟨"id", .s, none, .plain⟩ := ⟨by decide, by simp⟩
  exact ⟨hend, (hfills.2.1 (hfills.2.2 hfree)).mpr ⟨.inl (by decide), fun _ _ _ _ => rfl⟩⟩

end Rektifier
