import Rektifier.UpdateSqlSpec

namespace Rektifier

open Function

variable {data : Json} {bk : BaseKey} {k : PgKey} {params : List Param}

/-- The row under `k` now holds the item, and no other row changed. -/
structure WroteItem {bk : BaseKey} (t t' : PgTable bk) (k : PgKey) (data : Json) : Prop where
  row : (t'.rows k).map PgRow.data = some data
  others : ∀ k', k' ≠ k → t'.rows k' = t.rows k'

/-- It is stored under its free key if its index rows fit. -/
theorem write_cases (t : PgTable bk) (old : Option PgKey) {row : PgRow}
    (hk : generatedCols bk row.data = .ok k)
    (hold : old = none ∧ t.rows k = none ∨ old = some k) :
    (bk.rules.indexRowsFit row.data ∧
      ∃ t', t.write old row = .ok t' ∧ WroteItem t t' k row.data) ∨
    (bk.rules.indexRowsFit row.data = false ∧ ∃ e, t.write old row = .error e) := by
  have hfree : t.without old k = none := by
    rcases hold with ⟨rfl, h⟩ | rfl
    · exact h
    · exact PgTable.without_self t k
  cases hfit : bk.rules.indexRowsFit row.data with
  | false =>
    rcases hw : t.write old row with e | t'
    · exact .inr ⟨rfl, e, rfl⟩
    · obtain ⟨_, _, hyes, _⟩ := PgTable.write_eq hw
      rw [hfit] at hyes
      cases hyes
  | true =>
    obtain ⟨t', hw, hrows⟩ := PgTable.write_ok hk hfree hfit
    refine .inl ⟨rfl, t', hw, ?_, ?_⟩
    · rw [hrows, update_self]
      rfl
    · intro k' hne
      rw [hrows, update_of_ne hne]
      rcases hold with ⟨rfl, _⟩ | rfl
      · rfl
      · exact update_of_ne hne _ _

/-- The columns are computed, or one of them is a cast error. -/
theorem newVersion_cases (cols : List DualWriteCol)
    (start : String → Option PgValue) (hk : generatedKey bk data = .ok k) :
    (fillable bk cols data ∧ ∃ row, newVersion cols data start = .ok row ∧
      row.data = data ∧ generatedCols bk data = .ok k) ∨
    (fillable bk cols data = false ∧ ((∃ e, newVersion cols data start = .error e) ∨
      ∃ row e, newVersion cols data start = .ok row ∧ row.data = data ∧
        generatedCols bk data = .error e)) := by
  have hiff := @newVersion_ok_iff cols data start
  rcases hrow : newVersion cols data start with e | row
  · refine .inr ⟨?_, .inl ⟨e, rfl⟩⟩
    rw [← Bool.not_eq_true, fillable_iff]
    rintro ⟨hcols, _⟩
    obtain ⟨row, hok⟩ := hiff.mpr hcols
    rw [hrow] at hok
    cases hok
  · have hcols := hiff.mp ⟨row, hrow⟩
    rcases hgen : generatedCols bk data with e | k'
    · refine .inr ⟨?_, .inr ⟨row, e, rfl, newVersion_data hrow, rfl⟩⟩
      rw [← Bool.not_eq_true, fillable_iff]
      rintro ⟨_, hgenerated⟩
      have hok := generatedCols_ok_iff.mpr ⟨hgenerated, hk⟩
      rw [hgen] at hok
      cases hok
    · obtain ⟨hgenerated, hk'⟩ := generatedCols_ok_iff.mp hgen
      obtain rfl : k' = k := Except.ok.inj (hk'.symm.trans hk)
      exact .inl ⟨fillable_iff.mpr ⟨hcols, hgenerated⟩, row, rfl, newVersion_data hrow, rfl⟩

/-- A refused row, a conflict, or a new row. -/
theorem insertOnlySql_exec {stmt : InsertOnlySql}
    (hinsert : stmt.insert.eval params .null = .ok data)
    (hk : generatedKey bk data = .ok k) (t : PgTable bk) :
    ((fillable bk stmt.cols data = false ∨ t.rows k = none ∧ storable bk stmt.cols data = false) ∧
      ∃ e, stmt.exec params t = .error e) ∨
    (fillable bk stmt.cols data ∧ t.rows k ≠ none ∧ stmt.exec params t = .ok none) ∨
    (storable bk stmt.cols data ∧ t.rows k = none ∧
      ∃ t', stmt.exec params t = .ok (some (t', data)) ∧ WroteItem t t' k data) := by
  rcases newVersion_cases stmt.cols nullCols hk with
    ⟨hs, row, hrow, rfl, hgen⟩ | ⟨hs, ⟨e, he⟩ | ⟨row, e, hrow, _, he⟩⟩
  · rcases hold : t.rows k with _ | old
    · rcases write_cases t none hgen (.inl ⟨rfl, hold⟩) with ⟨hfit, t', hw, hwrote⟩ | ⟨hfit, e, hw⟩
      · refine .inr (.inr ⟨by rw [storable, hs, hfit]; rfl, rfl, t', ?_, hwrote⟩)
        simp only [InsertOnlySql.exec, hinsert, hrow, hgen, bind, Except.bind, hold, hw]
        rfl
      · refine .inl ⟨.inr ⟨rfl, by rw [storable, hs, hfit]; rfl⟩, e, ?_⟩
        simp only [InsertOnlySql.exec, hinsert, hrow, hgen, bind, Except.bind, hold, hw]
    · refine .inr (.inl ⟨hs, by simp, ?_⟩)
      simp only [InsertOnlySql.exec, hinsert, hrow, hgen, bind, Except.bind, hold]
      rfl
  · refine .inl ⟨.inl hs, e, ?_⟩
    simp only [InsertOnlySql.exec, hinsert, he, bind, Except.bind]
  · refine .inl ⟨.inl hs, e, ?_⟩
    simp only [InsertOnlySql.exec, hinsert, hrow, he, bind, Except.bind]

theorem replaceData_cases (t : PgTable bk) (old : PgRow)
    (cols : List DualWriteCol) (hk : generatedKey bk data = .ok k) :
    (storable bk cols data ∧ ∃ t', t.replaceData k old cols data = .ok t' ∧
      WroteItem t t' k data) ∨
    (storable bk cols data = false ∧ ∃ e, t.replaceData k old cols data = .error e) := by
  rcases newVersion_cases cols old.cols hk with
    ⟨hs, row, hrow, rfl, hgen⟩ | ⟨hs, ⟨e, he⟩ | ⟨row, e, hrow, rfl, he⟩⟩
  · rcases write_cases t (some k) hgen (.inr rfl) with ⟨hfit, t', hw, hwrote⟩ | ⟨hfit, e, hw⟩
    · exact .inl ⟨by rw [storable, hs, hfit]; rfl, t',
        Fallible.bind_ok_iff.mpr ⟨row, hrow, hw⟩, hwrote⟩
    · refine .inr ⟨by rw [storable, hs, hfit]; rfl, e, ?_⟩
      simp only [PgTable.replaceData, hrow, bind, Except.bind, hw]
  · refine .inr ⟨by rw [storable, hs]; rfl, e, ?_⟩
    simp only [PgTable.replaceData, he, bind, Except.bind]
  · have hw : ∃ e, t.write (some k) row = .error e := by
      rcases hw : t.write (some k) row with e' | t'
      · exact ⟨e', rfl⟩
      · obtain ⟨_, hok, _⟩ := PgTable.write_eq hw
        rw [he] at hok
        cases hok
    obtain ⟨e', hw⟩ := hw
    refine .inr ⟨by rw [storable, hs]; rfl, e', ?_⟩
    simp only [PgTable.replaceData, hrow, bind, Except.bind, hw]

/-- Both branches write under the addressed key. -/
theorem upsertSql_exec {stmt : UpsertSql} {t : PgTable bk} {target : Json}
    (hprev : stmt.prev.eval bk params = .ok k)
    (hinsert : stmt.insert.eval params .null = .ok data) (hk : generatedKey bk data = .ok k)
    (hnew : t.rows k = none → target = data) (hupdate : ∀ row, t.rows k = some row →
      stmt.doUpdate.eval params row.data = .ok target ∧ generatedKey bk target = .ok k) :
    (fillable bk stmt.cols data ∧ storable bk stmt.cols target ∧
      ∃ t' r, stmt.exec params t = .ok (t', r) ∧ WroteItem t t' k target) ∨
    (¬ (fillable bk stmt.cols data ∧ storable bk stmt.cols target) ∧
      ∃ e, stmt.exec params t = .error e) := by
  rcases newVersion_cases stmt.cols nullCols hk with
    ⟨hs, row, hrow, rfl, hgen⟩ | ⟨hs, ⟨e, he⟩ | ⟨row, e, hrow, _, he⟩⟩
  · rcases hold : t.rows k with _ | old
    · rw [hnew hold]
      rcases write_cases t none hgen (.inl ⟨rfl, hold⟩) with ⟨hfit, t', hw, hwrote⟩ | ⟨hfit, e, hw⟩
      · refine .inl ⟨hs, by rw [storable, hs, hfit]; rfl, t',
          (row.data, (t.rows k).map PgRow.data), ?_, hwrote⟩
        simp only [UpsertSql.exec, hprev, hinsert, hrow, hgen, bind, Except.bind, hold, hw]
        rfl
      · refine .inr ⟨by simp [storable, hfit], e, ?_⟩
        simp only [UpsertSql.exec, hprev, hinsert, hrow, hgen, bind, Except.bind, hold, hw]
    · obtain ⟨heval, hkey⟩ := hupdate old hold
      rcases replaceData_cases t old stmt.cols hkey with ⟨hu, t', ht, hwrote⟩ | ⟨hu, e, he⟩
      · refine .inl ⟨hs, hu, t', (target, (t.rows k).map PgRow.data), ?_, hwrote⟩
        simp only [UpsertSql.exec, hprev, hinsert, hrow, hgen, bind, Except.bind, hold, heval, ht]
        rfl
      · refine .inr ⟨by simp [hu], e, ?_⟩
        simp only [UpsertSql.exec, hprev, hinsert, hrow, hgen, bind, Except.bind, hold, heval, he]
  · refine .inr ⟨by simp [hs], e, ?_⟩
    simp only [UpsertSql.exec, hprev, hinsert, he, bind, Except.bind]
  · refine .inr ⟨by simp [hs], e, ?_⟩
    simp only [UpsertSql.exec, hprev, hinsert, hrow, he, bind, Except.bind]

theorem updateWhereSql_exec_missing {stmt : UpdateWhereSql}
    {t : PgTable bk} (hkey : stmt.key.eval bk params = .ok k) (hrow : t.rows k = none) :
    stmt.exec params t = .ok none := by
  simp only [UpdateWhereSql.exec, hkey, bind, Except.bind, hrow]
  rfl

/-- A stored row, by what WHERE comes to on it. -/
theorem updateWhereSql_exec {stmt : UpdateWhereSql} {t : PgTable bk} {row : PgRow}
    (hkey : stmt.key.eval bk params = .ok k) (hrow : t.rows k = some row)
    (hset : stmt.set.eval params row.data = .ok data) (hk : generatedKey bk data = .ok k) :
    match (stmt.passes bk.rules.collate params row.data).toOption with
    | none => ∃ e, stmt.exec params t = .error e
    | some false => stmt.exec params t = .ok none
    | some true =>
      (storable bk stmt.cols data ∧ ∃ t' r, stmt.exec params t = .ok (some (t', r)) ∧
        WroteItem t t' k data) ∨
      (storable bk stmt.cols data = false ∧ ∃ e, stmt.exec params t = .error e) := by
  rcases hpass : stmt.passes bk.rules.collate params row.data with e | pass
  · refine ⟨e, ?_⟩
    simp only [UpdateWhereSql.exec, hkey, bind, Except.bind, hrow, hpass]
  · cases pass with
    | false =>
      show stmt.exec params t = .ok none
      simp only [UpdateWhereSql.exec, hkey, bind, Except.bind, hrow, hpass]
      rfl
    | true =>
      rcases replaceData_cases t row stmt.cols hk with ⟨hu, t', ht, hwrote⟩ | ⟨hu, e, he⟩
      · refine .inl ⟨hu, t', (data, row.data), ?_, hwrote⟩
        simp only [UpdateWhereSql.exec, hkey, bind, Except.bind, hrow, hpass, hset, ht, if_true]
        rfl
      · refine .inr ⟨hu, e, ?_⟩
        simp only [UpdateWhereSql.exec, hkey, bind, Except.bind, hrow, hpass, hset, he, if_true]

end Rektifier
