import Rektifier.LifecycleSpec

namespace Rektifier

open List Function

variable {names : PgNames} {columns columns' : Columns} {cols : List DualWriteCol}
  {c : DualWriteCol}

/-- Names that identifiers without quotes stand for. -/
def PlainColumns (names : PgNames) (columns : Columns) : Prop :=
  ∀ col, columns col ≠ none → names.unquoted col = some col

/-- The name stands for itself, and there is no such column or a regular one of the key's type. -/
def ColumnFits (names : PgNames) (columns : Columns) (c : DualWriteCol) : Prop :=
  names.unquoted c.col = some c.col ∧
    (columns c.col = none ∨ columns c.col = some ⟨c.keyType.columnType, false⟩)

theorem addColumn_plain (h : addColumn names columns c = some columns')
    (hplain : PlainColumns names columns) : PlainColumns names columns' := by
  obtain ⟨name, hname, h⟩ := Option.bind_eq_some_iff.mp h
  split at h
  · cases h
    exact hplain
  · cases h
    intro col hcol
    by_cases heq : col = name
    · subst heq
      exact names.folded _ _ hname
    · rw [update_of_ne heq] at hcol
      exact hplain col hcol

theorem addAll_plain (h : cols.foldlM (addColumn names) columns = some columns')
    (hplain : PlainColumns names columns) : PlainColumns names columns' :=
  Fallible.foldlM_preserves (PlainColumns names)
    (fun _ _ _ hstep hbefore => addColumn_plain hstep hbefore) h hplain

theorem addColumn_of_fits (hfits : ColumnFits names columns c) : ∃ columns₁,
    addColumn names columns c = some columns₁ ∧
    columns₁ c.col = some ⟨c.keyType.columnType, false⟩ ∧
    ∀ col, col ≠ c.col → columns₁ col = columns col := by
  obtain ⟨hname, habsent | hregular⟩ := hfits
  · refine ⟨_, by simp only [addColumn, hname, habsent, bind, Option.bind]; rfl, ?_, ?_⟩
    · exact update_self _ _ _
    · exact fun col hne => update_of_ne hne _ _
  · refine ⟨columns, by simp only [addColumn, hname, hregular, bind, Option.bind]; rfl, hregular, ?_⟩
    exact fun _ _ => rfl

theorem addAll_of_fits (hnodup : (cols.map DualWriteCol.col).Nodup)
    (hfits : ∀ c ∈ cols, ColumnFits names columns c) : ∃ columns',
    cols.foldlM (addColumn names) columns = some columns' ∧
    ∀ c ∈ cols, columns' c.col = some ⟨c.keyType.columnType, false⟩ := by
  induction cols generalizing columns with
  | nil => exact ⟨columns, rfl, by simp⟩
  | cons c cols ih =>
    obtain ⟨columns₁, hfirst, hself, hother⟩ := addColumn_of_fits (hfits c mem_cons_self)
    rw [map_cons, nodup_cons] at hnodup
    have hfits₁ : ∀ c' ∈ cols, ColumnFits names columns₁ c' := by
      intro c' hc'
      have hne : c'.col ≠ c.col := fun heq => hnodup.1 (heq ▸ mem_map_of_mem hc')
      have hfit := hfits c' (mem_cons_of_mem _ hc')
      rwa [ColumnFits, hother _ hne]
    obtain ⟨columns', hrest, hcols⟩ := ih hnodup.2 hfits₁
    refine ⟨columns', ?_, forall_mem_cons.mpr ⟨addAll_keeps hrest hself, hcols⟩⟩
    rw [foldlM_cons, hfirst]
    exact hrest

/-- ADD COLUMN leaves regular columns of the key types exactly where the columns fit. -/
theorem addAll_regular_iff (hplain : PlainColumns names columns)
    (hnodup : (cols.map DualWriteCol.col).Nodup) :
    (∃ columns', cols.foldlM (addColumn names) columns = some columns' ∧
      ∀ c ∈ cols, columns' c.col = some ⟨c.keyType.columnType, false⟩) ↔
    ∀ c ∈ cols, ColumnFits names columns c := by
  refine ⟨?_, addAll_of_fits hnodup⟩
  rintro ⟨columns', hadd, hcols⟩ c hc
  have hafter := hcols c hc
  refine ⟨addAll_plain hadd hplain c.col (by simp [hafter]), ?_⟩
  rcases hbefore : columns c.col with _ | info
  · exact .inl rfl
  · right
    rw [← hafter, addAll_keeps hadd hbefore]

theorem checkKeyColumn_addAll (hadd : cols.foldlM (addColumn names) columns = some columns')
    (col : String) (keyType : KeyType) :
    checkKeyColumn (Columns.view columns') col keyType = none ↔
      checkKeyColumn (Columns.view columns) col keyType = none := by
  rw [checkKeyColumn, checkKeyColumn, checkColumnWithMode_view, checkColumnWithMode_view]
  refine ⟨fun hafter => ?_, addAll_keeps hadd⟩
  refine Fallible.foldlM_reflects
    (fun columns : Columns => columns col = some ⟨keyType.columnType, true⟩) ?_ hadd hafter
  exact fun _ _ _ hstep hcol => addColumn_generated hstep hcol rfl

theorem baseReason_addAll {e e' : TableEntry} {primaryKey : List String}
    (hpk : e'.pkAttr = e.pkAttr) (hpkType : e'.pkType = e.pkType) (hsk : e'.sk = e.sk)
    (hdata : columns "data" ≠ none) (hadd : cols.foldlM (addColumn names) columns = some columns') :
    baseReason e' columns' primaryKey = none ↔ baseReason e columns primaryKey = none := by
  obtain ⟨info, hinfo⟩ := Option.ne_none_iff_exists'.mp hdata
  have hjsonb : checkJsonbColumn (Columns.view columns') "data"
      = checkJsonbColumn (Columns.view columns) "data" := by
    rw [checkJsonbColumn, checkJsonbColumn, Columns.view, Columns.view, hinfo,
      addAll_keeps hadd hinfo]
  unfold baseReason checkBase
  rw [hpk, hpkType, hsk, hjsonb]
  simp only [Option.or_eq_none_iff, Option.bind_eq_none_iff, checkKeyColumn_addAll hadd]

end Rektifier
