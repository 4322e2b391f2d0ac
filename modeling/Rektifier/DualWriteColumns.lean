import Rektifier.UpdateTable

namespace Rektifier

open List

variable {acc : List String × List DualWriteCol} {e : TableEntry} {col : String}

def TableEntry.Uses (e : TableEntry) (mode : GsiMode) (col : String) : Prop :=
  ∃ name g, e.gsis.get name = some g ∧ g.mode = mode ∧ col ∈ g.columns

theorem pushUnseen_mem {cols : List DualWriteCol}
    {c : DualWriteCol} (h : c ∈ (cols.foldl TableSchema.pushUnseen acc).2) :
    c ∈ acc.2 ∨ c ∈ cols ∧ c.col ∉ acc.1 := by
  induction cols generalizing acc with
  | nil => exact .inl h
  | cons c' cols ih =>
    rw [foldl_cons] at h
    rcases ih h with hacc | ⟨hmem, hnot⟩
    · unfold TableSchema.pushUnseen at hacc
      split at hacc
      · exact .inl hacc
      · rename_i hnew
        rcases mem_append.mp hacc with hacc | hself
        · exact .inl hacc
        · rw [mem_singleton] at hself
          subst hself
          exact .inr ⟨mem_cons_self, hnew⟩
    · refine .inr ⟨mem_cons_of_mem _ hmem, ?_⟩
      unfold TableSchema.pushUnseen at hnot
      split at hnot
      · exact hnot
      · exact fun hin => hnot (mem_cons_of_mem _ hin)

theorem pushUnseen_nodup {cols : List DualWriteCol}
    (hnodup : (acc.2.map DualWriteCol.col).Nodup) (hseen : ∀ c ∈ acc.2, c.col ∈ acc.1) :
    ((cols.foldl TableSchema.pushUnseen acc).2.map DualWriteCol.col).Nodup := by
  induction cols generalizing acc with
  | nil => exact hnodup
  | cons c cols ih =>
    rw [foldl_cons]
    unfold TableSchema.pushUnseen
    split
    · exact ih hnodup hseen
    · rename_i hnew
      refine ih ?_ ?_
      · rw [map_append, map_singleton, nodup_append_comm, singleton_append,
          nodup_cons]
        refine ⟨fun hmem => hnew ?_, hnodup⟩
        obtain ⟨c', hc', heq⟩ := mem_map.mp hmem
        exact heq ▸ hseen c' hc'
      · intro c' hc'
        rcases mem_append.mp hc' with hc' | hc'
        · exact mem_cons_of_mem _ (hseen c' hc')
        · rw [mem_singleton.mp hc']
          exact mem_cons_self

theorem dualWriteCols_nodup (schema : TableSchema) :
    (schema.dualWriteCols.map DualWriteCol.col).Nodup := by
  have hperm := perm_insertionSort (fun a b : DualWriteCol => a.col ≤ b.col)
    (((schema.gsis.filter GsiSchema.isDualWrite).flatMap GsiSchema.dualWriteCols).foldl
      TableSchema.pushUnseen (schema.reservedCols, [])).2
  rw [TableSchema.dualWriteCols, (hperm.map DualWriteCol.col).nodup_iff]
  exact pushUnseen_nodup nodup_nil (by simp)

/-- A column the write path fills is of a DualWrite GSI, and nothing PostgreSQL computes. -/
theorem dualWriteCols_mem {c : DualWriteCol} (h : c ∈ e.toSchema.dualWriteCols) :
    e.Uses .dualWrite c.col ∧ c.col ∉ e.fixedCols ∧ ¬ e.Uses .generated c.col := by
  have hmem := (mem_insertionSort _).mp h
  rcases pushUnseen_mem hmem with hnil | ⟨hc, hnot⟩
  · cases hnil
  obtain ⟨schema, hschema, hcol⟩ := mem_flatMap.mp hc
  obtain ⟨hschema, hdual⟩ := mem_filter.mp hschema
  obtain ⟨⟨name, g⟩, hg, rfl⟩ := mem_map.mp hschema
  refine ⟨⟨name, g, OrderedMap.get_of_mem hg, by simpa [GsiSpec.toSchema] using hdual, ?_⟩, ?_, ?_⟩
  · exact mem_map_of_mem hcol
  · intro hfixed
    apply hnot
    rw [TableSchema.reservedCols]
    exact mem_append_left _ hfixed
  · rintro ⟨name', g', hget, hmode, hcol'⟩
    apply hnot
    rw [TableSchema.reservedCols]
    refine mem_append_right _ (mem_flatMap.mpr ⟨g'.toSchema, ?_, hcol'⟩)
    refine mem_filter.mpr ⟨mem_map.mpr ⟨(name', g'), Entries.get_eq_some_mem hget, rfl⟩, ?_⟩
    simp [GsiSpec.toSchema, hmode]

end Rektifier
