import Rektifier.LifecycleColumns

namespace Rektifier

variable {bk : BaseKey} {names : PgNames} {hex8 : String → String}
  {message : OrchestratorError → String} {order : ScanOrder} {w w' : GsiWorld bk} {id : String}
  {row : GsiState} {relations : Relations} {cols : List String} {g : GsiSpec}

theorem utf8Len_takeBytes_le (n : Nat) (l : List Char) : String.utf8Len (takeBytes n l) ≤ n := by
  induction l generalizing n with
  | nil => exact Nat.zero_le n
  | cons c l ih =>
    rw [takeBytes]
    split
    · rename_i hfits
      have hrest := ih (n - c.utf8Size)
      rw [String.utf8Len_cons]
      omega
    · exact Nat.zero_le n

theorem truncateIdent_size (name : String) : (truncateIdent name).utf8ByteSize ≤ pgIdentMax := by
  unfold truncateIdent
  split
  next h => exact h
  next =>
    rw [String.utf8ByteSize_ofList]
    exact utf8Len_takeBytes_le _ _

theorem truncateIdent_ne {name : String} (h : ¬ name.utf8ByteSize ≤ pgIdentMax) :
    truncateIdent name ≠ name := by
  intro heq
  have hsize := truncateIdent_size name
  rw [heq] at hsize
  exact h hsize

def ShortNames (relations : Relations) : Prop :=
  ∀ name, relations name ≠ none → name.utf8ByteSize ≤ pgIdentMax

/-- Under the index's name there is the relation that was there, the new index, or nothing where the
name was cut off. -/
theorem createIndexIfNotExists_apply (names : PgNames) (st : GsiState)
    (hshort : ShortNames w.relations) (hcols : ∀ col ∈ cols, w.state.columns col ≠ none)
    (hfit : IndexRowsFit order cols w.table) :
    ∃ relations', createIndexIfNotExists names order w st cols = .ok relations' ∧
      relations' st.indexName = if st.indexName.utf8ByteSize ≤ pgIdentMax then
        (w.relations st.indexName).or
          (some (.index st.pgTable (indexDefText names st.pgTable st.indexName cols) true))
        else none := by
  have hfind : (cols.find? fun col => (w.state.columns col).isNone) = none := by
    rw [List.find?_eq_none]
    intro col hcol
    simpa [Option.isNone_iff_eq_none] using hcols col hcol
  unfold createIndexIfNotExists
  by_cases hsize : st.indexName.utf8ByteSize ≤ pgIdentMax
  · have hsame : truncateIdent st.indexName = st.indexName := if_pos hsize
    rw [hsame, if_pos hsize]
    rcases hrel : w.relations st.indexName with _ | rel
    · simp only [hrel, hfind, if_pos hfit.all]
      exact ⟨_, rfl, Function.update_self _ _ _⟩
    · exact ⟨w.relations, by simp [hrel], by simp [hrel]⟩
  · have hnone : w.relations st.indexName = none := by
      by_contra hsome
      exact hsize (hshort st.indexName hsome)
    rw [if_neg hsize]
    rcases hrel : w.relations (truncateIdent st.indexName) with _ | rel
    · simp only [hrel, hfind, if_pos hfit.all]
      refine ⟨_, rfl, ?_⟩
      rw [Function.update_of_ne (truncateIdent_ne hsize).symm, hnone]
    · exact ⟨w.relations, by simp [hrel], hnone⟩

theorem parseIndexCols_json (h : row.columnSpecs = columnSpecsJson g) :
    parseIndexCols row = .ok g.columns := by
  rw [parseIndexCols, h]
  show (g.cols.map columnSpecJson).mapM _ = Except.ok (g.cols.map DualWriteCol.col)
  induction g.cols with
  | nil => rfl
  | cons c l ih =>
    rw [List.map_cons, List.mapM_cons, ih]
    rfl

/-- The row of the index, whatever its phase and cursor. -/
structure GsiState.Describes (row : GsiState) (pgTable : String) (g : GsiSpec) : Prop where
  gsiName : row.gsiName = g.name
  pgTable : row.pgTable = pgTable
  columnSpecs : row.columnSpecs = columnSpecsJson g
  indexName : row.indexName = g.indexName

theorem createDualWriteGsiInTx_row {table pgTable : String} {t : StateTable}
    (hold : ∀ row, t (gsiId table g.name) = some row → row.Describes pgTable g) :
    ∃ row, createDualWriteGsiInTx table pgTable t g (gsiId table g.name) = some row ∧
      row.phase = .backfilling ∧ row.Describes pgTable g := by
  simp only [createDualWriteGsiInTx, StateTable.updatePhase_self, StateTable.insertStateRow_apply]
  rcases hrow : t (gsiId table g.name) with _ | row
  · refine ⟨{ declaredRow table pgTable g with phase := .backfilling, error := none }, ?_, rfl, ?_⟩
    · simp [declaredRow]
    · exact ⟨rfl, rfl, rfl, rfl⟩
  · obtain ⟨hname, htable, hspecs, hindex⟩ := hold row hrow
    exact ⟨{ row with phase := .backfilling, error := none }, by simp, rfl,
      ⟨hname, htable, hspecs, hindex⟩⟩

def Relation.isValidIndex : Relation → Bool
  | .index _ _ valid => valid
  | .other => false

/-- Phase Indexing, set unless the row has it, is not the last one. -/
theorem indexingStates_updatePhase (t : StateTable) (row : GsiState) (id : String)
    (phase : GsiPhase) (error : Option String) :
    (if row.phase = .indexing then t else t.updatePhase id .indexing none).updatePhase id phase
      error = t.updatePhase id phase error := by
  split
  next => rfl
  next => exact t.updatePhase_updatePhase ..

section

variable {relations' : Relations} (hrow : w.states id = some row)
  (hphase : row.phase = .backfilling ∨ row.phase = .indexing)
  (hparse : parseIndexCols row = .ok cols)
  (hcreate : createIndexIfNotExists names order w row cols = .ok relations')

include hrow hphase hparse hcreate

/-- After CREATE INDEX a valid index makes the GSI active. -/
theorem runIndexCreation_active {rel : Relation} (hrel : relations' row.indexName = some rel)
    (hvalid : rel.isValidIndex) :
    runIndexCreation names message order w id = { w with
      state := setServeable w.state row.gsiName true none
      relations := relations'
      states := w.states.updatePhase id .active none } := by
  have hphases : ¬ (row.phase ≠ .backfilling ∧ row.phase ≠ .indexing) :=
    fun h => hphase.elim h.1 h.2
  have hlast := indexingStates_updatePhase w.states row id .active none
  rcases rel with ⟨t, d, valid⟩ | _
  · cases hvalid
    simp only [runIndexCreation, hrow, if_neg hphases, hparse, hcreate, hrel, hlast]
  · cases hvalid

theorem runIndexCreation_failed
    (hrel : ∀ rel, relations' row.indexName = some rel → rel.isValidIndex = false) :
    ((runIndexCreation names message order w id).states id).map GsiState.phase = some .failed := by
  have hphases : ¬ (row.phase ≠ .backfilling ∧ row.phase ≠ .indexing) :=
    fun h => hphase.elim h.1 h.2
  have hlast := fun msg => indexingStates_updatePhase w.states row id .failed (some msg)
  rcases hlook : relations' row.indexName with _ | ⟨t, d, valid⟩ | _
  · simp only [runIndexCreation, hrow, if_neg hphases, hparse, hcreate, hlook, hlast,
      StateTable.updatePhase_self, Option.map_some]
  · have hinvalid : valid = false := hrel _ hlook
    subst hinvalid
    simp only [runIndexCreation, hrow, if_neg hphases, hparse, hcreate, hlook, hlast,
      StateTable.updatePhase_self, Option.map_some]
  · simp only [runIndexCreation, hrow, if_neg hphases, hparse, hcreate, hlook, hlast,
      StateTable.updatePhase_self, Option.map_some]

end

end Rektifier
