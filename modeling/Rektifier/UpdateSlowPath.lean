import Rektifier.UpdatePaths

namespace Rektifier

variable {req : UpdateItemRequest} {schema : TableSchema} {plan : UpdateItemPlan} {k : PgKey}
  {t : schema.Table} {existing : Option Item} {item' : Item}
  {apply : Option Json → Except BackendError UpdateDecision}

section

variable {shape : TableShape} {table : PgTable shape.baseKey} {pk : KeyValue} {sk : Option KeyValue}
  {newItem : Json}

theorem keyPredicate_addressed (hfit : KeyFits shape.baseKey pk sk) :
    (shape.keyPredicate 1).eval shape.baseKey (keyParams pk sk) = addressedKey pk sk := by
  have heval := keyPredicate_eval hfit [] []
  rw [List.nil_append, List.append_nil] at heval
  rw [keyPredicate_eq hfit]
  exact heval

theorem selectForUpdate_eq (hfit : KeyFits shape.baseKey pk sk) (table : PgTable shape.baseKey) :
    selectForUpdate shape table pk sk =
      (pgResult (addressedKey pk sk)).map fun k => (table.rows k).map PgRow.data := by
  rw [selectForUpdate, keyPredicate_addressed hfit]
  cases addressedKey pk sk <;> rfl

/-- It works if the item can be stored: with no other session the UPDATE finds the row that was
read, and the INSERT no row. -/
theorem writeLocked_cases (hfit : KeyFits shape.baseKey pk sk) (hk : addressedKey pk sk = .ok k)
    (hgen : generatedKey shape.baseKey newItem = .ok k) (table : PgTable shape.baseKey) :
    (storable shape.baseKey shape.dualWriteCols newItem ∧ ∃ table',
      writeLocked shape table pk sk ((table.rows k).map PgRow.data) newItem = .ok (some table') ∧
        WroteItem table table' k newItem) ∨
    (storable shape.baseKey shape.dualWriteCols newItem = false ∧ ∃ e,
      writeLocked shape table pk sk ((table.rows k).map PgRow.data) newItem
        = .error (.pgError e)) := by
  rcases hr : table.rows k with _ | row
  · have hinsert : (buildInsertOnlySql shape).insert.eval [.jsonb newItem] .null
        = .ok newItem := rfl
    rcases insertOnlySql_exec hinsert hgen table with
      ⟨hst, e, he⟩ | ⟨_, hne, _⟩ | ⟨hst, _, table', he, hwrote⟩
    · have hno : storable shape.baseKey shape.dualWriteCols newItem = false := by
        rcases hst with hst | ⟨_, hst⟩
        · exact Bool.and_eq_false_imp.mpr fun hyes => absurd (hyes.symm.trans hst) (by simp)
        · exact hst
      exact .inr ⟨hno, e, by simp [writeLocked, he, pgResult, Except.mapError, bind, Except.bind]⟩
    · exact absurd hr hne
    · exact .inl ⟨hst, table', by simp [writeLocked, he, pgResult, Except.mapError, bind,
        Except.bind, pure, Except.pure], hwrote⟩
  · have hkey : (rmwUpdateSql shape).key.eval shape.baseKey
        (.jsonb newItem :: keyParams pk sk) = .ok k := by
      have heval := keyPredicate_eval hfit [.jsonb newItem] []
      rw [List.append_nil, hk] at heval
      rw [rmwUpdateSql, keyPredicate_eq hfit]
      exact heval
    have hset : (rmwUpdateSql shape).set.eval (.jsonb newItem :: keyParams pk sk) row.data
        = .ok newItem := rfl
    rcases updateWhereSql_exec hkey hr hset hgen with ⟨hst, table', r, he, hwrote⟩ | ⟨hst, e, he⟩
    · exact .inl ⟨hst, table', by simp [writeLocked, he, pgResult, Except.mapError, bind,
        Except.bind, pure, Except.pure], hwrote⟩
    · exact .inr ⟨hst, e, by simp [writeLocked, he, pgResult, Except.mapError, bind, Except.bind]⟩

end

end Rektifier
