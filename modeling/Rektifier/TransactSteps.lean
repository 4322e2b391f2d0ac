import Rektifier.TransactSpec

namespace Rektifier

open Function

variable {apply : Option Json → Except BackendError UpdateDecision}

/-- The item under one key replaced, or an error. -/
def Leaves {bk : BaseKey} (t : PgTable bk) (k : PgKey) :
    Option (Option Json) → Except BackendError (PgTable bk) → Prop
  | some v, r => ∃ t', r = .ok t' ∧ t'.items = update t.items k v
  | none, r => ∃ e, r = .error e

theorem WroteItem.items {bk : BaseKey} {t t' : PgTable bk} {k : PgKey} {data : Json}
    (h : WroteItem t t' k data) : t'.items = update t.items k (some data) := by
  funext k'
  by_cases hk : k' = k
  · subst hk
    rw [update_self]
    exact h.row
  · rw [update_of_ne hk, PgTable.items, h.others k' hk]
    rfl

theorem items_deleteRow {bk : BaseKey} (t : PgTable bk) (k : PgKey) :
    (t.deleteRow k).items = update t.items k none := by
  funext k'
  have hrow : (t.deleteRow k).rows k' = update t.rows k none k' := rfl
  by_cases hk : k' = k
  · subst hk
    rw [update_self, PgTable.items, hrow, update_self]
    rfl
  · rw [update_of_ne hk, PgTable.items, hrow, update_of_ne hk]
    rfl

variable {shape : TableShape} {pk : KeyValue} {sk : Option KeyValue} {k : PgKey}
  {item : Json}

section

variable (hfit : KeyFits shape.baseKey pk sk) (t : PgTable shape.baseKey)

include hfit

theorem putSql_prev (item : Json) :
    (putSql shape).prev.eval shape.baseKey (keyParams pk sk ++ [.jsonb item])
      = addressedKey pk sk := by
  have heval := keyPredicate_eval hfit [] [.jsonb item]
  rw [List.nil_append] at heval
  rw [putSql, keyPredicate_eq hfit]
  exact heval

theorem execDelete_eq : execDelete shape t pk sk =
    (pgResult (addressedKey pk sk)).map fun k => (t.deleteRow k, t.items k) := by
  rw [execDelete, keyPredicate_addressed hfit]
  cases addressedKey pk sk <;> rfl

/-- No operation gets past a key that does not cast. -/
theorem run_refused {e : PgError} (he : addressedKey pk sk = .error e) (action : TransactAction) :
    ∃ err, action.run shape t pk sk = .error err := by
  have hselect : selectForUpdate shape t pk sk = .error (.pgError e) := by
    rw [selectForUpdate_eq hfit, he]
    rfl
  refine ⟨.pgError e, ?_⟩
  cases action with
  | put item cond =>
    have hexec : (putSql shape).exec (keyParams pk sk ++ [.jsonb item]) t = .error e := by
      rw [UpsertSql.exec, putSql_prev hfit item, he]
      rfl
    cases cond with
    | none =>
      simp only [TransactAction.run, putItemInsideTx, checkSkShape_ok hfit, hexec]
      rfl
    | some cond =>
      simp only [TransactAction.run, putWithConditionInsideTx, checkSkShape_ok hfit, hselect]
      rfl
  | delete cond =>
    cases cond with
    | none =>
      simp only [TransactAction.run, deleteItemInsideTx, checkSkShape_ok hfit,
        execDelete_eq hfit, he]
      rfl
    | some cond =>
      simp only [TransactAction.run, deleteWithConditionInsideTx, checkSkShape_ok hfit, hselect]
      rfl
  | conditionCheck cond =>
    simp only [TransactAction.run, conditionCheckInsideTx, checkSkShape_ok hfit, hselect]
    rfl
  | update apply =>
    simp only [TransactAction.run, updateGeneralRmwInsideTx, checkSkShape_ok hfit, hselect]
    rfl

variable (hk : addressedKey pk sk = .ok k)

include hk

theorem selectForUpdate_found : selectForUpdate shape t pk sk = .ok (t.items k) := by
  rw [selectForUpdate_eq hfit, hk]
  rfl

theorem execDelete_found : execDelete shape t pk sk = .ok (t.deleteRow k, t.items k) := by
  rw [execDelete_eq hfit, hk]
  rfl

theorem putItemInsideTx_leaves (hgen : generatedKey shape.baseKey item = .ok k) :
    Leaves t k (if storable shape.baseKey shape.dualWriteCols item then some (some item) else none)
      ((putItemInsideTx shape t pk sk item).map Prod.fst) := by
  have hparam : jsonbArg (keyParams pk sk ++ [.jsonb item]) shape.insertParamIdx = .ok item := by
    rw [insertParamIdx_eq hfit]
    exact jsonbArg_append _ [] item
  have hprev := (putSql_prev hfit item).trans hk
  have hexec := upsertSql_exec hprev hparam hgen (fun _ => rfl)
    (fun row (_ : t.rows k = some row) => ⟨hparam, hgen⟩)
  simp only [putItemInsideTx, checkSkShape_ok hfit]
  rcases hexec with ⟨_, hs, t', r, he, hwrote⟩ | ⟨hs, e, he⟩
  · have hs : storable shape.baseKey shape.dualWriteCols item := hs
    rw [if_pos hs, he]
    exact ⟨t', rfl, hwrote.items⟩
  · have hs : ¬ storable shape.baseKey shape.dualWriteCols item :=
      fun h => hs ⟨(Bool.and_eq_true_iff.mp h).1, h⟩
    rw [if_neg hs, he]
    exact ⟨_, rfl⟩

theorem putWithConditionInsideTx_leaves (hgen : generatedKey shape.baseKey item = .ok k)
    (condition : Option Json → Bool) :
    Leaves t k (if condition (t.items k) && storable shape.baseKey shape.dualWriteCols item
        then some (some item) else none)
      ((putWithConditionInsideTx shape t pk sk item condition).map Prod.fst) := by
  simp only [putWithConditionInsideTx, checkSkShape_ok hfit, selectForUpdate_found hfit t hk,
    checkHolds, bind, Except.bind]
  cases condition (t.items k) with
  | false => exact ⟨_, rfl⟩
  | true =>
    rcases writeLocked_cases hfit hk hgen t with ⟨hs, t', he, hwrote⟩ | ⟨hs, e, he⟩
    · rw [hs]
      simp only [if_true, PgTable.items, he]
      exact ⟨t', rfl, hwrote.items⟩
    · rw [hs]
      simp only [if_true, PgTable.items, he]
      exact ⟨_, rfl⟩

theorem deleteItemInsideTx_leaves :
    Leaves t k (some none) ((deleteItemInsideTx shape t pk sk).map Prod.fst) := by
  simp only [deleteItemInsideTx, checkSkShape_ok hfit, execDelete_found hfit t hk]
  exact ⟨_, rfl, items_deleteRow t k⟩

theorem deleteIfFound_leaves :
    Leaves t k (some none) (deleteIfFound shape t pk sk (t.items k)) := by
  unfold deleteIfFound
  rcases hitem : t.items k with _ | data
  · refine ⟨t, rfl, ?_⟩
    rw [← hitem, update_eq_self]
  · simp only [Option.isSome_some, if_true, execDelete_found hfit t hk]
    exact ⟨_, rfl, items_deleteRow t k⟩

theorem deleteWithConditionInsideTx_leaves (condition : Option Json → Bool) :
    Leaves t k (if condition (t.items k) then some none else none)
      ((deleteWithConditionInsideTx shape t pk sk condition).map Prod.fst) := by
  simp only [deleteWithConditionInsideTx, checkSkShape_ok hfit, selectForUpdate_found hfit t hk,
    checkHolds, bind, Except.bind]
  cases condition (t.items k) with
  | false => exact ⟨_, rfl⟩
  | true =>
    obtain ⟨t', he, hitems⟩ := deleteIfFound_leaves hfit t hk
    simp only [if_true, he]
    exact ⟨t', rfl, hitems⟩

theorem conditionCheckInsideTx_leaves (condition : Option Json → Bool) :
    Leaves t k (if condition (t.items k) then some (t.items k) else none)
      ((conditionCheckInsideTx shape t pk sk condition).map fun _ => t) := by
  simp only [conditionCheckInsideTx, checkSkShape_ok hfit, selectForUpdate_found hfit t hk,
    checkHolds, bind, Except.bind]
  cases condition (t.items k) with
  | false => exact ⟨_, rfl⟩
  | true => exact ⟨t, rfl, (update_eq_self k t.items).symm⟩

theorem updateGeneralRmwInsideTx_leaves {new : Json}
    (happly : apply (t.items k) = .ok (.apply new))
    (hgen : generatedKey shape.baseKey new = .ok k) :
    Leaves t k (if storable shape.baseKey shape.dualWriteCols new then some (some new) else none)
      ((updateGeneralRmwInsideTx shape t pk sk apply).map Prod.fst) := by
  simp only [updateGeneralRmwInsideTx, checkSkShape_ok hfit, selectForUpdate_found hfit t hk,
    happly, requireApply, bind, Except.bind]
  rcases writeLocked_cases hfit hk hgen t with ⟨hs, t', he, hwrote⟩ | ⟨hs, e, he⟩
  · rw [hs]
    simp only [if_true, PgTable.items, he]
    exact ⟨t', rfl, hwrote.items⟩
  · rw [hs]
    simp only [PgTable.items, he]
    exact ⟨_, rfl⟩

theorem updateGeneralRmwInsideTx_refused
    (happly : ∀ new, apply (t.items k) ≠ .ok (.apply new)) :
    Leaves t k none ((updateGeneralRmwInsideTx shape t pk sk apply).map Prod.fst) := by
  simp only [updateGeneralRmwInsideTx, checkSkShape_ok hfit, selectForUpdate_found hfit t hk,
    bind, Except.bind]
  rcases hdecision : apply (t.items k) with e | _ | new
  · exact ⟨_, rfl⟩
  · exact ⟨_, rfl⟩
  · exact absurd hdecision (happly new)

end

end Rektifier
