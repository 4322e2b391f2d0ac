import Rektifier.TransactAtomic
import Rektifier.TransactTargets

namespace Rektifier

open Fallible List Function

variable {plans : List BatchWritePerTable} {req : BatchWriteItemRequest} {maxWrites : Nat}
  {plan : BatchWritePerTable}

section

variable {m : SchemaMap}

/-- The specification of a batch: request order, all or none by table. -/
def writeTablesInOrder : Database m → List BatchWritePerTable → Database m × Except BackendError Unit
  | db, [] => (db, .ok ())
  | db, plan :: plans =>
    match runInOrder (m.schema plan.tableName).writeShape (db plan.tableName) plan.ops with
    | .ok t => writeTablesInOrder (update db plan.tableName t) plans
    | .error e => (db, .error e)

def SameEffect {ε δ : Type} (r : Database m × Except ε Unit) (r' : Database m × Except δ Unit) :
    Prop :=
  r.1 = r'.1 ∧ r.2.toOption = r'.2.toOption

theorem batchWriteRaw_cases {shape : TableShape} {ops : List WriteOp}
    (hops : ∀ op ∈ ops, op.Fits shape.baseKey) (t : PgTable shape.baseKey) :
    (∃ e, runBatch shape t (fun _ => none) ops = .error e ∧
      batchWriteRaw shape t noFaults ops = (t, .error e)) ∨
    ∃ t', runBatch shape t (fun _ => none) ops = .ok t' ∧
      batchWriteRaw shape t noFaults ops = (t', .ok ()) := by
  cases ops with
  | nil => exact .inr ⟨t, rfl, rfl⟩
  | cons op ops =>
    have hsk : (op :: ops).forM (fun op => checkSkShape shape op.key.2) = .ok () :=
      forM_ok_iff.mpr fun op' hop' => checkSkShape_ok (hops op' hop').key
    rcases hrun : runBatch shape t (fun _ => none) (op :: ops) with e | t'
    · refine .inl ⟨e, rfl, ?_⟩
      simp only [batchWriteRaw, hsk, noFaults, hrun]
      rfl
    · refine .inr ⟨t', rfl, ?_⟩
      simp only [batchWriteRaw, hsk, noFaults, hrun]
      rfl

theorem writeTables_sameEffect
    (hplans : ∀ plan ∈ plans, DistinctRows plan.ops ∧
      BatchBinds (m.schema plan.tableName).writeShape plan.ops ∧
      ∀ op ∈ plan.ops, op.Fits (m.schema plan.tableName).writeShape.baseKey) (db : Database m) :
    SameEffect (writeTables (fun _ => noFaults) db plans) (writeTablesInOrder db plans) := by
  induction plans generalizing db with
  | nil => exact ⟨rfl, rfl⟩
  | cons plan plans ih =>
    obtain ⟨⟨hrows, hbinds, hfits⟩, hrest⟩ := forall_mem_cons.mp hplans
    have hsame := runBatch_eq_inOrder hfits hrows hbinds (db plan.tableName)
    rcases batchWriteRaw_cases hfits (db plan.tableName) with ⟨e, hrun, hraw⟩ | ⟨t, hrun, hraw⟩
    · rcases hspec : runInOrder _ (db plan.tableName) plan.ops with e' | t'
      · simp only [writeTables, hraw, writeTablesInOrder, hspec, update_eq_self]
        exact ⟨rfl, rfl⟩
      · rw [hrun, hspec] at hsame
        cases hsame
    · rw [hrun] at hsame
      have hspec := toOption_eq_some_iff.mp hsame.symm
      simp only [writeTables, hraw, writeTablesInOrder, hspec]
      exact ih hrest _

/-- The answer is that of its tables. -/
theorem handleBatchWriteItem_of_ok (h : translateBatchWriteItem req m maxWrites = .ok plans)
    (faults : String → TxFaults) (db : Database m) :
    SameEffect (handleBatchWriteItem faults maxWrites db req) (writeTables faults db plans) := by
  rw [handleBatchWriteItem, h]
  refine ⟨rfl, ?_⟩
  rcases hr : (writeTables faults db plans).2 with e | _ <;> simp only [hr] <;> rfl

theorem writeTables_one {faults : String → TxFaults} {db : Database m}
    {t : (m.schema plan.tableName).Table}
    (h : batchWriteRaw (m.schema plan.tableName).writeShape (db plan.tableName)
      (faults plan.tableName) plan.ops = (t, .ok ())) :
    writeTables faults db [plan] = (update db plan.tableName t, .ok ()) := by
  simp only [writeTables, h]

theorem writeTablesInOrder_one {db : Database m}
    {t : (m.schema plan.tableName).Table}
    (h : runInOrder (m.schema plan.tableName).writeShape (db plan.tableName) plan.ops = .ok t) :
    writeTablesInOrder db [plan] = (update db plan.tableName t, .ok ()) := by
  simp only [writeTablesInOrder, h]

theorem translateTable_ok {entry : String × List WriteRequest}
    (h : translateTable m entry = .ok plan) : plan.tableName = entry.1 ∧
      translateWrites (m.schema entry.1) [] entry.2 = .ok plan.ops := by
  obtain ⟨schema, hschema, h⟩ := bind_ok h
  obtain ⟨_, _, h⟩ := bind_ok h
  obtain ⟨ops, hops, h⟩ := bind_ok h
  cases h
  have hsame : schema = m.schema entry.1 := by
    unfold SchemaMap.getForBatch at hschema
    split at hschema
    next => cases hschema; rfl
    next => cases hschema
  cases hsame
  exact ⟨rfl, hops⟩

/-- The tables of an accepted batch, with the writes they come from. -/
theorem translateBatchWriteItem_accepted (h : translateBatchWriteItem req m maxWrites = .ok plans) :
    List.Forall₂ (fun entry plan => plan.tableName = entry.1 ∧
      translateWrites (m.schema entry.1) [] entry.2 = .ok plan.ops) req.requestItems plans := by
  obtain ⟨_, _, h⟩ := bind_ok h
  exact (forall₂_of_mapM_ok h).imp fun _ _ => translateTable_ok

theorem batch_distinctRows_iff (h : translateBatchWriteItem req m maxWrites = .ok plans) :
    (∀ plan ∈ plans, DistinctRows plan.ops) ↔
      ∀ entry ∈ req.requestItems, SpelledAlike (m.schema entry.1) entry.2 := by
  have hall := translateBatchWriteItem_accepted h
  clear h
  generalize req.requestItems = entries at hall
  induction hall with
  | nil => exact ⟨nofun, nofun⟩
  | cons hfirst _ ih =>
    rw [forall_mem_cons, forall_mem_cons]
    exact and_congr (distinctRows_iff hfirst.2) ih

theorem batch_fits (h : translateBatchWriteItem req m maxWrites = .ok plans) :
    ∀ plan ∈ plans, ∀ op ∈ plan.ops, op.Fits (m.schema plan.tableName).writeShape.baseKey := by
  have hall := translateBatchWriteItem_accepted h
  clear h
  generalize req.requestItems = entries at hall
  induction hall with
  | nil => exact nofun
  | cons hfirst _ ih =>
    refine forall_mem_cons.mpr ⟨?_, ih⟩
    rw [hfirst.1]
    exact (translateWrites_accepted hfirst.2).2.1

end

def numberedTables : SchemaMap :=
  ⟨fun _ => ⟨"orders", "rekt_t_orders", "id", .n, none, "data", [], [], .plain⟩, fun _ => true⟩

def orderNumber (id : String) : Item := OrderedMap.ofList [("id", .n id)]

def replaceBatch (old new : String) : BatchWriteItemRequest where
  requestItems := [("orders", [⟨none, some (orderNumber old)⟩, ⟨some (orderNumber new), none⟩])]
  tables := nodup_singleton _

def replacePlan (old new : String) : BatchWritePerTable :=
  ⟨"orders", [.delete (.n old) none, .put (.n new) none (Item.toValue (orderNumber new))]⟩

def replaceTransaction (old new : String) : TransactWriteItemsRequest where
  transactItems := [⟨none, some ⟨"orders", orderNumber old, none, none⟩, none, none⟩,
    ⟨some ⟨"orders", orderNumber new, none, none⟩, none, none, none⟩]
  clientRequestToken := none

def replaceTargets (old new : String) : List TransactWritePlanItem :=
  [⟨"orders", .n old, none, .delete, none, false⟩,
    ⟨"orders", .n new, none, .put (orderNumber new), none, false⟩]

theorem parse_one : Numeric.parse "1" = some (.finite ⟨1, 0⟩) := by decide

theorem parse_two : Numeric.parse "2" = some (.finite ⟨2, 0⟩) := by decide

theorem parse_oneDotZero : Numeric.parse "1.0" = some (.finite ⟨10, 1⟩) := by decide

theorem one_ne_two_in_value : ¬ KeysEqualInValue (.n "1", none) (.n "2", none) := by
  rintro ⟨⟨d, e, hd, he, heq⟩, _⟩
  cases parse_one.symm.trans hd
  cases parse_two.symm.trans he
  norm_num [Numeric.value, Numeric.ofRat_inj, Decimal.value] at heq

theorem addressedKey_one : addressedKey (.n "1") none = .ok (numberKey 1) := by
  refine addressedKey_ok_iff.mpr ⟨pg_n_ok.mpr ⟨_, parse_one, ?_⟩, .none⟩
  norm_num [numberKey, Numeric.value, Decimal.value]

theorem addressedKey_oneDotZero : addressedKey (.n "1.0") none = .ok (numberKey 1) := by
  refine addressedKey_ok_iff.mpr ⟨pg_n_ok.mpr ⟨_, parse_oneDotZero, ?_⟩, .none⟩
  norm_num [numberKey, Numeric.value, Decimal.value]

def orderShape : TableShape := (numberedTables.schema "orders").writeShape

def deleteRespelled : WriteOp := .delete (.n "1.0") none

def putOne : WriteOp := .put (.n "1") none (Item.toValue (orderNumber "1"))

theorem respelled_fits :
    deleteRespelled.Fits orderShape.baseKey ∧ putOne.Fits orderShape.baseKey := by
  have hplan : translateBatchWriteItem (replaceBatch "1.0" "1") numberedTables 25
      = .ok [replacePlan "1.0" "1"] := rfl
  have hfits := batch_fits hplan _ mem_cons_self
  exact ⟨hfits deleteRespelled mem_cons_self,
    hfits putOne (mem_cons_of_mem _ mem_cons_self)⟩

theorem deleteRespelled_rowWrite : deleteRespelled.rowWrite orderShape =
    some ⟨numberKey 1, fun _ => none⟩ := by
  have hkey : addressedKey deleteRespelled.key.1 deleteRespelled.key.2
      = .ok (numberKey 1) := addressedKey_oneDotZero
  rw [WriteOp.rowWrite, hkey]
  rfl

theorem putOne_rowWrite : putOne.rowWrite orderShape =
    some ⟨numberKey 1, putVersion [] (Item.toValue (orderNumber "1"))⟩ := by
  have hkey : addressedKey putOne.key.1 putOne.key.2 = .ok (numberKey 1) := addressedKey_one
  rw [WriteOp.rowWrite, hkey]
  rfl

theorem respelled_inOrder : ∃ t, runInOrder orderShape PgTable.empty [deleteRespelled, putOne]
    = .ok t ∧ t.rows (numberKey 1) ≠ none := by
  have hops : ∀ op ∈ [deleteRespelled, putOne], op.Fits orderShape.baseKey :=
    forall_mem_cons.mpr ⟨respelled_fits.1, forall_mem_singleton.mpr respelled_fits.2⟩
  have hran := runInOrder_ran hops PgTable.empty
  have hchanges : [deleteRespelled, putOne].map (WriteOp.rowWrite orderShape)
      = [some _, some _] := congrArg₂ (fun a b => [a, b]) deleteRespelled_rowWrite putOne_rowWrite
  rw [hchanges] at hran
  obtain ⟨t, hrun, hrows⟩ := hran.of_some (by simp)
  refine ⟨t, hrun, ?_⟩
  rw [hrows]
  simp [PointWrite.applyAll, PointWrite.apply, putVersion, fillCols, pure, Except.pure]

theorem respelled_grouped : ∃ t, runBatch orderShape PgTable.empty (fun _ => none)
    [deleteRespelled, putOne] = .ok t ∧ t.rows (numberKey 1) = none := by
  have hput : Ran PgTable.empty [putOne.rowWrite orderShape]
      (executePuts orderShape PgTable.empty [Item.toValue (orderNumber "1")]) :=
    executePuts_ran (forall_mem_singleton.mpr respelled_fits.2) (pairwise_singleton _ _)
      (by decide) _
  have hdelete : ∀ t, Ran t [deleteRespelled.rowWrite orderShape]
      (executeDeletes orderShape t [(.n "1.0", none)]) :=
    executeDeletes_ran (forall_mem_singleton.mpr respelled_fits.1) (by decide)
  have hran := (batchStatement_ran rfl hput).append fun t _ => batchStatement_ran rfl (hdelete t)
  have hchanges : [putOne.rowWrite orderShape]
      ++ [deleteRespelled.rowWrite orderShape] = [some _, some _] :=
    congrArg₂ (fun a b => [a, b]) putOne_rowWrite deleteRespelled_rowWrite
  rw [hchanges] at hran
  obtain ⟨t, hrun, hrows⟩ := hran.of_some (by simp)
  refine ⟨t, hrun, ?_⟩
  rw [hrows]
  simp [PointWrite.applyAll, PointWrite.apply]

end Rektifier
