import Mathlib.Data.List.ReduceOption
import Rektifier.BatchWrite
import Rektifier.PointWrites
import Rektifier.TransactSteps

namespace Rektifier

open List

abbrev RowWrite := PointWrite PgKey (Option PgRow)

def putVersion (cols : List DualWriteCol) (item : Json) (old : Option PgRow) : Option PgRow :=
  match fillCols cols item (old.elim nullCols PgRow.cols) with
  | .ok m => some ⟨item, m⟩
  | .error _ => old

/-- A change of one row; `none` when PostgreSQL refuses it. -/
def WriteOp.rowWrite (shape : TableShape) (op : WriteOp) : Option RowWrite :=
  (addressedKey op.key.1 op.key.2).toOption.bind fun k =>
    match op with
    | .put _ _ item =>
      if storable shape.baseKey shape.dualWriteCols item
        then some ⟨k, putVersion shape.dualWriteCols item⟩ else none
    | .delete _ _ => some ⟨k, fun _ => none⟩

def WriteOp.run (shape : TableShape) (t : PgTable shape.baseKey) :
    WriteOp → Except BackendError (PgTable shape.baseKey)
  | .put pk sk item => (putItemInsideTx shape t pk sk item).map Prod.fst
  | .delete pk sk => (deleteItemInsideTx shape t pk sk).map Prod.fst

def runInOrder (shape : TableShape) (t : PgTable shape.baseKey) (ops : List WriteOp) :
    Except BackendError (PgTable shape.baseKey) :=
  ops.foldlM (WriteOp.run shape) t

/-- All writes took effect, or one was refused. -/
inductive Ran {ε : Type} {bk : BaseKey} (t : PgTable bk) (ws : List (Option RowWrite)) :
    Except ε (PgTable bk) → Prop
  | ok {t' : PgTable bk} : none ∉ ws → t'.rows = PointWrite.applyAll t.rows ws.reduceOption →
      Ran t ws (.ok t')
  | error {e : ε} : none ∈ ws → Ran t ws (.error e)

namespace Ran

variable {ε δ : Type} {bk : BaseKey} {t : PgTable bk} {ws vs : List (Option RowWrite)}
variable {r : Except ε (PgTable bk)}

theorem nil (t : PgTable bk) : Ran (ε := ε) t [] (.ok t) :=
  .ok not_mem_nil rfl

theorem append {f : PgTable bk → Except ε (PgTable bk)}
    (h : Ran t ws r) (hf : ∀ t', r = .ok t' → Ran t' vs (f t')) : Ran t (ws ++ vs) (r >>= f) := by
  cases h with
  | error hnone => exact .error (mem_append_left _ hnone)
  | @ok t' hsome hrows =>
    have hnext := hf t' rfl
    show Ran t (ws ++ vs) (f t')
    generalize f t' = r' at hnext
    cases hnext with
    | error hnone => exact .error (mem_append_right _ hnone)
    | ok hsome' hrows' =>
      refine .ok ?_ ?_
      · simp only [mem_append, hsome, hsome', or_self, not_false_eq_true]
      · rw [hrows', hrows, reduceOption_append, PointWrite.applyAll_append]

theorem cons {w : Option RowWrite} {t' : PgTable bk}
    (h : Ran (ε := ε) t [w] (.ok t')) (hrest : Ran t' ws r) : Ran t (w :: ws) r := by
  refine h.append (f := fun _ => r) ?_
  intro t'' ht
  cases ht
  exact hrest

theorem mapError (h : Ran t ws r) (f : ε → δ) :
    Ran t ws (r.mapError f) := by
  cases h with
  | error hnone => exact .error hnone
  | ok hsome hrows => exact .ok hsome hrows

theorem of_some (h : Ran t ws r) (hsome : none ∉ ws) :
    ∃ t', r = .ok t' ∧ t'.rows = PointWrite.applyAll t.rows ws.reduceOption := by
  cases h with
  | error hnone => exact absurd hnone hsome
  | ok _ hrows => exact ⟨_, rfl, hrows⟩

theorem toOption_eq {r' : Except δ (PgTable bk)} (h : Ran t ws r)
    (h' : Ran t vs r') (hkeys : (ws.reduceOption.map PointWrite.key).Nodup) (hperm : ws.Perm vs) :
    r.toOption = r'.toOption := by
  cases h with
  | error hnone =>
    cases h' with
    | error => rfl
    | ok hsome => exact absurd (hperm.mem_iff.mp hnone) hsome
  | @ok t₁ hsome hrows =>
    cases h' with
    | error hnone => exact absurd (hperm.mem_iff.mpr hnone) hsome
    | @ok t₂ hsome' hrows' =>
      have hreduced : ws.reduceOption.Perm vs.reduceOption := hperm.filterMap id
      have hsame : t₁.rows = t₂.rows := by
        rw [hrows, hrows', PointWrite.applyAll_perm hkeys hreduced]
      have htables : t₁ = t₂ := by
        cases t₁
        cases t₂
        congr
      rw [htables]
      rfl

end Ran

section

variable {shape : TableShape} {pk : KeyValue} {sk : Option KeyValue} {k : PgKey} {item : Json}

theorem putItemInsideTx_eq (hfit : KeyFits shape.baseKey pk sk) (hk : addressedKey pk sk = .ok k)
    (t : PgTable shape.baseKey) : (putItemInsideTx shape t pk sk item).map Prod.fst
      = pgResult (putItem shape.dualWriteCols t item) := by
  have hprev := (putSql_prev hfit item).trans hk
  have hparam : jsonbArg (keyParams pk sk ++ [.jsonb item]) shape.insertParamIdx = .ok item := by
    rw [insertParamIdx_eq hfit]
    exact jsonbArg_append _ [] item
  have heval : ∀ row, (JsonbExpr.param shape.insertParamIdx).eval
      (keyParams pk sk ++ [.jsonb item]) row = .ok item := fun _ => hparam
  simp only [putItemInsideTx, checkSkShape_ok hfit, UpsertSql.exec, hprev, putItem]
  simp only [putSql, heval, bind, Except.bind, pgResult]
  cases newVersion shape.dualWriteCols item nullCols with
  | error e => rfl
  | ok proposed =>
    cases generatedCols shape.baseKey item with
    | error e => rfl
    | ok k' =>
      rcases hold : t.rows k' with _ | old
      · simp only [hold]
        cases t.write none proposed <;> rfl
      · simp only [hold]
        cases t.replaceData k' old shape.dualWriteCols item <;> rfl

theorem putItem_cases {bk : BaseKey} {cols : List DualWriteCol} (t : PgTable bk)
    (hgen : generatedKey bk item = .ok k) :
    (storable bk cols item ∧ ∃ t', putItem cols t item = .ok t') ∨
    (storable bk cols item = false ∧ ∃ e, putItem cols t item = .error e) := by
  rcases newVersion_cases cols nullCols hgen with
    ⟨hfill, row, hrow, rfl, hcols⟩ | ⟨hfill, ⟨e, he⟩ | ⟨row, e, hrow, _, he⟩⟩
  · rcases hold : t.rows k with _ | old
    · rcases write_cases t none hcols (.inl ⟨rfl, hold⟩) with ⟨hfit, t', hw, _⟩ | ⟨hfit, e, hw⟩
      · refine .inl ⟨by rw [storable, hfill, hfit]; rfl, t', ?_⟩
        simp only [putItem, hrow, hcols, bind, Except.bind, hold, hw]
      · refine .inr ⟨by rw [storable, hfill, hfit]; rfl, e, ?_⟩
        simp only [putItem, hrow, hcols, bind, Except.bind, hold, hw]
    · rcases replaceData_cases t old cols hgen with ⟨hs, t', ht, _⟩ | ⟨hs, e, he⟩
      · refine .inl ⟨hs, t', ?_⟩
        simp only [putItem, hrow, hcols, bind, Except.bind, hold, ht]
      · refine .inr ⟨hs, e, ?_⟩
        simp only [putItem, hrow, hcols, bind, Except.bind, hold, he]
  · refine .inr ⟨by rw [storable, hfill]; rfl, e, ?_⟩
    simp only [putItem, he, bind, Except.bind]
  · refine .inr ⟨by rw [storable, hfill]; rfl, e, ?_⟩
    simp only [putItem, hrow, he, bind, Except.bind]

theorem putItem_ran {bk : BaseKey} {cols : List DualWriteCol} (t : PgTable bk)
    (hgen : generatedKey bk item = .ok k) :
    Ran t [if storable bk cols item then some ⟨k, putVersion cols item⟩ else none]
      (putItem cols t item) := by
  rcases putItem_cases t hgen with ⟨hs, t', ht⟩ | ⟨hs, e, he⟩
  · obtain ⟨k', m, hk', hm, hrows⟩ := (Writes.put ht).rows
    cases hgen.symm.trans hk'
    have hversion : putVersion cols item (t.rows k) = some ⟨item, m⟩ := by
      have hstored : (t.rows k).elim nullCols PgRow.cols = t.storedCols k := rfl
      rw [putVersion, hstored, hm]
    rw [hs, ht]
    refine .ok (by simp) ?_
    rw [hrows, ← hversion]
    rfl
  · rw [hs, he]
    exact .error mem_cons_self

theorem deleteRow_ran {ε : Type} {bk : BaseKey} (t : PgTable bk) (k : PgKey) :
    Ran (ε := ε) t [some ⟨k, fun _ => none⟩] (.ok (t.deleteRow k)) :=
  .ok (by simp) rfl

end

/-- Key values of the declared types, and for a put the key its item generates. -/
structure WriteOp.Fits (bk : BaseKey) (op : WriteOp) : Prop where
  key : KeyFits bk op.key.1 op.key.2
  item : ∀ item, op.put? = some item → generatedKey bk item = addressedKey op.key.1 op.key.2

section

variable {shape : TableShape} {op : WriteOp} {ops : List WriteOp} {k : PgKey}

theorem rowWrite_refused {e : PgError}
    (he : addressedKey op.key.1 op.key.2 = .error e) : op.rowWrite shape = none := by
  rw [WriteOp.rowWrite, he]
  rfl

theorem rowWrite_key {w : RowWrite} (h : op.rowWrite shape = some w) :
    addressedKey op.key.1 op.key.2 = .ok w.key := by
  obtain ⟨k, hk, h⟩ := Option.bind_eq_some_iff.mp h
  have hkey : k = w.key := by
    cases op with
    | put pk sk item =>
      obtain ⟨_, hw⟩ := Option.ite_none_right_eq_some.mp h
      rw [← Option.some.inj hw]
    | delete pk sk => rw [← Option.some.inj h]
  rw [← hkey]
  exact Fallible.toOption_eq_some_iff.mp hk

theorem WriteOp.run_ran (hop : op.Fits shape.baseKey) (t : PgTable shape.baseKey) :
    Ran t [op.rowWrite shape] (op.run shape t) := by
  rcases hk : addressedKey op.key.1 op.key.2 with e | k
  · rw [rowWrite_refused hk]
    obtain ⟨err, herr⟩ := run_refused hop.key t hk
      (match op with | .put _ _ item => .put item none | .delete _ _ => .delete none)
    cases op with
    | put pk sk item =>
      have hrun : (WriteOp.put pk sk item).run shape t = .error err := herr
      rw [hrun]
      exact .error mem_cons_self
    | delete pk sk =>
      have hrun : (WriteOp.delete pk sk).run shape t = .error err := herr
      rw [hrun]
      exact .error mem_cons_self
  · cases op with
    | put pk sk item =>
      have hfit : KeyFits shape.baseKey pk sk := hop.key
      have hk : addressedKey pk sk = .ok k := hk
      have hgen := (hop.item item rfl).trans hk
      have hrow : (WriteOp.put pk sk item).rowWrite shape =
          if storable shape.baseKey shape.dualWriteCols item
            then some ⟨k, putVersion shape.dualWriteCols item⟩ else none := by
        simp only [WriteOp.rowWrite, WriteOp.key, hk]
        rfl
      rw [hrow, WriteOp.run, putItemInsideTx_eq hfit hk]
      exact (putItem_ran t hgen).mapError _
    | delete pk sk =>
      have hfit : KeyFits shape.baseKey pk sk := hop.key
      have hk : addressedKey pk sk = .ok k := hk
      have hrow : (WriteOp.delete pk sk).rowWrite shape
          = some ⟨k, fun _ => none⟩ := by
        simp only [WriteOp.rowWrite, WriteOp.key, hk]
        rfl
      have hrun : (WriteOp.delete pk sk).run shape t = .ok (t.deleteRow k) := by
        simp only [WriteOp.run, deleteItemInsideTx, checkSkShape_ok hfit,
          execDelete_found hfit t hk]
        rfl
      rw [hrow, hrun]
      exact deleteRow_ran t k

theorem runInOrder_ran (hops : ∀ op ∈ ops, op.Fits shape.baseKey) (t : PgTable shape.baseKey) :
    Ran t (ops.map (WriteOp.rowWrite shape)) (runInOrder shape t ops) := by
  induction ops generalizing t with
  | nil => exact .nil t
  | cons op ops ih =>
    have hfirst := WriteOp.run_ran (hops op mem_cons_self) t
    have hrest := ih fun op' hop' => hops op' (mem_cons_of_mem _ hop')
    rw [runInOrder, foldlM_cons]
    exact hfirst.append fun t' _ => hrest t'

def SameRow (a b : KeyValue × Option KeyValue) : Prop :=
  ∃ k, addressedKey a.1 a.2 = .ok k ∧ addressedKey b.1 b.2 = .ok k

def DistinctRows (ops : List WriteOp) : Prop :=
  ops.Pairwise fun a b => ¬ SameRow a.key b.key

theorem WriteOp.Fits.putItem_ran {item : Json} (hop : op.Fits shape.baseKey)
    (hput : op.put? = some item) (t : PgTable shape.baseKey) :
    Ran t [op.rowWrite shape] (putItem shape.dualWriteCols t item) := by
  cases op with
  | delete pk sk => cases hput
  | put pk sk item' =>
    cases hput
    have hgen : generatedKey shape.baseKey item = addressedKey pk sk := hop.item item rfl
    rcases hk : addressedKey pk sk with e | k
    · have hnone : (WriteOp.put pk sk item).rowWrite shape = none :=
        rowWrite_refused hk
      rw [hnone]
      have hrefused : ∃ e', putItem shape.dualWriteCols t item = .error e' := by
        have hno : ∀ k, generatedCols shape.baseKey item ≠ .ok k := by
          intro k hcols
          cases ((generatedCols_ok_iff.mp hcols).2.symm.trans hgen).trans hk
        simp only [putItem, bind, Except.bind]
        cases newVersion shape.dualWriteCols item nullCols with
        | error e => exact ⟨_, rfl⟩
        | ok row =>
          cases hcols : generatedCols shape.baseKey item with
          | error e => exact ⟨_, rfl⟩
          | ok k => exact absurd hcols (hno k)
      obtain ⟨e', he'⟩ := hrefused
      rw [he']
      exact .error mem_cons_self
    · have hran : Ran t _ (putItem shape.dualWriteCols t item) :=
        Rektifier.putItem_ran t (hgen.trans hk)
      simp only [WriteOp.rowWrite, WriteOp.key, hk]
      exact hran

theorem putRows_ran (hops : ∀ op ∈ ops, op.Fits shape.baseKey) (hrows : DistinctRows ops)
    (t : PgTable shape.baseKey) {touched : List PgKey}
    (hfresh : ∀ op ∈ ops, ∀ k ∈ touched, addressedKey op.key.1 op.key.2 ≠ .ok k) :
    Ran t ((ops.filter fun op => op.put?.isSome).map (WriteOp.rowWrite shape))
      (((ops.filterMap WriteOp.put?).foldlM (putRow shape.dualWriteCols) (t, touched)).map
        Prod.fst) := by
  induction ops generalizing t touched with
  | nil => exact .nil t
  | cons op ops ih =>
    obtain ⟨hfirst, hrest⟩ := pairwise_cons.mp hrows
    have hops' : ∀ op' ∈ ops, op'.Fits shape.baseKey :=
      fun op' hop' => hops op' (mem_cons_of_mem _ hop')
    have hfresh' : ∀ op' ∈ ops, ∀ k ∈ touched, addressedKey op'.key.1 op'.key.2 ≠ .ok k :=
      fun op' hop' => hfresh op' (mem_cons_of_mem _ hop')
    cases hput : op.put? with
    | none =>
      rw [filterMap_cons_none hput, filter_cons_of_neg (by simp [hput])]
      exact ih hops' hrest t hfresh'
    | some item =>
      have hran := (hops op mem_cons_self).putItem_ran hput t
      have hgen := (hops op mem_cons_self).item item hput
      rw [filterMap_cons_some hput, filter_cons_of_pos (by simp [hput]), map_cons,
        foldlM_cons]
      rcases hwrite : putItem shape.dualWriteCols t item with e | t'
      · rw [hwrite] at hran
        have hstep : putRow shape.dualWriteCols (t, touched) item = .error e := by
          simp only [putRow, hwrite]
          rfl
        rw [hstep]
        cases hran with
        | error hnone => exact .error (mem_append_left _ hnone)
      · obtain ⟨k, _, hk, _⟩ := (Writes.put hwrite).rows
        have haddr := hgen.symm.trans hk
        have hnew : k ∉ touched := fun hmem => hfresh op mem_cons_self k hmem haddr
        have hstep : putRow shape.dualWriteCols (t, touched) item = .ok (t', k :: touched) := by
          simp only [putRow, hwrite, hk, bind, Except.bind, if_neg hnew]
          rfl
        have hlater : ∀ op' ∈ ops, ∀ k' ∈ k :: touched,
            addressedKey op'.key.1 op'.key.2 ≠ .ok k' := by
          intro op' hop' k' hk' haddr'
          rcases mem_cons.mp hk' with rfl | hk'
          · exact hfirst op' hop' ⟨k', haddr, haddr'⟩
          · exact hfresh' op' hop' k' hk' haddr'
        have hnext := ih hops' hrest t' hlater
        rw [hwrite] at hran
        rw [hstep]
        exact hran.cons hnext

/-- The keys a DELETE casts, against the row changes. -/
theorem deleteKeys_cases (hops : ∀ op ∈ ops, op.Fits shape.baseKey) :
    match (ops.filterMap WriteOp.delete?).mapM fun d =>
      (shape.keyPredicate 1).eval shape.baseKey (keyParams d.1 d.2) with
    | .error _ => none ∈ (ops.filter fun op => !op.put?.isSome).map
        (WriteOp.rowWrite shape)
    | .ok keys => (ops.filter fun op => !op.put?.isSome).map
        (WriteOp.rowWrite shape) = keys.map fun k => some ⟨k, fun _ => none⟩ := by
  induction ops with
  | nil => rfl
  | cons op ops ih =>
    have hrest := ih fun op' hop' => hops op' (mem_cons_of_mem _ hop')
    cases op with
    | put pk sk item => exact hrest
    | delete pk sk =>
      have hfit : KeyFits shape.baseKey pk sk := (hops _ mem_cons_self).key
      rw [filterMap_cons_some (rfl : (WriteOp.delete pk sk).delete? = some (pk, sk)),
        mapM_cons, filter_cons_of_pos rfl, map_cons, keyPredicate_addressed hfit]
      rcases hk : addressedKey pk sk with e | k
      · have hnone : (WriteOp.delete pk sk).rowWrite shape = none :=
          rowWrite_refused hk
        rw [hnone]
        exact mem_cons_self
      · have hrow : (WriteOp.delete pk sk).rowWrite shape
            = some ⟨k, fun _ => none⟩ := by
          simp only [WriteOp.rowWrite, WriteOp.key, hk]
          rfl
        rw [hrow]
        generalize (ops.filterMap WriteOp.delete?).mapM (fun d =>
          (shape.keyPredicate 1).eval shape.baseKey (keyParams d.1 d.2)) = r at hrest
        cases r with
        | error e => exact mem_cons_of_mem _ hrest
        | ok keys => exact congrArg _ hrest

theorem deleteRows_ran {ε : Type} {bk : BaseKey} (t : PgTable bk) (keys : List PgKey) :
    Ran (ε := ε) t (keys.map fun k => some ⟨k, fun _ => none⟩)
      (.ok (keys.foldl PgTable.deleteRow t)) := by
  induction keys generalizing t with
  | nil => exact .nil t
  | cons k keys ih => exact (deleteRow_ran t k).cons (ih _)

theorem executeDeletes_ran (hops : ∀ op ∈ ops, op.Fits shape.baseKey)
    (hbind : keysBindable shape (ops.filterMap WriteOp.delete?))
    (t : PgTable shape.baseKey) :
    Ran t ((ops.filter fun op => !op.put?.isSome).map (WriteOp.rowWrite shape))
      (executeDeletes shape t (ops.filterMap WriteOp.delete?)) := by
  have hkeys := deleteKeys_cases hops
  rw [executeDeletes, bindKeyValues, if_pos hbind]
  generalize (ops.filterMap WriteOp.delete?).mapM (fun d =>
    (shape.keyPredicate 1).eval shape.baseKey (keyParams d.1 d.2)) = r at hkeys
  cases r with
  | error e => exact .error hkeys
  | ok keys =>
    simp only at hkeys
    rw [hkeys]
    exact deleteRows_ran t keys

/-- A skipped statement is the statement over nothing. -/
theorem batchStatement_ran {α : Type} {work : List α} {t : PgTable shape.baseKey}
    {run : List α → Except PgError (PgTable shape.baseKey)} {ws : List (Option RowWrite)}
    (hempty : run [] = .ok t) (h : Ran t ws (run work)) :
    Ran t ws (batchStatement shape t none work run) := by
  cases work with
  | nil =>
    rw [hempty] at h
    exact h.mapError (mapPgErr shape.table)
  | cons a work => exact h.mapError _

/-- Both statements can be bound. -/
structure BatchBinds (shape : TableShape) (ops : List WriteOp) : Prop where
  puts : bindable ((ops.filterMap WriteOp.put?).map .jsonb) = true
  deletes : keysBindable shape (ops.filterMap WriteOp.delete?) = true

theorem executePuts_ran (hops : ∀ op ∈ ops, op.Fits shape.baseKey) (hrows : DistinctRows ops)
    (hbind : bindable ((ops.filterMap WriteOp.put?).map .jsonb))
    (t : PgTable shape.baseKey) :
    Ran t ((ops.filter fun op => op.put?.isSome).map (WriteOp.rowWrite shape))
      (executePuts shape t (ops.filterMap WriteOp.put?)) := by
  rw [executePuts, bindParams, if_pos hbind]
  exact putRows_ran hops hrows t fun _ _ k hk => absurd hk not_mem_nil

theorem runBatch_ran (hops : ∀ op ∈ ops, op.Fits shape.baseKey) (hrows : DistinctRows ops)
    (hbinds : BatchBinds shape ops) (t : PgTable shape.baseKey) :
    Ran t ((ops.filter (fun op => op.put?.isSome) ++ ops.filter fun op => !op.put?.isSome).map
        (WriteOp.rowWrite shape)) (runBatch shape t (fun _ => none) ops) := by
  rw [map_append]
  have hputs := executePuts_ran hops hrows hbinds.puts t
  have hdeletes := executeDeletes_ran hops hbinds.deletes
  exact (batchStatement_ran rfl hputs).append fun t' _ => batchStatement_ran rfl (hdeletes t')

theorem runBatch_binds {t t' : PgTable shape.baseKey}
    (h : runBatch shape t (fun _ => none) ops = .ok t') : BatchBinds shape ops := by
  obtain ⟨t₁, hputs, hdeletes⟩ := Fallible.bind_ok h
  constructor
  · by_contra hno
    have hne : ¬ (ops.filterMap WriteOp.put?).isEmpty := by
      intro hnil
      rw [isEmpty_iff.mp hnil] at hno
      exact hno rfl
    rw [batchStatement, if_neg hne, executePuts, bindParams, if_neg hno] at hputs
    cases hputs
  · by_contra hno
    have hne : ¬ (ops.filterMap WriteOp.delete?).isEmpty := by
      intro hnil
      rw [isEmpty_iff.mp hnil] at hno
      exact hno rfl
    rw [batchStatement, if_neg hne, executeDeletes, bindKeyValues, if_neg hno] at hdeletes
    cases hdeletes

theorem DistinctRows.keys_nodup (hrows : DistinctRows ops) (shape : TableShape) :
    ((ops.map (WriteOp.rowWrite shape)).reduceOption.map PointWrite.key).Nodup := by
  rw [List.reduceOption, filterMap_map, List.Nodup, pairwise_map]
  refine pairwise_filterMap.mpr (hrows.imp ?_)
  intro a b hdiff w hw v hv heq
  have ha := rowWrite_key (show a.rowWrite shape = some w from hw)
  have hb := rowWrite_key (show b.rowWrite shape = some v from hv)
  exact hdiff ⟨w.key, ha, heq ▸ hb⟩

/-- On different rows, all puts and then all deletes is the request order, if they can be bound. -/
theorem runBatch_eq_inOrder (hops : ∀ op ∈ ops, op.Fits shape.baseKey)
    (hrows : DistinctRows ops) (hbinds : BatchBinds shape ops) (t : PgTable shape.baseKey) :
    (runBatch shape t (fun _ => none) ops).toOption = (runInOrder shape t ops).toOption := by
  have hperm := filter_append_perm (fun op : WriteOp => op.put?.isSome) ops
  have hinOrder := runInOrder_ran hops t
  have hgrouped := runBatch_ran hops hrows hbinds t
  exact (hinOrder.toOption_eq hgrouped (hrows.keys_nodup _) (hperm.symm.map _)).symm

end

end Rektifier
