import Rektifier.BatchCorrect
import Rektifier.BatchStatements

namespace Rektifier

open Fallible

variable {shape : TableShape} {t t' : PgTable shape.baseKey} {ops : List WriteOp}
  {keys : List (KeyValue × Option KeyValue)} {ks : List PgKey}

/-! ### Reading -/

theorem addressedKeys_mem (h : addressedKeys keys = .ok ks) :
    ∀ k ∈ keys, ∃ k' ∈ ks, addressedKey k.1 k.2 = .ok k' :=
  mem_of_forall₂ (forall₂_of_mapM_ok h).flip

theorem addressedKeys_pairwise (h : addressedKeys keys = .ok ks) (hnodup : ks.Nodup) :
    keys.Pairwise fun a b => ¬SameRow a b := by
  induction keys generalizing ks with
  | nil => exact List.Pairwise.nil
  | cons k keys ih =>
    rw [addressedKeys_cons] at h
    obtain ⟨k', hk, h⟩ := bind_ok h
    obtain ⟨rest, hrest, h⟩ := bind_ok h
    cases h
    obtain ⟨hnew, hnodup⟩ := List.nodup_cons.mp hnodup
    refine List.pairwise_cons.mpr ⟨fun a ha ⟨x, hx, hax⟩ => ?_, ih hrest hnodup⟩
    obtain ⟨b, hb, hab⟩ := addressedKeys_mem hrest a ha
    cases hk.symm.trans hx
    cases hax.symm.trans hab
    exact hnew hb

/-- Each stored item under a wanted key is returned once, in whatever order rows are met. -/
theorem selectKeys_perm (order : RowOrder t) (hnodup : ks.Nodup) :
    (selectKeys order ks).Perm (ks.filterMap fun k => (t.rows k).map PgRow.data) := by
  have hsplit : ks.filterMap (fun k => (t.rows k).map PgRow.data)
      = (ks.filter fun k => (t.rows k).isSome).filterMap fun k => (t.rows k).map PgRow.data := by
    rw [List.filterMap_filter]
    refine List.filterMap_congr fun k _ => ?_
    cases t.rows k <;> rfl
  rw [selectKeys, hsplit]
  refine List.Perm.filterMap _ ?_
  refine (List.perm_ext_iff_of_nodup (order.nodup.filter _) (hnodup.filter _)).mpr fun k => ?_
  simp only [List.mem_filter, order.stored, decide_eq_true_eq]
  exact and_comm

/-- A get returns the items under its keys, and fails without a fault only where they cannot be
bound. -/
theorem batchGetRaw_exact (order : RowOrder t) (hfit : KeysFit shape keys)
    (hks : addressedKeys keys = .ok ks) (hnodup : ks.Nodup) (faults : ReadFaults) :
    ∃ r, batchGetRaw shape order faults keys = some r ∧
      (∀ items, r = .ok items →
        items.Perm (ks.filterMap fun k => (t.rows k).map PgRow.data)) ∧
      (faults.client = none → faults.query = none →
        ((∃ items, r = .ok items) ↔ keysBindable shape keys)) := by
  have hsk : (keys.forM fun k => checkSkShape shape k.2) = .ok () :=
    forM_ok_iff.mpr fun k hk => checkSkShape_ok (hfit k hk)
  have hfails : ∀ e items, (.error e : Except BackendError (List Json)) ≠ .ok items := by
    intro e items h
    cases h
  obtain ⟨params, hbind, hbinds, heval⟩ := keyList_eval hfit
  unfold batchGetRaw
  split
  next hempty =>
    rw [List.isEmpty_iff] at hempty
    subst hempty
    cases hks
    refine ⟨_, rfl, ?_, fun _ _ => ⟨fun _ => rfl, fun _ => ⟨_, rfl⟩⟩⟩
    intro items h
    cases h
    exact List.Perm.nil
  next =>
    rw [hsk, hbind]
    rcases hclient : faults.client with _ | e
    · rcases hquery : faults.query with _ | e
      · simp only [Option.map_some, heval, hks, KeyListParams.bind, hbinds]
        cases keysBindable shape keys with
        | true =>
          refine ⟨_, rfl, ?_, fun _ _ => ⟨fun _ => rfl, fun _ => ⟨_, rfl⟩⟩⟩
          intro items h
          cases h
          exact selectKeys_perm order hnodup
        | false =>
          refine ⟨_, rfl, ?_, fun _ _ => ⟨?_, ?_⟩⟩
          · exact fun items h => absurd h (hfails _ items)
          · rintro ⟨items, h⟩
            exact absurd h (hfails _ items)
          · intro h
            cases h
      · refine ⟨_, rfl, fun items h => absurd h (hfails _ items), fun _ h => ?_⟩
        cases h
    · refine ⟨_, rfl, fun items h => absurd h (hfails _ items), fun h => ?_⟩
      cases h

/-! ### Writing -/

/-- The items under the put keys, nothing under the delete keys, the rest as it was. -/
structure BatchLeaves (t t' : PgTable shape.baseKey) (ops : List WriteOp) : Prop where
  put : ∀ pk sk item k, .put pk sk item ∈ ops → addressedKey pk sk = .ok k →
    (t'.rows k).map PgRow.data = some item
  delete : ∀ pk sk k, .delete pk sk ∈ ops → addressedKey pk sk = .ok k → t'.rows k = none
  other : ∀ k, (∀ op ∈ ops, addressedKey op.key.1 op.key.2 ≠ .ok k) → t'.rows k = t.rows k

theorem putVersion_data {bk : BaseKey} {cols : List DualWriteCol} {item : Json}
    (h : storable bk cols item) (old : Option PgRow) :
    (putVersion cols item old).map PgRow.data = some item := by
  have hcols := (fillable_iff.mp (Bool.and_eq_true_iff.mp h).1).1
  obtain ⟨m, hm⟩ := (fillCols_ok_iff cols item (old.elim nullCols PgRow.cols)).mpr hcols
  rw [putVersion, hm]
  rfl

theorem runBatch_changes (hops : ∀ op ∈ ops, op.Fits shape.baseKey) (hrows : DistinctRows ops)
    (hbinds : BatchBinds shape ops) (t : PgTable shape.baseKey) :
    Ran t (ops.map (WriteOp.rowWrite shape)) (runBatch shape t (fun _ => none) ops) := by
  have hsame := runBatch_eq_inOrder hops hrows hbinds t
  have hran := runInOrder_ran hops t
  rcases hinOrder : runInOrder shape t ops with e | t'
  · rw [hinOrder] at hran hsame
    rcases hbatch : runBatch shape t (fun _ => none) ops with e' | t'
    · cases hran with
      | error hnone => exact .error hnone
    · rw [hbatch] at hsame
      cases hsame
  · rw [hinOrder] at hran hsame
    rw [toOption_eq_some_iff.mp hsame]
    exact hran

theorem rowWrite_put (shape : TableShape) {pk : KeyValue} {sk : Option KeyValue} {k : PgKey}
    (hk : addressedKey pk sk = .ok k) (item : Json) : (WriteOp.put pk sk item).rowWrite shape
      = if storable shape.baseKey shape.dualWriteCols item
        then some ⟨k, putVersion shape.dualWriteCols item⟩ else none := by
  simp only [WriteOp.rowWrite, WriteOp.key, hk]
  rfl

theorem rowWrite_delete (shape : TableShape) {pk : KeyValue} {sk : Option KeyValue}
    {k : PgKey} (hk : addressedKey pk sk = .ok k) :
    (WriteOp.delete pk sk).rowWrite shape = some ⟨k, fun _ => none⟩ := by
  simp only [WriteOp.rowWrite, WriteOp.key, hk]
  rfl

theorem runBatch_leaves (hops : ∀ op ∈ ops, op.Fits shape.baseKey) (hrows : DistinctRows ops)
    (h : runBatch shape t (fun _ => none) ops = .ok t') : BatchLeaves t t' ops := by
  have hran := runBatch_changes hops hrows (runBatch_binds h) t
  have hkeys := hrows.keys_nodup shape
  rw [h] at hran
  cases hran with
  | ok hsome happly =>
    -- a write that was not refused meets the row of the table before the batch
    have hwrite : ∀ op ∈ ops, ∀ w, op.rowWrite shape = some w →
        t'.rows w.key = w.change (t.rows w.key) := by
      intro op hop w hw
      rw [happly]
      refine PointWrite.applyAll_of_mem hkeys ?_ t.rows
      exact List.reduceOption_mem_iff.mpr (hw ▸ List.mem_map_of_mem hop)
    refine ⟨fun pk sk item k hop hk => ?_, fun pk sk k hop hk => ?_, fun k hk => ?_⟩
    · have hrow := rowWrite_put shape hk item
      by_cases hfill : storable shape.baseKey shape.dualWriteCols item
      · rw [if_pos hfill] at hrow
        rw [hwrite _ hop _ hrow]
        exact putVersion_data hfill _
      · rw [if_neg hfill] at hrow
        exact absurd (hrow ▸ List.mem_map_of_mem hop) hsome
    · exact hwrite _ hop _ (rowWrite_delete _ hk)
    · rw [happly]
      refine PointWrite.applyAll_of_not_mem (fun hmem => ?_) t.rows
      obtain ⟨w, hw, rfl⟩ := List.mem_map.mp hmem
      obtain ⟨op, hop, hrow⟩ := List.mem_map.mp (List.reduceOption_mem_iff.mp hw)
      exact hk op hop (rowWrite_key hrow)

theorem refused_iff (hks : addressedKeys (ops.map WriteOp.key) = .ok ks)
    (shape : TableShape) : none ∉ ops.map (WriteOp.rowWrite shape) ↔
      ∀ item ∈ ops.filterMap WriteOp.put?,
        storable shape.baseKey shape.dualWriteCols item := by
  have hkey : ∀ op ∈ ops, ∃ k, addressedKey op.key.1 op.key.2 = .ok k := by
    intro op hop
    obtain ⟨k, _, hk⟩ := addressedKeys_mem hks op.key (List.mem_map_of_mem hop)
    exact ⟨k, hk⟩
  constructor
  · intro hsome item hitem
    obtain ⟨op, hop, hput⟩ := List.mem_filterMap.mp hitem
    obtain ⟨k, hk⟩ := hkey op hop
    cases op with
    | delete pk sk => cases hput
    | put pk sk item' =>
      cases hput
      by_contra hfill
      have hrow := rowWrite_put shape hk item
      rw [if_neg hfill] at hrow
      exact hsome (hrow ▸ List.mem_map_of_mem hop)
  · intro hfill hnone
    obtain ⟨op, hop, hrow⟩ := List.mem_map.mp hnone
    obtain ⟨k, hk⟩ := hkey op hop
    cases op with
    | delete pk sk => cases (rowWrite_delete shape hk).symm.trans hrow
    | put pk sk item =>
      have hitem := hfill item (List.mem_filterMap.mpr ⟨_, hop, rfl⟩)
      have hsome := rowWrite_put shape hk item
      rw [if_pos hitem] at hsome
      cases hsome.symm.trans hrow

/-- Without a fault a batch fails only where it cannot be bound or a row cannot be stored. -/
theorem runBatch_ok_iff (hops : ∀ op ∈ ops, op.Fits shape.baseKey) (hrows : DistinctRows ops)
    (hks : addressedKeys (ops.map WriteOp.key) = .ok ks) (t : PgTable shape.baseKey) :
    (∃ t', runBatch shape t (fun _ => none) ops = .ok t') ↔
      BatchBinds shape ops ∧ ∀ item ∈ ops.filterMap WriteOp.put?,
        storable shape.baseKey shape.dualWriteCols item := by
  rw [← refused_iff hks]
  constructor
  · rintro ⟨t', ht'⟩
    have hbinds := runBatch_binds ht'
    have hran := runBatch_changes hops hrows hbinds t
    rw [ht'] at hran
    cases hran with
    | ok hsome => exact ⟨hbinds, hsome⟩
  · rintro ⟨hbinds, hsome⟩
    obtain ⟨t', ht', _⟩ := (runBatch_changes hops hrows hbinds t).of_some hsome
    exact ⟨t', ht'⟩

theorem batchStatement_fault {α : Type} {fault : Option PgError} {work : List α}
    {run : List α → Except PgError (PgTable shape.baseKey)}
    (h : batchStatement shape t fault work run = .ok t') :
    batchStatement shape t none work run = .ok t' := by
  unfold batchStatement at h ⊢
  split at h
  next hempty => rw [if_pos hempty, h]
  next hempty =>
    rw [if_neg hempty]
    split at h
    next => cases h
    next => exact h

theorem runBatch_fault {faults : Nat → Option PgError}
    (h : runBatch shape t faults ops = .ok t') :
    runBatch shape t (fun _ => none) ops = .ok t' := by
  obtain ⟨t₁, hputs, hdeletes⟩ := bind_ok h
  exact bind_ok_iff.mpr ⟨t₁, batchStatement_fault hputs, batchStatement_fault hdeletes⟩

theorem batchLeaves_nil (t : PgTable shape.baseKey) : BatchLeaves t t [] :=
  ⟨nofun, nofun, fun _ _ => rfl⟩

theorem batchWriteRaw_leaves (hops : ∀ op ∈ ops, op.Fits shape.baseKey) (hrows : DistinctRows ops)
    (faults : TxFaults) (t : PgTable shape.baseKey) :
    let out := batchWriteRaw shape t faults ops
    (out.2 = .ok () → BatchLeaves t out.1 ops) ∧ (out.1 = t ∨ BatchLeaves t out.1 ops) := by
  have hleaves : ∀ t', runBatch shape t faults.operation ops = .ok t' → BatchLeaves t t' ops :=
    fun t' h => runBatch_leaves hops hrows (runBatch_fault h)
  have hrefused : ∀ e : BackendError,
      ((.error e : Except BackendError Unit) = .ok () → BatchLeaves t t ops) ∧
        (t = t ∨ BatchLeaves t t ops) := fun e => ⟨nofun, .inl rfl⟩
  dsimp only
  unfold batchWriteRaw
  split
  next hempty =>
    rw [List.isEmpty_iff.mp hempty]
    exact ⟨fun _ => batchLeaves_nil t, .inl rfl⟩
  next =>
    split
    next e _ => exact hrefused e
    next =>
      split
      next => exact hrefused _
      next =>
        split
        next => exact hrefused _
        next =>
          split
          next => exact hrefused _
          next t' ht' =>
            have hall := hleaves t' ht'
            split
            next => exact ⟨fun _ => hall, .inr hall⟩
            next => exact ⟨nofun, .inr hall⟩
            next => exact hrefused _

/-- Orders, each with numbered lines. -/
def linesShape : TableShape := ⟨"rekt_t_orders", "id", .s, some ("line", .s), "data", [], .plain⟩

def lineItem (line : String) : Json :=
  Item.toValue (OrderedMap.ofList [("id", .s "a"), ("line", .s line)])

def linesBatch : List WriteOp :=
  [.put (.s "a") (some (.s "1")) (lineItem "1"), .put (.s "a") (some (.s "2")) (lineItem "2"),
    .delete (.s "a") (some (.s "3"))]

def longName (n : Nat) : String := String.ofList (List.replicate n 'x')

theorem longName_injective : Function.Injective longName := by
  intro m n h
  have hlist := congrArg (List.length ∘ String.toList) h
  simpa [longName] using hlist

def longKey (n : Nat) : KeyValue × Option KeyValue := (.s "a", some (.s (longName n)))

theorem addressedKeys_long (l : List Nat) : addressedKeys (l.map longKey)
    = .ok (l.map fun n => (.text "a", some (.text (longName n)))) := by
  induction l with
  | nil => rfl
  | cons n l ih =>
    rw [List.map_cons, addressedKeys_cons, ih]
    rfl

end Rektifier
