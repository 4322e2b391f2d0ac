import Rektifier.TransactCorrect

namespace Rektifier

open List

variable {faults : Nat → Option PgError} {p : TransactWritePlanItem} {m : SchemaMap}
  {ps : List TransactWritePlanItem} {ops : List TransactWriteOp}

/-- Operation `i` is the first that fails: those before it have been applied, and it meets a fault
or is refused. -/
def FirstFailure (m : SchemaMap) (faults : Nat → Option PgError) (σ : Items)
    (ps : List TransactWritePlanItem) (i : Nat) : Prop :=
  (∀ j < i, faults j = none) ∧
  ∃ p σ', ps[i]? = some p ∧ applyAll m σ (ps.take i) = some σ' ∧
    (faults i ≠ none ∨ p.apply m σ' = none)

theorem FirstFailure.zero {σ : Items}
    (h : faults 0 ≠ none ∨ p.apply m σ = none) : FirstFailure m faults σ (p :: ps) 0 :=
  ⟨nofun, p, σ, rfl, rfl, h⟩

theorem FirstFailure.succ {σ σ' : Items} {i : Nat} (hfirst : faults 0 = none)
    (hp : p.apply m σ = some σ')
    (h : FirstFailure m (fun j => faults (j + 1)) σ' ps i) :
    FirstFailure m faults σ (p :: ps) (i + 1) := by
  obtain ⟨hbefore, q, σ'', hq, happly, hfail⟩ := h
  refine ⟨?_, q, σ'', hq, ?_, hfail⟩
  · intro j hj
    cases j with
    | zero => exact hfirst
    | succ j => exact hbefore j (by omega)
  · rw [take_succ_cons, applyAll, foldlM_cons, hp]
    exact happly

theorem FirstFailure.applyAll_eq_none {σ : Items} {i : Nat}
    (h : FirstFailure m faults σ ps i) (hfault : faults i = none) : applyAll m σ ps = none := by
  obtain ⟨_, p, σ', hp, happly, hfail⟩ := h
  have hrefused : p.apply m σ' = none := hfail.resolve_left (not_not.mpr hfault)
  obtain ⟨hi, rfl⟩ := List.getElem?_eq_some_iff.mp hp
  have hsplit : ps = ps.take i ++ ps[i] :: ps.drop (i + 1) := by
    rw [getElem_cons_drop, take_append_drop]
  have hdone : (ps.take i).foldlM (fun σ p => p.apply m σ) σ = some σ' := happly
  rw [hsplit, applyAll, foldlM_append, hdone, Option.bind_eq_bind, Option.bind_some,
    foldlM_cons, hrefused]
  rfl

theorem mapM_op?_isSome (hacc : ∀ p ∈ ps, AcceptedOp m p) :
    ∃ ops, ps.mapM TransactWritePlanItem.op? = some ops ∧ ops.length = ps.length := by
  induction ps with
  | nil => exact ⟨[], rfl, rfl⟩
  | cons p ps ih =>
    obtain ⟨ops, hops, hlen⟩ := ih fun q hq => hacc q (mem_cons_of_mem _ hq)
    have hp := hacc p mem_cons_self
    obtain ⟨op, hop⟩ : ∃ op, p.op? = some op := by
      unfold TransactWritePlanItem.op?
      split
      next => exact ⟨_, rfl⟩
      next => exact ⟨_, rfl⟩
      next hkind =>
        obtain ⟨cond, hcond⟩ := Option.isSome_iff_exists.mp (hp.check hkind)
        exact ⟨_, by rw [hcond]; rfl⟩
      next => exact ⟨_, rfl⟩
    exact ⟨op :: ops, by rw [mapM_cons, hop, hops]; rfl, by simp [hlen]⟩

/-- The operations are applied one after the other, up to the first that fails. -/
theorem runOps_cases (hacc : ∀ p ∈ ps, AcceptedOp m p)
    (hops : ps.mapM TransactWritePlanItem.op? = some ops) (faults : Nat → Option PgError) (i : Nat)
    (db : Database m) :
    (∃ db', runOps faults i db ops = .ok db' ∧
      applyAll m db.items ps = some (Database.items db') ∧
      ∀ j < ps.length, faults (i + j) = none) ∨
    (∃ j e, runOps faults i db ops = .error (i + j, e) ∧
      FirstFailure m (fun j => faults (i + j)) db.items ps j) := by
  induction ps generalizing ops i db with
  | nil =>
    cases hops
    exact .inl ⟨db, rfl, rfl, nofun⟩
  | cons p ps ih =>
    rw [mapM_cons] at hops
    obtain ⟨op, hop, hops⟩ := Option.bind_eq_some_iff.mp hops
    obtain ⟨rest, hrest, hops⟩ := Option.bind_eq_some_iff.mp hops
    cases hops
    rcases hfault : faults i with _ | err
    · rcases (hacc p mem_cons_self).run_apply hop db with ⟨db₁, hrun, happly⟩ | ⟨e, hrun, happly⟩
      · -- the operation is done: the rest runs on what it leaves, one position further
        have hlater := ih (fun q hq => hacc q (mem_cons_of_mem _ hq)) hrest (i + 1) db₁
        have hstep : runOps faults i db (op :: rest) = runOps faults (i + 1) db₁ rest := by
          simp only [runOps, hfault, hrun]
        rw [hstep]
        rcases hlater with ⟨db', hok, hall, hnone⟩ | ⟨j, e, herr, hfirst⟩
        · refine .inl ⟨db', hok, ?_, ?_⟩
          · rw [applyAll, foldlM_cons, happly]
            exact hall
          · intro j hj
            cases j with
            | zero => exact hfault
            | succ j =>
              have := hnone j (by simpa using hj)
              rwa [Nat.add_right_comm] at this
        · refine .inr ⟨j + 1, e, by rw [herr, Nat.add_right_comm]; rfl, ?_⟩
          have hshift : (fun j => faults (i + 1 + j)) = fun j => faults (i + (j + 1)) := by
            funext j
            rw [Nat.add_right_comm]
            rfl
          rw [hshift] at hfirst
          exact .succ hfault happly hfirst
      · refine .inr ⟨0, e, ?_, .zero (.inr happly)⟩
        simp only [runOps, hfault, hrun, Nat.add_zero]
    · refine .inr ⟨0, mapPgErr op.tableName err, ?_, .zero (.inl ?_)⟩
      · simp only [runOps, hfault, TransactWriteOp.run, Nat.add_zero]
      · simp [hfault]

theorem classifyForCancel_code (texts : ErrorTexts) (e : BackendError) :
    (classifyForCancel texts e).1 ≠ "None" := by
  cases e with
  | pgError e =>
    simp only [classifyForCancel]
    split <;> decide
  | _ => simp [classifyForCancel]

/-- The cancellation names the failed operation and no other. -/
theorem intoCancelled_reasons {texts : ErrorTexts} {e : BackendError} {i n : Nat} (hi : i < n)
    {reasons : List TransactCancelReason}
    (h : intoCancelled texts e i n = .transactionCancelled reasons) :
    reasons.length = n ∧ ∀ j r, reasons[j]? = some r → (r.code = "None" ↔ j ≠ i) := by
  cases h
  refine ⟨by simp, ?_⟩
  intro j r hr
  rw [List.getElem?_set] at hr
  split at hr
  next hji =>
    subst hji
    simp only [length_replicate, hi, if_true] at hr
    cases hr
    exact ⟨fun h => absurd h (classifyForCancel_code texts e), fun h => absurd rfl h⟩
  next hji =>
    rw [List.getElem?_replicate] at hr
    split at hr
    next =>
      cases hr
      simp [Ne.symm hji]
    next => cases hr

theorem mapPgErr_ne_cancelled (table : String) (e : PgError) (reasons : List TransactCancelReason) :
    mapPgErr table e ≠ .transactionCancelled reasons := by
  unfold mapPgErr
  split <;> nofun

theorem classifyPoolError_ne_cancelled (e : PoolError) (reasons : List TransactCancelReason) :
    classifyPoolError e ≠ .transactionCancelled reasons := by
  cases e <;> nofun

/-- The call by what its operations come to. -/
theorem transactWriteRaw_cases (hacc : ∀ p ∈ ps, AcceptedOp m p)
    (hops : ps.mapM TransactWritePlanItem.op? = some ops) (texts : ErrorTexts) (faults : TxFaults)
    (db : Database m) :
    (transactWriteRaw texts faults db ops).2 ≠ .ok () ∧
      (∀ reasons, (transactWriteRaw texts faults db ops).2 ≠ .error (.transactionCancelled reasons)) ∧
      (faults.client ≠ none ∨ faults.start ≠ none ∨ faults.commit ≠ none) ∨
    (∃ db', transactWriteRaw texts faults db ops = (db', .ok ()) ∧
      applyAll m db.items ps = some (Database.items db') ∧
      ∀ i < ps.length, faults.operation i = none) ∨
    (∃ i e, transactWriteRaw texts faults db ops = (db, .error (intoCancelled texts e i ops.length)) ∧
      FirstFailure m faults.operation db.items ps i) := by
  unfold transactWriteRaw
  rcases faults.client with _ | e
  · rcases faults.start with _ | e
    · have hrun := runOps_cases hacc hops faults.operation 0 db
      simp only [Nat.zero_add] at hrun
      rcases hrun with ⟨db', hok, happly, hnone⟩ | ⟨i, e, herr, hfirst⟩
      · simp only [hok]
        rcases faults.commit with _ | ⟨e, committed⟩
        · exact .inr (.inl ⟨db', rfl, happly, hnone⟩)
        · left
          cases committed <;>
            exact ⟨nofun, fun reasons h => mapPgErr_ne_cancelled _ e reasons (Except.error.inj h),
              .inr (.inr nofun)⟩
      · simp only [herr]
        exact .inr (.inr ⟨i, e, rfl, hfirst⟩)
    · exact .inl ⟨nofun, fun reasons h => mapPgErr_ne_cancelled _ e reasons (Except.error.inj h),
        .inr (.inl nofun)⟩
  · exact .inl ⟨nofun, fun reasons h => classifyPoolError_ne_cancelled e reasons (Except.error.inj h),
      .inl nofun⟩

/-- A transaction that returns Ok has applied all its operations in order; one that is cancelled has
changed nothing and names the first operation that failed. With a connection, BEGIN and COMMIT it is
one of the two, Ok exactly when no operation fails. -/
theorem transact_write_sequential_or_cancelled {req : TransactWriteItemsRequest} {maxItems : Nat}
    (h : translateTransactWriteItems req m maxItems = .ok ps) (texts : ErrorTexts)
    (faults : TxFaults) (db : Database m) :
    ∃ ops, ps.mapM TransactWritePlanItem.op? = some ops ∧
      (∀ db', transactWriteRaw texts faults db ops = (db', .ok ()) →
        applyAll m db.items ps = some (Database.items db')) ∧
      (∀ db' reasons, transactWriteRaw texts faults db ops
          = (db', .error (.transactionCancelled reasons)) →
        db' = db ∧ reasons.length = req.transactItems.length ∧
        ∃ i, FirstFailure m faults.operation db.items ps i ∧
          ∀ j r, reasons[j]? = some r → (r.code = "None" ↔ j ≠ i)) ∧
      (faults.client = none → faults.start = none → faults.commit = none →
        ((∀ i < ps.length, faults.operation i = none) ∧ applyAll m db.items ps ≠ none ↔
          (transactWriteRaw texts faults db ops).2 = .ok ()) ∧
        ((transactWriteRaw texts faults db ops).2 = .ok () ∨
          ∃ reasons, (transactWriteRaw texts faults db ops).2
            = .error (.transactionCancelled reasons))) := by
  obtain ⟨hlen, htranslated⟩ := translateTransactWriteItems_accepted h
  have hacc : ∀ p ∈ ps, AcceptedOp m p := fun p hp => (htranslated p hp).1
  obtain ⟨ops, hops, hopslen⟩ := mapM_op?_isSome hacc
  refine ⟨ops, hops, ?_⟩
  rcases transactWriteRaw_cases hacc hops texts faults db with
    ⟨hok, hcancel, hfault⟩ | ⟨db', hrun, happly, hnone⟩ | ⟨i, e, hrun, hfirst⟩
  · refine ⟨?_, ?_, ?_⟩
    · intro db' hrun
      exact absurd (congrArg Prod.snd hrun) hok
    · intro db' reasons hrun
      exact absurd (congrArg Prod.snd hrun) (hcancel reasons)
    · intro hclient hstart hcommit
      rcases hfault with hf | hf | hf
      · exact absurd hclient hf
      · exact absurd hstart hf
      · exact absurd hcommit hf
  · refine ⟨?_, ?_, ?_⟩
    · intro db'' hrun'
      cases hrun.symm.trans hrun'
      exact happly
    · intro db'' reasons hrun'
      cases hrun.symm.trans hrun'
    · intro _ _ _
      rw [hrun, happly]
      exact ⟨⟨fun _ => rfl, fun _ => ⟨hnone, nofun⟩⟩, .inl rfl⟩
  · have hi : i < ops.length := by
      obtain ⟨_, p, _, hp, _⟩ := hfirst
      rw [hopslen]
      exact (List.getElem?_eq_some_iff.mp hp).1
    refine ⟨?_, ?_, ?_⟩
    · intro db' hrun'
      cases hrun.symm.trans hrun'
    · intro db' reasons hrun'
      obtain ⟨hdb, hreasons⟩ := Prod.mk.inj (hrun.symm.trans hrun')
      obtain ⟨hcount, hcodes⟩ := intoCancelled_reasons hi (Except.error.inj hreasons)
      exact ⟨hdb.symm, by rw [hcount, hopslen, hlen], i, hfirst, hcodes⟩
    · intro _ _ _
      rw [hrun]
      refine ⟨⟨?_, nofun⟩, .inr ⟨_, rfl⟩⟩
      rintro ⟨hnone, hall⟩
      have hil : i < ps.length := hopslen ▸ hi
      exact absurd (hfirst.applyAll_eq_none (hnone i hil)) hall

/-- Put an order, require another to be there. -/
def reserveRequest : TransactWriteItemsRequest where
  transactItems :=
    [⟨some ⟨"orders", OrderedMap.ofList [("id", .s "o1")],
        some (.attributeNotExists (.attr "id")), none⟩, none, none, none⟩,
      ⟨none, none, none, some ⟨"orders", OrderedMap.ofList [("id", .s "o2")],
        some (.attributeExists (.attr "id")), none⟩⟩]
  clientRequestToken := none

def orderTables : SchemaMap := ⟨fun _ => sampleSchema, fun _ => true⟩

def noFaults : TxFaults := ⟨none, none, fun _ => none, none⟩

def reservePlans : List TransactWritePlanItem :=
  [⟨"orders", .s "o1", none, .put (OrderedMap.ofList [("id", .s "o1")]),
      some ⟨.attributeNotExists (.attr "id"), .insertOnlyOnPk⟩, false⟩,
    ⟨"orders", .s "o2", none, .conditionCheck,
      some ⟨.attributeExists (.attr "id"), .simpleSql⟩, false⟩]

/-- On empty tables the put is rolled back, since the check after it fails. -/
theorem transact_write_sequential_or_cancelled_sample :
    translateTransactWriteItems reserveRequest orderTables 100 = .ok reservePlans ∧
    ∃ ops reasons, reservePlans.mapM TransactWritePlanItem.op? = some ops ∧
      (transactWriteRaw ⟨fun _ => "", fun _ => ""⟩ noFaults
        (fun _ => PgTable.empty : Database orderTables) ops).2
          = .error (.transactionCancelled reasons) := by
  have hplan : translateTransactWriteItems reserveRequest orderTables 100 = .ok reservePlans := rfl
  obtain ⟨ops, hops, _, _, hrun⟩ := transact_write_sequential_or_cancelled hplan
    ⟨fun _ => "", fun _ => ""⟩ noFaults (fun _ => PgTable.empty)
  obtain ⟨hok, hor⟩ := hrun rfl rfl rfl
  have hnone : applyAll orderTables
      (Database.items (fun _ => PgTable.empty : Database orderTables)) reservePlans = none := rfl
  refine ⟨hplan, ops, ?_⟩
  rcases hor with h | ⟨reasons, h⟩
  · exact absurd hnone (hok.mpr h).2
  · exact ⟨reasons, hops, h⟩

/-- Whatever fails, and be it the reply to COMMIT, the handler does not panic and leaves the
database as it was or as all operations in order leave it. -/
theorem transact_handler_all_or_nothing (texts : ErrorTexts) (faults : TxFaults) (maxItems : Nat)
    (db : Database m) (req : TransactWriteItemsRequest) :
    ∃ db' r, handleTransactWriteItems texts faults maxItems db req = some (db', r) ∧
      (r ≠ .ok () ∧ db' = db ∨ ∃ ps, translateTransactWriteItems req m maxItems = .ok ps ∧
        applyAll m db.items ps = some (Database.items db')) := by
  unfold handleTransactWriteItems
  rcases htranslate : translateTransactWriteItems req m maxItems with e | ps
  · exact ⟨db, _, rfl, .inl ⟨by rintro ⟨⟩, rfl⟩⟩
  · have hacc : ∀ p ∈ ps, AcceptedOp m p := fun p hp =>
      ((translateTransactWriteItems_accepted htranslate).2 p hp).1
    obtain ⟨ops, hops, _⟩ := mapM_op?_isSome hacc
    simp only [hops]
    refine ⟨_, _, rfl, ?_⟩
    unfold transactWriteRaw
    rcases faults.client with _ | e
    · rcases faults.start with _ | e
      · rcases runOps_cases hacc hops faults.operation 0 db with
          ⟨db', hok, happly, _⟩ | ⟨i, e, herr, _⟩
        · rw [hok]
          rcases faults.commit with _ | ⟨e, _ | _⟩
          · exact .inr ⟨ps, rfl, happly⟩
          · exact .inl ⟨by rintro ⟨⟩, rfl⟩
          · exact .inr ⟨ps, rfl, happly⟩
        · rw [herr]
          exact .inl ⟨by rintro ⟨⟩, rfl⟩
      · exact .inl ⟨by rintro ⟨⟩, rfl⟩
    · exact .inl ⟨by rintro ⟨⟩, rfl⟩

end Rektifier
