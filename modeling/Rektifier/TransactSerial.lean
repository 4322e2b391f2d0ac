import Rektifier.TransactAtomic
import Rektifier.TransactHolds

namespace Rektifier

open List Function

/-- In some order of the calls each runs on what those before it left, all its operations go
through, and the items come out the same. -/
def Serializable (m : SchemaMap) (σ : Items) (calls : List (List TransactWritePlanItem))
    (τ : Items) : Prop :=
  ∃ order : List (List TransactWritePlanItem), order.Perm calls ∧ applyAll m σ order.flatten = some τ

variable {m : SchemaMap} {s s' : IsolationState m} {e : IsolationEvent} {σ : Items}

/-- A call commits while every row it looked for and did not find is still missing. -/
def AbsencesLast (s : IsolationState m) (e : IsolationEvent) : Prop :=
  ∀ c tx, e = .commit c → s.phase c = .active tx → ∀ r ∈ tx.missed, s.db.items r.1 r.2 = none

structure IsolationState.Sound (σ : Items) (s : IsolationState m) : Prop where
  active : ∀ c tx, s.phase c = .active tx → ∃ base, TxHolds s c tx base
  serial : applyAll m σ s.committed.flatten = some s.db.items

theorem IsolationState.start_sound (db : Database m) :
    IsolationState.Sound db.items (IsolationState.start db) :=
  ⟨nofun, rfl⟩

theorem become_active {s : IsolationState m} {c d : CallId} {phase : TxPhase m} {tx : TxState m}
    (h : (s.become c phase).phase d = .active tx) :
    d = c ∧ phase = .active tx ∨ d ≠ c ∧ s.phase d = .active tx := by
  by_cases hd : d = c
  · subst hd
    simp only [IsolationState.become, update_self] at h
    exact .inl ⟨rfl, h⟩
  · simp only [IsolationState.become, update_of_ne hd] at h
    exact .inr ⟨hd, h⟩

namespace TxHolds

variable {c d : CallId} {tx other : TxState m} {base base' : Items}

theorem become (h : TxHolds s c tx base) (phase : TxPhase m) :
    TxHolds (s.become d phase) c tx base :=
  h.transfer (fun _ => .rfl) fun _ => .inl ⟨rfl, rfl⟩

theorem start (s : IsolationState m) (c : CallId) {req : TransactWriteItemsRequest}
    {maxItems : Nat} {ps : List TransactWritePlanItem}
    (hplan : translateTransactWriteItems req m maxItems = .ok ps) :
    TxHolds s c ⟨[], ps, s.db, s.version, [], []⟩ s.db.items where
  accepted p hp := ((translateTransactWriteItems_accepted hplan).2 p hp).1
  applied := rfl
  addressed := nofun
  locked _ _ := rfl
  missed := nofun
  written := nofun
  unwritten _ _ := rfl
  older _ := Nat.le_refl _
  current _ _ _ := rfl

theorem release_lock (s : IsolationState m) (hd : d ≠ c) (r : RowKey) :
    (s.release c).lock r = some d ↔ s.lock r = some d := by
  simp only [IsolationState.release]
  split
  next hheld => simp [hheld, Ne.symm hd]
  next => exact .rfl

theorem release (h : TxHolds s d tx base) (hd : d ≠ c) : TxHolds (s.release c) d tx base :=
  h.transfer (release_lock s hd) fun _ => .inl ⟨rfl, rfl⟩

theorem lock_other (h : TxHolds s d other base) (hd : d ≠ c) {r : RowKey}
    (hfree : s.lock r = some c ∨ s.lock r = none) :
    TxHolds { s with lock := update s.lock r (some c) } d other base := by
  refine h.transfer ?_ fun _ => .inl ⟨rfl, rfl⟩
  intro r'
  by_cases hr : r' = r
  · subst hr
    simp only [update_self]
    rcases hfree with hfree | hfree <;> simp [hfree, Ne.symm hd]
  · simp only [update_of_ne hr]

/-- Another call's commit changes no row this one has locked. -/
theorem afterCommit (h : TxHolds s d other base') (hc : TxHolds s c tx base) (hd : d ≠ c) :
    TxHolds (s.afterCommit tx) d other base' := by
  refine h.transfer (fun _ => .rfl) ?_
  intro r
  simp only [IsolationState.afterCommit, contains_iff_mem, items_merge]
  by_cases hw : r ∈ tx.written
  · right
    have hheld := hc.written r hw
    refine ⟨by simp [hw], ?_⟩
    rw [hheld]
    intro hsame
    exact hd (Option.some.inj hsame).symm
  · left
    simp [hw]

end TxHolds

theorem IsolationStep.sound (hstep : IsolationStep s e s') (hlast : AbsencesLast s e)
    (h : s.Sound σ) : s'.Sound σ := by
  cases hstep with
  | @start c req maxItems ps hidle hplan =>
    refine ⟨?_, h.serial⟩
    intro d other hd
    rcases become_active hd with ⟨rfl, hphase⟩ | ⟨hne, hother⟩
    · cases hphase
      exact ⟨s.db.items, (TxHolds.start s d hplan).become _⟩
    · obtain ⟨base, hbase⟩ := h.active d other hother
      exact ⟨base, hbase.become _⟩
  | @locked c tx p rest op r view hphase htodo hop hr hlock hav hrun =>
    refine ⟨?_, h.serial⟩
    intro d other hd
    rcases become_active hd with ⟨rfl, hmoved⟩ | ⟨hne, hother⟩
    · cases hmoved
      obtain ⟨base, hbase⟩ := h.active d tx hphase
      exact ⟨_, (hbase.afterLocked htodo hop hr hlock hav hrun).become _⟩
    · obtain ⟨base, hbase⟩ := h.active d other hother
      exact ⟨base, (hbase.lock_other hne (hav.imp id And.left)).become _⟩
  | @missed c tx p rest op r view hphase htodo hop hr hlock hrun =>
    refine ⟨?_, h.serial⟩
    intro d other hd
    rcases become_active hd with ⟨rfl, hmoved⟩ | ⟨hne, hother⟩
    · cases hmoved
      obtain ⟨base, hbase⟩ := h.active d tx hphase
      exact ⟨base, (hbase.afterMissed htodo hop hr hlock hrun).become _⟩
    · obtain ⟨base, hbase⟩ := h.active d other hother
      exact ⟨base, hbase.become _⟩
  | @abort c tx hphase =>
    refine ⟨?_, h.serial⟩
    intro d other hd
    rcases become_active hd with ⟨rfl, hmoved⟩ | ⟨hne, hother⟩
    · cases hmoved
    · obtain ⟨base, hbase⟩ := h.active d other hother
      exact ⟨base, (hbase.release hne).become _⟩
  | @commit c tx hphase htodo =>
    obtain ⟨base, hbase⟩ := h.active c tx hphase
    refine ⟨?_, ?_⟩
    · intro d other hd
      rcases become_active hd with ⟨rfl, hmoved⟩ | ⟨hne, hother⟩
      · cases hmoved
      · obtain ⟨base', hbase'⟩ := h.active d other hother
        exact ⟨base', ((hbase'.afterCommit hbase hne).release hne).become _⟩
    · have hcall := hbase.commit_applies (hlast c tx rfl hphase)
      change applyAll m σ (s.committed ++ [tx.done]).flatten = _
      rw [flatten_append, flatten_singleton]
      exact applyAll_append h.serial hcall

/-- Calls that commit while the rows they did not find are still missing are serializable, in the
order of their commits. -/
theorem transact_writes_serializable {db : Database m}
    {trace : List (IsolationState m × IsolationEvent)}
    (hrun : Run IsolationStep (IsolationState.start db) trace s)
    (hlast : ∀ step ∈ trace, AbsencesLast step.1 step.2) :
    Serializable m db.items s.committed s.db.items := by
  have hsound : s.Sound db.items :=
    hrun.invariant (IsolationState.Sound db.items) (fun _ _ _ hstep hl h => hstep.sound hl h) hlast
      (IsolationState.start_sound db)
  exact ⟨s.committed, .refl _, hsound.serial⟩

/-- Create order `created` unless there is an order `other`. -/
def createUnless (created other : String) : TransactWriteItemsRequest where
  transactItems :=
    [⟨none, none, none, some ⟨"orders", OrderedMap.ofList [("id", .s other)],
        some (.attributeNotExists (.attr "id")), none⟩⟩,
      ⟨some ⟨"orders", OrderedMap.ofList [("id", .s created)], none, none⟩, none, none, none⟩]
  clientRequestToken := none

def requireMissing (other : String) : TransactWritePlanItem :=
  ⟨"orders", .s other, none, .conditionCheck,
    some ⟨.attributeNotExists (.attr "id"), .insertOnlyOnPk⟩, false⟩

def putNew (created : String) : TransactWritePlanItem :=
  ⟨"orders", .s created, none, .put (OrderedMap.ofList [("id", .s created)]), none, false⟩

def createUnlessPlans (created other : String) : List TransactWritePlanItem :=
  [requireMissing other, putNew created]

def ordersRow (id : String) : RowKey := ("orders", .text id, none)

def noOrders : Database orderTables := fun _ => PgTable.empty

theorem createUnless_first :
    translateTransactWriteItems (createUnless "o1" "o2") orderTables 100
      = .ok (createUnlessPlans "o1" "o2") := rfl

theorem createUnless_second :
    translateTransactWriteItems (createUnless "o2" "o1") orderTables 100
      = .ok (createUnlessPlans "o2" "o1") := rfl

def creating (created other : String) : TxState orderTables :=
  ⟨[], createUnlessPlans created other, noOrders, fun _ => 0, [], []⟩

def checked (created other : String) : TxState orderTables :=
  (creating created other).afterMissed (requireMissing other) [putNew created] (ordersRow other) false
    noOrders

theorem orders_unchanged : update noOrders "orders" PgTable.empty = noOrders :=
  update_eq_self "orders" noOrders

/-- Both calls have looked for an order and found none; what they looked for is not locked. -/
def bothChecked (other : String) : IsolationState orderTables :=
  let started := (IsolationState.start noOrders).become 0 (.active (creating "o1" "o2"))
  ((started.become 1 (.active (creating "o2" other))).become 0 (.active (checked "o1" "o2"))).become 1
    (.active (checked "o2" other))

theorem bothChecked_run {other : String}
    (h : translateTransactWriteItems (createUnless "o2" other) orderTables 100
      = .ok (createUnlessPlans "o2" other)) :
    ∃ trace, Run IsolationStep (IsolationState.start noOrders) trace (bothChecked other) ∧
      trace.map Prod.snd = [.start 0, .start 1, .operation 0, .operation 1] := by
  let s₀ : IsolationState orderTables := IsolationState.start noOrders
  let s₁ := s₀.become 0 (.active (creating "o1" "o2"))
  let s₂ := s₁.become 1 (.active (creating "o2" other))
  let s₃ := s₂.become 0 (.active (checked "o1" "o2"))
  have h₁ : IsolationStep s₀ (.start 0) s₁ := .start rfl createUnless_first
  have h₂ : IsolationStep s₁ (.start 1) s₂ := .start rfl h
  have h₃ : IsolationStep s₂ (.operation 0) s₃ :=
    .missed rfl rfl rfl rfl rfl (congrArg Except.ok orders_unchanged)
  have h₄ : IsolationStep s₃ (.operation 1) (bothChecked other) :=
    .missed rfl rfl rfl rfl rfl (congrArg Except.ok orders_unchanged)
  exact ⟨_, .cons h₁ (.cons h₂ (.cons h₃ (.cons h₄ (.nil _)))), rfl⟩

/-- Two calls each create an order unless the other's is there. Both find nothing, so neither locks
what it looked for, and both commit; in either order the second would have been refused. -/
theorem crossed_checks_both_commit :
    ∃ trace s, Run IsolationStep (IsolationState.start noOrders) trace s ∧
      s.committed = [createUnlessPlans "o1" "o2", createUnlessPlans "o2" "o1"] ∧
      ¬ Serializable orderTables noOrders.items s.committed s.db.items := by
  obtain ⟨trace, hchecked, _⟩ := bothChecked_run createUnless_second
  let s₄ := bothChecked "o1"
  obtain ⟨v, hv⟩ : ∃ v, ((putNew "o1").op?.get rfl).run
      (s₄.viewFor 0 (checked "o1" "o2") (ordersRow "o1")) none = .ok v := ⟨_, rfl⟩
  let s₅ := { s₄ with lock := update s₄.lock (ordersRow "o1") (some 0) }.become 0
    (.active ((checked "o1" "o2").afterLocked (putNew "o1") [] (ordersRow "o1") v))
  have h₅ : IsolationStep s₄ (.operation 0) s₅ :=
    .locked rfl rfl rfl rfl rfl (.inr ⟨rfl, .inl rfl⟩) hv
  obtain ⟨w, hw⟩ : ∃ w, ((putNew "o2").op?.get rfl).run
      (s₅.viewFor 1 (checked "o2" "o1") (ordersRow "o2")) none = .ok w := ⟨_, rfl⟩
  let s₆ := { s₅ with lock := update s₅.lock (ordersRow "o2") (some 1) }.become 1
    (.active ((checked "o2" "o1").afterLocked (putNew "o2") [] (ordersRow "o2") w))
  have h₆ : IsolationStep s₅ (.operation 1) s₆ :=
    .locked rfl rfl rfl rfl rfl (.inr ⟨rfl, .inl rfl⟩) hw
  let s₇ := ((s₆.afterCommit ((checked "o1" "o2").afterLocked (putNew "o1") [] (ordersRow "o1") v)
    ).release 0).become 0 .returned
  have h₇ : IsolationStep s₆ (.commit 0) s₇ := .commit rfl rfl
  have h₈ : IsolationStep s₇ (.commit 1) _ := .commit rfl rfl
  refine ⟨_, _, hchecked.append (.cons h₅ (.cons h₆ (.cons h₇ (.cons h₈ (.nil _))))), rfl, ?_⟩
  rintro ⟨order, hperm, hserial⟩
  have hcases : order = [createUnlessPlans "o1" "o2", createUnlessPlans "o2" "o1"] ∨
      order = [createUnlessPlans "o2" "o1", createUnlessPlans "o1" "o2"] := perm_pair.mp hperm
  rcases hcases with rfl | rfl
  · cases hserial
  · cases hserial

/-- The first commits while the order it did not find is still missing; the second, which creates
it, can only come after. -/
theorem transact_writes_serializable_overlap :
    ∃ trace s, Run IsolationStep (IsolationState.start noOrders) trace s ∧
      s.committed = [createUnlessPlans "o1" "o2", createUnlessPlans "o2" "o3"] ∧
      Serializable orderTables noOrders.items s.committed s.db.items := by
  obtain ⟨trace, hchecked, hevents⟩ := @bothChecked_run "o3" rfl
  let s₄ := bothChecked "o3"
  obtain ⟨v, hv⟩ : ∃ v, ((putNew "o1").op?.get rfl).run
      (s₄.viewFor 0 (checked "o1" "o2") (ordersRow "o1")) none = .ok v := ⟨_, rfl⟩
  let s₅ := { s₄ with lock := update s₄.lock (ordersRow "o1") (some 0) }.become 0
    (.active ((checked "o1" "o2").afterLocked (putNew "o1") [] (ordersRow "o1") v))
  have h₅ : IsolationStep s₄ (.operation 0) s₅ :=
    .locked rfl rfl rfl rfl rfl (.inr ⟨rfl, .inl rfl⟩) hv
  let s₆ := ((s₅.afterCommit ((checked "o1" "o2").afterLocked (putNew "o1") [] (ordersRow "o1") v)
    ).release 0).become 0 .returned
  have h₆ : IsolationStep s₅ (.commit 0) s₆ := .commit rfl rfl
  obtain ⟨w, hw⟩ : ∃ w, ((putNew "o2").op?.get rfl).run
      (s₆.viewFor 1 (checked "o2" "o3") (ordersRow "o2")) none = .ok w := ⟨_, rfl⟩
  let s₇ := { s₆ with lock := update s₆.lock (ordersRow "o2") (some 1) }.become 1
    (.active ((checked "o2" "o3").afterLocked (putNew "o2") [] (ordersRow "o2") w))
  have h₇ : IsolationStep s₆ (.operation 1) s₇ :=
    .locked rfl rfl rfl rfl rfl (.inr ⟨rfl, .inl rfl⟩) hw
  have h₈ : IsolationStep s₇ (.commit 1) _ := .commit rfl rfl
  have hrun := hchecked.append (.cons h₅ (.cons h₆ (.cons h₇ (.cons h₈ (.nil _)))))
  refine ⟨_, _, hrun, rfl, transact_writes_serializable hrun ?_⟩
  intro step hstep c tx hc hphase r hr
  rcases mem_append.mp hstep with hstep | hstep
  · have hmem := mem_map_of_mem (f := Prod.snd) hstep
    rw [hevents, hc] at hmem
    simp at hmem
  simp only [mem_cons, not_mem_nil, or_false] at hstep
  rcases hstep with rfl | rfl | rfl | rfl <;> cases hc
  · exact rfl
  · cases hphase
    obtain rfl := mem_singleton.mp hr
    exact rfl

end Rektifier
