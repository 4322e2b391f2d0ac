import Rektifier.ConditionalLinear

namespace Rektifier

open Fallible Function

variable {action : ConditionalAction}

section

variable (shape : TableShape) (t : PgTable shape.baseKey)

/-- With no other session in between. -/
def ConditionalCall.passes (call : ConditionalCall) (fn : String) :
    Nat → Except BackendError (PgTable shape.baseKey × Option Json)
  | 0 => .error (budgetExceeded fn)
  | left + 1 => do
    let existing ← selectForUpdate shape t call.pk call.sk
    match ← call.exec shape t existing (← call.action.decide existing) with
    | some t => return (t, existing)
    | none => call.passes fn left

/-- The statements are those that the transactions run. -/
def ConditionalCall.raw (call : ConditionalCall) :
    Except BackendError (PgTable shape.baseKey × Option Json) :=
  match call.action with
  | .putWithCondition _ _ => do
    checkSkShape shape call.sk
    call.passes shape t "put_with_condition_raw" 3
  | .deleteWithCondition condition =>
    deleteWithConditionInsideTx shape t call.pk call.sk condition
  | .updateGeneralRmw _ => do
    checkSkShape shape call.sk
    call.passes shape t "update_general_rmw_raw" 3

def getItemRaw (pk : KeyValue) (sk : Option KeyValue) : Except BackendError (Option Json) := do
  checkSkShape shape sk
  let k ← pgResult ((shape.keyPredicate 1).eval shape.baseKey (keyParams pk sk))
  return t.items k

end

inductive StorageAction where
  | putItem (item : Json)
  | deleteItem
  | getItem
  | conditional (action : ConditionalAction)

/-- The statements are those the transactions run. -/
def StorageAction.raw (shape : TableShape) (t : PgTable shape.baseKey) (pk : KeyValue)
    (sk : Option KeyValue) :
    StorageAction → Except BackendError (PgTable shape.baseKey × Option Json)
  | .putItem item => putItemInsideTx shape t pk sk item
  | .deleteItem => deleteItemInsideTx shape t pk sk
  | .getItem => (getItemRaw shape t pk sk).map fun item => (t, item)
  | .conditional action => ConditionalCall.raw shape t ⟨pk, sk, action⟩

def StorageAction.left (old : Option Json) : StorageAction → Except BackendError (Option Json)
  | .putItem item => .ok (some item)
  | .deleteItem => .ok none
  | .getItem => .ok old
  | .conditional action => (action.decide old).map RowChange.left

def StorageAction.Stores (shape : TableShape) (k : PgKey) : StorageAction → Prop
  | .putItem item => generatedKey shape.baseKey item = .ok k
  | .deleteItem | .getItem => True
  | .conditional action => ∀ (t : PgTable shape.baseKey) item,
    action.decide (t.items k) = .ok (.store item) → generatedKey shape.baseKey item = .ok k

/-- One call after the other: the key, the action, and the item returned. -/
inductive StorageStep (shape : TableShape) (t : PgTable shape.baseKey) :
    PgKey × StorageAction × Option Json → PgTable shape.baseKey → Prop
  | call {pk : KeyValue} {sk : Option KeyValue} {k : PgKey} {action : StorageAction}
      {old : Option Json} {t' : PgTable shape.baseKey} : KeyFits shape.baseKey pk sk →
      addressedKey pk sk = .ok k → action.Stores shape k →
      action.raw shape t pk sk = .ok (t', old) → StorageStep shape t (k, action, old) t'

/-- The calls on a map from keys to items. -/
inductive MapStep (m : PgKey → Option Json) :
    PgKey × StorageAction × Option Json → (PgKey → Option Json) → Prop
  | call {k : PgKey} {action : StorageAction} {new : Option Json} :
      action.left (m k) = .ok new → MapStep m (k, action, m k) (update m k new)

section

variable {shape : TableShape} {t t' : PgTable shape.baseKey} {pk : KeyValue} {sk : Option KeyValue}
  {k : PgKey} {old : Option Json} (hfit : KeyFits shape.baseKey pk sk)
  (hk : addressedKey pk sk = .ok k)

include hfit hk

/-- Alone on its row, a conditional call needs one pass. -/
theorem ConditionalCall.passes_ok {fn : String} {left : Nat}
    (hstores : (StorageAction.conditional action).Stores shape k)
    (h : ConditionalCall.passes shape t ⟨pk, sk, action⟩ fn (left + 1) = .ok (t', old)) :
    old = t.items k ∧ ∃ change, action.decide old = .ok change ∧
      t'.items = update t.items k change.left := by
  obtain ⟨_, hselect, h⟩ := bind_ok h
  cases (selectForUpdate_found hfit t hk).symm.trans hselect
  obtain ⟨change, hdecide, h⟩ := bind_ok h
  obtain ⟨written, hexec, h⟩ := bind_ok h
  have hwritten : ∃ t'', written = some t'' ∧
      t''.items = update t.items k change.left := by
    cases change with
    | store item =>
      rcases writeLocked_cases hfit hk (hstores t item hdecide) t with
        ⟨_, t'', he, hwrote⟩ | ⟨_, e, he⟩
      · cases he.symm.trans hexec
        exact ⟨t'', rfl, hwrote.items⟩
      · cases he.symm.trans hexec
    | remove =>
      obtain ⟨t'', he, hitems⟩ := deleteIfFound_leaves hfit t hk
      obtain ⟨_, hdeleted, hsome⟩ := map_ok_iff.mp hexec
      cases he.symm.trans hdeleted
      exact ⟨t'', hsome.symm, hitems⟩
  obtain ⟨t'', rfl, hitems⟩ := hwritten
  cases h
  exact ⟨rfl, change, hdecide, hitems⟩

theorem ConditionalCall.raw_ok
    (hstores : (StorageAction.conditional action).Stores shape k)
    (h : ConditionalCall.raw shape t ⟨pk, sk, action⟩ = .ok (t', old)) :
    old = t.items k ∧ ∃ change, action.decide old = .ok change ∧
      t'.items = update t.items k change.left := by
  cases action with
  | putWithCondition | updateGeneralRmw =>
    obtain ⟨_, _, h⟩ := bind_ok h
    exact ConditionalCall.passes_ok hfit hk hstores h
  | deleteWithCondition condition =>
    obtain ⟨_, _, h⟩ := bind_ok h
    obtain ⟨_, hselect, h⟩ := bind_ok h
    cases (selectForUpdate_found hfit t hk).symm.trans hselect
    obtain ⟨_, hholds, h⟩ := bind_ok h
    obtain ⟨_, hdelete, h⟩ := bind_ok h
    cases h
    obtain ⟨_, he, hitems⟩ := deleteIfFound_leaves hfit t hk
    cases he.symm.trans hdelete
    exact ⟨rfl, .remove, bind_ok_iff.mpr ⟨_, hholds, rfl⟩, hitems⟩

theorem putItemInsideTx_ok {item : Json} (hgen : generatedKey shape.baseKey item = .ok k)
    (h : putItemInsideTx shape t pk sk item = .ok (t', old)) :
    old = t.items k ∧ t'.items = update t.items k (some item) := by
  have hleaves := putItemInsideTx_leaves hfit t hk hgen
  rw [h] at hleaves
  constructor
  · obtain ⟨_, _, h⟩ := bind_ok h
    obtain ⟨_, hexec, h⟩ := bind_ok h
    cases h
    obtain ⟨_, hprev, hexec⟩ := bind_ok (pgResult_ok hexec)
    cases ((putSql_prev hfit item).trans hk).symm.trans hprev
    obtain ⟨_, _, hexec⟩ := bind_ok hexec
    obtain ⟨_, _, hexec⟩ := bind_ok hexec
    obtain ⟨_, _, hexec⟩ := bind_ok hexec
    split at hexec
    · obtain ⟨_, _, hexec⟩ := bind_ok hexec
      cases hexec
      rfl
    · obtain ⟨_, _, hexec⟩ := bind_ok hexec
      obtain ⟨_, _, hexec⟩ := bind_ok hexec
      cases hexec
      rfl
  · split at hleaves
    · obtain ⟨_, he, hitems⟩ := hleaves
      cases he
      exact hitems
    · obtain ⟨_, he⟩ := hleaves
      cases he

end

theorem StorageStep.mapStep {shape : TableShape} {t t' : PgTable shape.baseKey}
    {e : PgKey × StorageAction × Option Json} (h : StorageStep shape t e t') :
    MapStep t.items e t'.items := by
  obtain @⟨pk, sk, k, action, old, _, hfit, hk, hstores, h⟩ := h
  have hdone : old = t.items k ∧ ∃ new, action.left old = .ok new ∧
      t'.items = update t.items k new := by
    cases action with
    | putItem item =>
      obtain ⟨hold, hitems⟩ := putItemInsideTx_ok hfit hk hstores h
      exact ⟨hold, _, rfl, hitems⟩
    | deleteItem =>
      obtain ⟨_, _, h⟩ := bind_ok h
      cases (execDelete_found hfit t hk).symm.trans h
      exact ⟨rfl, _, rfl, items_deleteRow t k⟩
    | getItem =>
      obtain ⟨_, hget, h⟩ := map_ok_iff.mp h
      cases h
      obtain ⟨_, _, hget⟩ := bind_ok hget
      cases (selectForUpdate_found hfit t hk).symm.trans hget
      exact ⟨rfl, _, rfl, (update_eq_self k t.items).symm⟩
    | conditional action =>
      obtain ⟨hold, change, hdecide, hitems⟩ := ConditionalCall.raw_ok hfit hk hstores h
      exact ⟨hold, _, by rw [StorageAction.left, hdecide]; rfl, hitems⟩
  obtain ⟨rfl, new, hleft, hitems⟩ := hdone
  rw [hitems]
  exact .call hleft

/-- Storage calls that run one after another are the calls on a map from keys to items: each returns
the item under its key, leaves there what it makes of that item, and changes nothing else. -/
theorem storage_calls_refine_map {shape : TableShape} {t t' : PgTable shape.baseKey}
    {trace : List (PgTable shape.baseKey × PgKey × StorageAction × Option Json)}
    (hrun : Run (StorageStep shape) t trace t') :
    Run MapStep t.items (trace.map fun e => (e.1.items, e.2)) t'.items :=
  hrun.simulate (g := id) (fun _ _ _ _ _ => trivial) (fun _ _ _ h (_ : True) => h.mapStep) trivial

/-- An order put, read, deleted if it is there, and created again if it is not. -/
theorem storage_calls_refine_map_sample : ∃ t : sampleSchema.Table, ∃ trace,
    Run (StorageStep sampleSchema.writeShape) PgTable.empty trace t ∧
    trace.map Prod.snd = [(orderOneKey, .putItem (Item.toValue orderOne), none),
      (orderOneKey, .getItem, some (Item.toValue orderOne)),
      (orderOneKey, .conditional (.deleteWithCondition Option.isSome),
        some (Item.toValue orderOne)),
      (orderOneKey, .conditional createOrder.action, none)] ∧
    Run MapStep (fun _ => none) (trace.map fun e => (e.1.items, e.2)) t.items := by
  have hkey := createOrder_on.key
  have hremoves : (StorageAction.conditional (.deleteWithCondition Option.isSome)).Stores
      sampleSchema.writeShape orderOneKey := by
    intro t item h
    obtain ⟨_, _, h⟩ := bind_ok h
    cases h
  have hrun : Run (StorageStep sampleSchema.writeShape) PgTable.empty _ _ :=
    .cons (.call createOrder_on.fits hkey
        (show (StorageAction.putItem (Item.toValue orderOne)).Stores _ _ from rfl) rfl)
      (.cons (.call createOrder_on.fits hkey
          (show StorageAction.getItem.Stores _ _ from trivial) rfl)
        (.cons (.call createOrder_on.fits hkey hremoves rfl)
          (.cons (.call createOrder_on.fits hkey (show
            (StorageAction.conditional createOrder.action).Stores _ _ from createOrder_on.stores)
            rfl) (.nil _))))
  exact ⟨_, _, hrun, rfl, storage_calls_refine_map hrun⟩

end Rektifier
