import Rektifier.SingleStatements

namespace Rektifier

/-- The closures of a call that reads its row under lock. -/
inductive ConditionalAction where
  | putWithCondition (item : Json) (condition : Option Json → Bool)
  | deleteWithCondition (condition : Option Json → Bool)
  | updateGeneralRmw (apply : Option Json → Except BackendError UpdateDecision)

structure ConditionalCall where
  pk : KeyValue
  sk : Option KeyValue
  action : ConditionalAction

inductive RowChange where
  | store (item : Json)
  | remove
deriving DecidableEq

def RowChange.left : RowChange → Option Json
  | .store item => some item
  | .remove => none

namespace ConditionalAction

/-- What the call does about the row it read; an error rolls back. -/
def decide (action : ConditionalAction) (existing : Option Json) : Except BackendError RowChange :=
  match action with
  | putWithCondition item condition => do
    checkHolds condition existing
    return .store item
  | deleteWithCondition condition => do
    checkHolds condition existing
    return .remove
  | updateGeneralRmw apply => do
    let item ← requireApply (← apply existing)
    return .store item

/-- `MAX_ITERS`; a delete makes one pass. -/
def passes : ConditionalAction → Nat
  | putWithCondition _ _ | updateGeneralRmw _ => 3
  | deleteWithCondition _ => 1

end ConditionalAction

def budgetExceeded (fn : String) : BackendError :=
  .other (fn ++ " exceeded retry budget (possible runaway race contention)")

/-- What a call without a pass left returns. -/
def ConditionalAction.exhausted : ConditionalAction → Option BackendError
  | putWithCondition _ _ => some (budgetExceeded "put_with_condition_raw")
  | deleteWithCondition _ => none
  | updateGeneralRmw _ => some (budgetExceeded "update_general_rmw_raw")

/-- The statement of a change; `none` when it wrote no row. -/
def ConditionalCall.exec (shape : TableShape) (t : PgTable shape.baseKey) (call : ConditionalCall)
    (existing : Option Json) : RowChange → Except BackendError (Option (PgTable shape.baseKey))
  | .store item => writeLocked shape t call.pk call.sk existing item
  | .remove => (deleteIfFound shape t call.pk call.sk existing).map some

/-- The call addresses the key, and what it stores there has it. -/
structure ConditionalCall.On (shape : TableShape) (k : PgKey) (call : ConditionalCall) : Prop where
  fits : KeyFits shape.baseKey call.pk call.sk
  key : addressedKey call.pk call.sk = .ok k
  stores : ∀ (t : PgTable shape.baseKey) item,
    call.action.decide (t.items k) = .ok (.store item) → generatedKey shape.baseKey item = .ok k

inductive CallPhase where
  | idle
  /-- about to SELECT … FOR UPDATE, with so many passes left -/
  | reading (call : ConditionalCall) (left : Nat)
  /-- about to run the statement it has decided on -/
  | writing (call : ConditionalCall) (left : Nat) (existing : Option Json) (change : RowChange)
  /-- about to COMMIT -/
  | committing (call : ConditionalCall) (existing : Option Json) (change : RowChange)
  /-- returned: the pre-image, or an error -/
  | returned (result : Except BackendError (Option Json))

structure CommittedCall where
  id : CallId
  call : ConditionalCall
  /-- the pre-image the call returns -/
  old : Option Json
  /-- the item the call has left under the key -/
  new : Option Json

def CommittedCall.link (c : CommittedCall) : Link (Option Json) := ⟨c.old, c.new⟩

/-- The calls on one key under READ COMMITTED: the committed table, the holder of the row's lock and
its uncommitted write, the calls, and those that committed, in order. -/
structure KeyState (shape : TableShape) where
  table : PgTable shape.baseKey
  lock : Option CallId
  pending : Option (PgTable shape.baseKey)
  phase : CallId → CallPhase
  history : List CommittedCall

namespace KeyState

variable {shape : TableShape}

def initial (t : PgTable shape.baseKey) : KeyState shape := ⟨t, none, none, fun _ => .idle, []⟩

def withPhase (s : KeyState shape) (c : CallId) (phase : CallPhase) : KeyState shape :=
  { s with phase := Function.update s.phase c phase }

/-- The end of a transaction drops its lock and what it has not committed. -/
def release (s : KeyState shape) (c : CallId) : KeyState shape :=
  if s.lock = some c then { s with lock := none, pending := none } else s

/-- The table a COMMIT makes visible. -/
def visible (s : KeyState shape) (c : CallId) : PgTable shape.baseKey :=
  if s.lock = some c then s.pending.getD s.table else s.table

def afterCommit (s : KeyState shape) (c : CallId) (call : ConditionalCall) (existing : Option Json)
    (change : RowChange) : KeyState shape :=
  { (s.release c).withPhase c (.returned (.ok existing)) with
    table := s.visible c
    history := s.history ++ [⟨c, call, existing, change.left⟩] }

end KeyState

inductive KeyEvent where
  | start (c : CallId) (call : ConditionalCall)
  | read (c : CallId)
  | refuse (c : CallId)
  | write (c : CallId)
  | skip (c : CallId)
  | retry (c : CallId)
  | commit (c : CallId)
  | exhaust (c : CallId)
  | abort (c : CallId) (e : BackendError)

/-- One statement of one call. SELECT … FOR UPDATE waits for the lock of a row that is there; of one
that is not it returns at once and locks nothing. An INSERT waits for an uncommitted write of the
row. -/
inductive KeyStep (shape : TableShape) (k : PgKey) (s : KeyState shape) :
    KeyEvent → KeyState shape → Prop
  | start {c : CallId} {call : ConditionalCall} : s.phase c = .idle → call.On shape k →
      KeyStep shape k s (.start c call) (s.withPhase c (.reading call call.action.passes))
  | read {c : CallId} {call : ConditionalCall} {left : Nat} {existing : Option Json}
      {change : RowChange} : s.phase c = .reading call (left + 1) →
      s.lock = none ∨ s.table.items k = none →
      selectForUpdate shape s.table call.pk call.sk = .ok existing →
      call.action.decide existing = .ok change →
      KeyStep shape k s (.read c)
        { s.withPhase c (.writing call left existing change) with
          lock := if existing.isSome then some c else s.lock }
  | refuse {c : CallId} {call : ConditionalCall} {left : Nat} {existing : Option Json}
      {e : BackendError} : s.phase c = .reading call (left + 1) →
      s.lock = none ∨ s.table.items k = none →
      selectForUpdate shape s.table call.pk call.sk = .ok existing →
      call.action.decide existing = .error e →
      KeyStep shape k s (.refuse c) (s.withPhase c (.returned (.error e)))
  | write {c : CallId} {call : ConditionalCall} {left : Nat} {existing : Option Json}
      {change : RowChange} {t : PgTable shape.baseKey} :
      s.phase c = .writing call left existing change → s.pending = none →
      (existing, change) ≠ (none, .remove) →
      call.exec shape s.table existing change = .ok (some t) →
      KeyStep shape k s (.write c)
        { s.withPhase c (.committing call existing change) with lock := some c, pending := some t }
  | skip {c : CallId} {call : ConditionalCall} {left : Nat} :
      s.phase c = .writing call left none .remove →
      KeyStep shape k s (.skip c) (s.withPhase c (.committing call none .remove))
  | retry {c : CallId} {call : ConditionalCall} {left : Nat} {existing : Option Json}
      {change : RowChange} : s.phase c = .writing call left existing change → s.pending = none →
      call.exec shape s.table existing change = .ok none →
      KeyStep shape k s (.retry c) (s.withPhase c (.reading call left))
  | commit {c : CallId} {call : ConditionalCall} {existing : Option Json} {change : RowChange} :
      s.phase c = .committing call existing change →
      KeyStep shape k s (.commit c) (s.afterCommit c call existing change)
  | exhaust {c : CallId} {call : ConditionalCall} {e : BackendError} :
      s.phase c = .reading call 0 → call.action.exhausted = some e →
      KeyStep shape k s (.exhaust c) (s.withPhase c (.returned (.error e)))
  | abort {c : CallId} {e : BackendError} : s.phase c ≠ .idle →
      (∀ r, s.phase c ≠ .returned r) →
      KeyStep shape k s (.abort c e) ((s.release c).withPhase c (.returned (.error e)))

end Rektifier
