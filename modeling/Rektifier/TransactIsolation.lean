import Rektifier.SingleStatements

namespace Rektifier

/-- The table's name and the row's key. -/
abbrev RowKey := String × PgKey

def TransactWritePlanItem.rowKey? (p : TransactWritePlanItem) : Option RowKey :=
  (addressedKey p.pk p.sk).toOption.map (Prod.mk p.tableName)

def PgTable.merge {bk : BaseKey} (t other : PgTable bk) (taken : PgKey → Bool) : PgTable bk where
  rows k := if taken k then other.rows k else t.rows k
  keyed k row h := by
    split at h
    next => exact other.keyed k row h
    next => exact t.keyed k row h

/-- `db` with the listed rows as `other` has them. -/
def Database.merge {m : SchemaMap} (db other : Database m) (rows : List RowKey) : Database m :=
  fun name => (db name).merge (other name) fun k => rows.contains (name, k)

/-- SELECT FOR UPDATE and DELETE lock only what they find. -/
def TransactWritePlanItem.takesLock (p : TransactWritePlanItem) (existing : Option Json) : Bool :=
  existing.isSome || p.kind.writes

/-- A new version of the row, or none. -/
def TransactWritePlanItem.changes (p : TransactWritePlanItem) (existing : Option Json) : Bool :=
  match p.kind with
  | .put _ | .update _ _ => true
  | .delete => existing.isSome
  | .conditionCheck => false

/-- A put without condition is the upsert alone, which reads no row of the snapshot. -/
def TransactWritePlanItem.blind (p : TransactWritePlanItem) : Bool :=
  match p.kind, p.condition with
  | .put _, none => true
  | _, _ => false

/-- `view` is the snapshot with the call's own writes, `seen` the row versions of the snapshot;
`missed` are the rows it looked for, did not find and so did not lock. -/
structure TxState (m : SchemaMap) where
  done : List TransactWritePlanItem
  todo : List TransactWritePlanItem
  view : Database m
  seen : RowKey → Nat
  written : List RowKey
  missed : List RowKey

inductive TxPhase (m : SchemaMap) where
  | idle
  | active (tx : TxState m)
  | returned

/-- The committed rows, how often each was changed, who holds each row's lock, and the operations of
the committed calls, in order. -/
structure IsolationState (m : SchemaMap) where
  db : Database m
  version : RowKey → Nat
  lock : RowKey → Option CallId
  phase : CallId → TxPhase m
  committed : List (List TransactWritePlanItem)

inductive IsolationEvent where
  | start (c : CallId)
  | operation (c : CallId)
  | abort (c : CallId)
  | commit (c : CallId)

namespace IsolationState

variable {m : SchemaMap}

def start (db : Database m) : IsolationState m :=
  ⟨db, fun _ => 0, fun _ => none, fun _ => .idle, []⟩

def become (s : IsolationState m) (c : CallId) (phase : TxPhase m) : IsolationState m :=
  { s with phase := Function.update s.phase c phase }

def release (s : IsolationState m) (c : CallId) : IsolationState m :=
  { s with lock := fun r => if s.lock r = some c then none else s.lock r }

/-- The call holds the lock already, or nobody does and the row is the version of its snapshot. A
row gone by now can be inserted, by a call that did not find it or did not look. -/
def Available (s : IsolationState m) (c : CallId) (tx : TxState m) (p : TransactWritePlanItem)
    (r : RowKey) : Prop :=
  s.lock r = some c ∨ s.lock r = none ∧ (s.version r = tx.seen r ∨
    s.db.items r.1 r.2 = none ∧ (p.blind = true ∨ tx.view.items r.1 r.2 = none))

/-- A locking statement acts on the row it has locked. -/
def viewFor (s : IsolationState m) (c : CallId) (tx : TxState m) (r : RowKey) : Database m :=
  if s.lock r = some c then tx.view else tx.view.merge s.db [r]

def afterCommit (s : IsolationState m) (tx : TxState m) : IsolationState m :=
  { s with
    db := s.db.merge tx.view tx.written
    version := fun r => if tx.written.contains r then s.version r + 1 else s.version r
    committed := s.committed ++ [tx.done] }

end IsolationState

def TxState.afterLocked {m : SchemaMap} (tx : TxState m) (p : TransactWritePlanItem)
    (rest : List TransactWritePlanItem) (r : RowKey) (view : Database m) : TxState m :=
  { tx with
    done := tx.done ++ [p]
    todo := rest
    view := view
    written := if p.changes (tx.view.items r.1 r.2) then r :: tx.written else tx.written }

def TxState.afterMissed {m : SchemaMap} (tx : TxState m) (p : TransactWritePlanItem)
    (rest : List TransactWritePlanItem) (r : RowKey) (held : Bool) (view : Database m) :
    TxState m :=
  { tx with
    done := tx.done ++ [p]
    todo := rest
    view := view
    missed := if held then tx.missed else r :: tx.missed }

/-- Calls under REPEATABLE READ. A statement that waits for a lock is a step that cannot be taken
yet; one that meets a row changed since the snapshot fails with 40001, which is an abort. -/
inductive IsolationStep {m : SchemaMap} :
    IsolationState m → IsolationEvent → IsolationState m → Prop
  | start {s : IsolationState m} {c : CallId} {req : TransactWriteItemsRequest} {maxItems : Nat}
      {ps : List TransactWritePlanItem} : s.phase c = .idle →
      translateTransactWriteItems req m maxItems = .ok ps →
      IsolationStep s (.start c) (s.become c (.active ⟨[], ps, s.db, s.version, [], []⟩))
  | locked {s : IsolationState m} {c : CallId} {tx : TxState m} {p : TransactWritePlanItem}
      {rest : List TransactWritePlanItem} {op : TransactWriteOp} {r : RowKey}
      {view : Database m} : s.phase c = .active tx → tx.todo = p :: rest → p.op? = some op →
      p.rowKey? = some r → p.takesLock (tx.view.items r.1 r.2) = true → s.Available c tx p r →
      op.run (s.viewFor c tx r) none = .ok view →
      IsolationStep s (.operation c)
        ({ s with lock := Function.update s.lock r (some c) }.become c
          (.active (tx.afterLocked p rest r view)))
  | missed {s : IsolationState m} {c : CallId} {tx : TxState m} {p : TransactWritePlanItem}
      {rest : List TransactWritePlanItem} {op : TransactWriteOp} {r : RowKey}
      {view : Database m} : s.phase c = .active tx → tx.todo = p :: rest → p.op? = some op →
      p.rowKey? = some r → p.takesLock (tx.view.items r.1 r.2) = false →
      op.run tx.view none = .ok view →
      IsolationStep s (.operation c)
        (s.become c (.active (tx.afterMissed p rest r (s.lock r == some c) view)))
  | abort {s : IsolationState m} {c : CallId} {tx : TxState m} : s.phase c = .active tx →
      IsolationStep s (.abort c) ((s.release c).become c .returned)
  | commit {s : IsolationState m} {c : CallId} {tx : TxState m} : s.phase c = .active tx →
      tx.todo = [] →
      IsolationStep s (.commit c) (((s.afterCommit tx).release c).become c .returned)

end Rektifier
