import Rektifier.Reconciler

namespace Rektifier

open Function

/-- Each server process has its own catalog cache. -/
abbrev ServerId := Nat

/-- The entry comes from the cache, before the transaction. -/
inductive UpdatePhase where
  | idle
  | prepared (entry : TableEntry) (req : UpdateTableRequest)
  | returned

/-- The row a pass loaded, and its verdict on the GSIs. -/
inductive PassPhase where
  | idle
  | loaded (server : ServerId) (row : TableEntry)
  | judged (server : ServerId) (row : TableEntry) (verdict : OrderedMap String GsiSpec)
  | written (server : ServerId) (entry : TableEntry)

/-- A committed change to `gsi_specs`, as its writer means it. -/
inductive SpecChange where
  | added (name : String)
  | dropped (name : String)
  | marked (name : String) (serveable : Bool)
  | judged (verdict : String → Option Bool)

structure SpecsState where
  table : TableState
  cache : ServerId → TableEntry
  updates : Nat → UpdatePhase
  passes : Nat → PassPhase
  history : List SpecChange

inductive SpecsEvent where
  | prepare (c : Nat)
  | commit (c : Nat)
  | fail (c : Nat)
  | promote (name : String)
  | demote (name : String)
  | remove (name : String)
  | load (p : Nat)
  | judge (p : Nat)
  | write (p : Nat)
  | keep (p : Nat)
  | replace (p : Nat)
  | stop (p : Nat)

def UpdateTableRequest.needsSpecUpdate (req : UpdateTableRequest) : Bool :=
  !req.deletes.isEmpty || !req.creates.isEmpty

/-- A deleted Generated GSI goes at once, a DualWrite one stops being served until its removal is
finished. -/
def updateChanges (e : TableEntry) (deletes : List String) (creates : List GsiSpec) :
    List SpecChange :=
  let isMode (mode : GsiMode) (name : String) : Bool := (e.gsis.get name).any fun g => g.mode = mode
  (deletes.filter (isMode .generated)).map .dropped ++
    (deletes.filter (isMode .dualWrite)).map (.marked · false) ++
    creates.map fun g => .added g.name

def reconcileGsis (s : TableState) (primaryKey : List String)
    (indexDefs : String → Option String) : OrderedMap String GsiSpec :=
  s.entry.gsis.mapVals (reconcileGsi s primaryKey indexDefs)

/-- The serveable bits a pass changes. -/
def verdictBits (row : TableEntry) (verdict : OrderedMap String GsiSpec) (name : String) :
    Option Bool := do
  let g ← row.gsis.get name
  let v ← verdict.get name
  if v.serveable = g.serveable then none else some v.serveable

namespace SpecsState

def setUpdate (s : SpecsState) (c : Nat) (phase : UpdatePhase) : SpecsState :=
  { s with updates := update s.updates c phase }

def setPass (s : SpecsState) (p : Nat) (phase : PassPhase) : SpecsState :=
  { s with passes := update s.passes p phase }

/-- The table after a committed change, and what it meant. -/
def change (s : SpecsState) (table : TableState) (changes : List SpecChange) : SpecsState :=
  { s with table := table, history := s.history ++ changes }

/-- The transaction of UpdateTable, come to `table` from the entry in the cache. Without GSI updates
`gsi_specs` is not written. -/
def afterUpdate (s : SpecsState) (e : TableEntry) (req : UpdateTableRequest) (table : TableState)
    (creates : List GsiSpec) : SpecsState :=
  if req.needsSpecUpdate then
    s.change ⟨{ s.table.entry with gsis := table.entry.gsis }, table.columns⟩
      (updateChanges e req.deletes creates)
  else s

/-- `UPDATE_VERDICT_SQL`, the whole array as judged. -/
def afterVerdict (s : SpecsState) (row : TableEntry) (verdict : OrderedMap String GsiSpec) :
    SpecsState :=
  s.change ⟨{ s.table.entry with gsis := verdict }, s.table.columns⟩
    [.judged (verdictBits row verdict)]

end SpecsState

/-- What takes the table's advisory lock or is one UPDATE is one step; the cache and a pass's row
may be old by the time they are written back. -/
inductive SpecsStep (names : PgNames) (hex8 : String → String) :
    SpecsState → SpecsEvent → SpecsState → Prop
  | prepare {s : SpecsState} {c : Nat} (server : ServerId) (req : UpdateTableRequest) :
      s.updates c = .idle →
      SpecsStep names hex8 s (.prepare c) (s.setUpdate c (.prepared (s.cache server) req))
  | commit {s : SpecsState} {c : Nat} {e : TableEntry} {req : UpdateTableRequest}
      {table : TableState} {creates : List GsiSpec} : s.updates c = .prepared e req →
      updateTable names hex8 ⟨e, s.table.columns⟩ req = .ok (table, creates) →
      SpecsStep names hex8 s (.commit c)
        ((s.afterUpdate e req table creates).setUpdate c .returned)
  | fail {s : SpecsState} {c : Nat} {e : TableEntry} {req : UpdateTableRequest} :
      s.updates c = .prepared e req →
      SpecsStep names hex8 s (.fail c) (s.setUpdate c .returned)
  | promote (s : SpecsState) (name : String) : SpecsStep names hex8 s (.promote name)
      (s.change (setServeable s.table name true none) [.marked name true])
  | demote (s : SpecsState) (name : String) : SpecsStep names hex8 s (.demote name)
      (s.change (setServeable s.table name false (some "sampled drift detected"))
        [.marked name false])
  | remove (s : SpecsState) (name : String) : SpecsStep names hex8 s (.remove name)
      (s.change (removeGsi s.table name) [.dropped name])
  | load {s : SpecsState} {p : Nat} (server : ServerId) : s.passes p = .idle →
      SpecsStep names hex8 s (.load p) (s.setPass p (.loaded server s.table.entry))
  | judge {s : SpecsState} {p : Nat} {server : ServerId} {row : TableEntry}
      (primaryKey : List String) (indexDefs : String → Option String) :
      s.passes p = .loaded server row →
      SpecsStep names hex8 s (.judge p) (s.setPass p (.judged server row
        (reconcileGsis ⟨row, s.table.columns⟩ primaryKey indexDefs)))
  -- also when only the verdict on the table or on an LSI is a new one
  | write {s : SpecsState} {p : Nat} {server : ServerId} {row : TableEntry}
      {verdict : OrderedMap String GsiSpec} : s.passes p = .judged server row verdict →
      SpecsStep names hex8 s (.write p)
        ((s.afterVerdict row verdict).setPass p (.written server { row with gsis := verdict }))
  | keep {s : SpecsState} {p : Nat} {server : ServerId} {row : TableEntry}
      {verdict : OrderedMap String GsiSpec} : s.passes p = .judged server row verdict →
      verdict = row.gsis →
      SpecsStep names hex8 s (.keep p) (s.setPass p (.written server row))
  -- the DDL worker owns the row, or it could not be introspected
  | skip {s : SpecsState} {p : Nat} {server : ServerId} {row : TableEntry} :
      s.passes p = .loaded server row →
      SpecsStep names hex8 s (.keep p) (s.setPass p (.written server row))
  | replace {s : SpecsState} {p : Nat} {server : ServerId} {e : TableEntry} :
      s.passes p = .written server e →
      SpecsStep names hex8 s (.replace p)
        ({ s with cache := update s.cache server e }.setPass p .idle)
  | stop (s : SpecsState) (p : Nat) : SpecsStep names hex8 s (.stop p) (s.setPass p .idle)

end Rektifier
