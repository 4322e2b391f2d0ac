import Rektifier.GsiState
import Rektifier.Runs

namespace Rektifier

open Function

/-- A state row, a spec in the catalog, and an index with whether it is valid. -/
structure GsiRecord where
  row : GsiState
  spec : Option GsiSpec
  index : Option Bool

namespace GsiRecord

def updatePhase (r : GsiRecord) (phase : GsiPhase) (error : Option String) : GsiRecord :=
  { r with row := { r.row with phase := phase, error := error } }

/-- No effect once the spec is gone. -/
def setServeable (r : GsiRecord) (serveable : Bool) (reason : Option String) : GsiRecord :=
  { r with spec := r.spec.map fun g =>
      { g with serveable := serveable, unserveableReason := reason } }

/-- `IF NOT EXISTS` leaves an index of that name as it is. -/
def createIndex (r : GsiRecord) : GsiRecord := { r with index := r.index.or (some true) }

end GsiRecord

/-- How far `run_lifecycle_to_active` has come, each value before a database step. -/
inductive CreateWorker where
  | start
  | filling
  | filled
  | toIndexing
  | building
  | polling
  | promoting
  | failing (error : String)
  | ended
deriving DecidableEq

/-- One database step; the phase is not read again until the next `fetch_state`. -/
inductive CreateStep (r : GsiRecord) : CreateWorker → GsiRecord → CreateWorker → Prop
  | backfill : r.row.phase = .backfilling → CreateStep r .start r .filling
  | pastBackfill : r.row.phase ≠ .backfilling → CreateStep r .start r .filled
  | startFails (e : String) : CreateStep r .start r (.failing ("backfill: " ++ e))
  | chunk (cursor : Json) : CreateStep r .filling
      { r with row := { r.row with lastPkCopied := some cursor } } .filling
  | backfilled : CreateStep r .filling r .filled
  | chunkFails (e : String) : CreateStep r .filling r (.failing ("backfill: " ++ e))
  | alreadyActive : r.row.phase = .active → CreateStep r .filled r .ended
  | fromBackfilling : r.row.phase = .backfilling → CreateStep r .filled r .toIndexing
  | fromIndexing : r.row.phase = .indexing → CreateStep r .filled r .building
  | otherPhase : r.row.phase ∉ [.active, .backfilling, .indexing] → CreateStep r .filled r .ended
  | indexing : CreateStep r .toIndexing (r.updatePhase .indexing none) .building
  | malformed {e : OrchestratorError} : parseColumnSpecs r.row = .error e →
      CreateStep r .building r .ended
  | createIndex : CreateStep r .building r.createIndex .polling
  | createFails (e : String) (leftover : Option Bool) : leftover ≠ some true →
      CreateStep r .building { r with index := leftover }
        (.failing ("CREATE INDEX CONCURRENTLY failed twice: " ++ e))
  | notYet : r.index = some false → CreateStep r .polling r .polling
  | timeout (limit : String) : r.index = some false → CreateStep r .polling r
      (.failing ("index `" ++ r.row.indexName ++ "` did not reach indisvalid=true within " ++ limit))
  | vanished : r.index = none → CreateStep r .polling r
      (.failing ("index `" ++ r.row.indexName ++ "` vanished after CREATE INDEX CONCURRENTLY"))
  | valid : r.index = some true → CreateStep r .polling r .promoting
  | promote : CreateStep r .promoting ((r.updatePhase .active none).setServeable true none) .ended
  | fail (e : String) : CreateStep r (.failing e) (r.updatePhase .failed (some e)) .ended

/-- How far `run_removal_to_gone` has come. -/
inductive RemovalWorker where
  | start
  | dropping
  | toColumn
  | lastTx
  | failing (error : String)
  | ended
deriving DecidableEq

inductive RemovalStep (r : GsiRecord) : RemovalWorker → GsiRecord → RemovalWorker → Prop
  | removingIndex : r.row.phase = .removingIndex → RemovalStep r .start r .dropping
  | removingColumn : r.row.phase = .removingColumn → RemovalStep r .start r .lastTx
  | otherPhase : r.row.phase ∉ [.removingIndex, .removingColumn] → RemovalStep r .start r .ended
  | dropIndex : RemovalStep r .dropping { r with index := none } .toColumn
  | dropFails (e : String) : RemovalStep r .dropping r
      (.failing ("DROP INDEX CONCURRENTLY: " ++ e))
  | toColumn : RemovalStep r .toColumn (r.updatePhase .removingColumn none) .lastTx
  | gone : RemovalStep r .lastTx ({ r with spec := none }.updatePhase .gone none) .ended
  | fail (e : String) : RemovalStep r (.failing e) (r.updatePhase .failed (some e)) .ended

/-- How far `run_drift_check` has come. -/
inductive DriftCheck where
  | start
  | sampling
  | demoting (error : String)
  | ended
deriving DecidableEq

inductive DriftStep (r : GsiRecord) : DriftCheck → GsiRecord → DriftCheck → Prop
  | served : r.row.phase = .active ∨ r.row.phase = .degraded → DriftStep r .start r .sampling
  | otherPhase : r.row.phase ∉ [.active, .degraded] → DriftStep r .start r .ended
  | clean : DriftStep r .sampling r .ended
  | mismatch (mismatches samples : Nat) : 0 < mismatches → DriftStep r .sampling r
      (.demoting ("sampled drift check: " ++ toString mismatches ++ " mismatches out of "
        ++ toString samples ++ " samples"))
  | demote (e : String) : DriftStep r (.demoting e)
      ((r.updatePhase .degraded (some e)).setServeable false (some "sampled drift detected")) .ended

/-- One GSI with any number of workers of each kind. -/
structure LifecycleState where
  stored : GsiRecord
  creates : Nat → CreateWorker
  removals : Nat → RemovalWorker
  drifts : Nat → DriftCheck

inductive LifecycleEvent where
  | startRemoval
  | spawnCreate (i : Nat)
  | spawnRemoval (i : Nat)
  | spawnDrift (i : Nat)
  | create (i : Nat)
  | removal (i : Nat)
  | drift (i : Nat)
  | crash
deriving DecidableEq

/-- Any interleaving of the workers' steps; the request that deletes the GSI; crashes, after which
workers are spawned anew. -/
inductive LifecycleStep (s : LifecycleState) : LifecycleEvent → LifecycleState → Prop
  | startRemoval : LifecycleStep s .startRemoval { s with
      stored := (s.stored.updatePhase .removingIndex none).setServeable false
        (some "GSI removal in progress") }
  | spawnCreate {i : Nat} : s.creates i = .ended → LifecycleStep s (.spawnCreate i)
      { s with creates := update s.creates i .start }
  | spawnRemoval {i : Nat} : s.removals i = .ended → LifecycleStep s (.spawnRemoval i)
      { s with removals := update s.removals i .start }
  | spawnDrift {i : Nat} : s.drifts i = .ended → LifecycleStep s (.spawnDrift i)
      { s with drifts := update s.drifts i .start }
  | create {i : Nat} {r : GsiRecord} {c : CreateWorker} : CreateStep s.stored (s.creates i) r c →
      LifecycleStep s (.create i) { s with
        stored := r, creates := update s.creates i c }
  | removal {i : Nat} {r : GsiRecord} {c : RemovalWorker} :
      RemovalStep s.stored (s.removals i) r c → LifecycleStep s (.removal i) { s with
        stored := r, removals := update s.removals i c }
  | drift {i : Nat} {r : GsiRecord} {c : DriftCheck} : DriftStep s.stored (s.drifts i) r c →
      LifecycleStep s (.drift i) { s with stored := r, drifts := update s.drifts i c }
  | crash : LifecycleStep s .crash
      ⟨s.stored, fun _ => .ended, fun _ => .ended, fun _ => .ended⟩

end Rektifier
