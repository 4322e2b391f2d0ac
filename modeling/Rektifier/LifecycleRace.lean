import Rektifier.Lifecycle

namespace Rektifier

open Function

def GsiPhase.CreateSide : GsiPhase → Prop
  | backfilling | indexing | active => True
  | _ => False

/-- Past its last look at the phase, a create-side phase still to be written. -/
def CreateWorker.PastCheck : CreateWorker → Prop
  | toIndexing | building | polling | promoting => True
  | _ => False

/-- On no create-side phase, and not serveable. -/
structure GsiRecord.Removed (r : GsiRecord) : Prop where
  phase : ¬ r.row.phase.CreateSide
  unserveable : ∀ g ∈ r.spec, g.serveable = false

variable {r r' : GsiRecord}

theorem GsiRecord.Removed.updatePhase (h : r.Removed) {p : GsiPhase} (hp : ¬ p.CreateSide)
    (error : Option String) : (r.updatePhase p error).Removed :=
  ⟨hp, h.unserveable⟩

theorem GsiRecord.Removed.setServeable (h : r.Removed) (reason : Option String) :
    (r.setServeable false reason).Removed := by
  refine ⟨h.phase, fun g hg => ?_⟩
  obtain ⟨g', _, rfl⟩ := Option.map_eq_some_iff.mp hg
  rfl

theorem GsiRecord.removed_startRemoval (r : GsiRecord) (reason : Option String) :
    ((r.updatePhase .removingIndex none).setServeable false reason).Removed := by
  refine ⟨id, fun g hg => ?_⟩
  obtain ⟨g', _, rfl⟩ := Option.map_eq_some_iff.mp hg
  rfl

/-- Before its check a create worker finds no phase to go on from. -/
theorem CreateStep.removed {c c' : CreateWorker} (h : CreateStep r c r' c') (hc : ¬ c.PastCheck)
    (hr : r.Removed) : r'.Removed ∧ ¬ c'.PastCheck := by
  have hphase : ∀ p : GsiPhase, p.CreateSide → r.row.phase ≠ p := fun p hp heq =>
    hr.phase (heq ▸ hp)
  cases h with
  | fromBackfilling hp | fromIndexing hp => exact absurd hp (hphase _ trivial)
  | indexing | malformed | createIndex | createFails | notYet | timeout | vanished | valid
  | promote => exact absurd trivial hc
  | chunk cursor => exact ⟨⟨hr.phase, hr.unserveable⟩, id⟩
  | fail e => exact ⟨hr.updatePhase id _, id⟩
  | backfill | pastBackfill | startFails | backfilled | chunkFails | alreadyActive
  | otherPhase => exact ⟨hr, id⟩

theorem RemovalStep.removed {c c' : RemovalWorker} (h : RemovalStep r c r' c') (hr : r.Removed) :
    r'.Removed := by
  cases h with
  | dropIndex => exact ⟨hr.phase, hr.unserveable⟩
  | toColumn | fail => exact hr.updatePhase id _
  | gone => exact ⟨id, fun _ hg => nomatch hg⟩
  | removingIndex | removingColumn | otherPhase | dropFails => exact hr

theorem DriftStep.removed {c c' : DriftCheck} (h : DriftStep r c r' c') (hr : r.Removed) :
    r'.Removed := by
  cases h with
  | demote e => exact (hr.updatePhase id _).setServeable _
  | served | otherPhase | clean | mismatch => exact hr

structure LifecycleState.Settled (s : LifecycleState) : Prop where
  removed : s.stored.Removed
  checked : ∀ i, ¬ (s.creates i).PastCheck

theorem checked_update {creates : Nat → CreateWorker} {i : Nat} {c : CreateWorker}
    (h : ∀ i, ¬ (creates i).PastCheck) (hc : ¬ c.PastCheck) :
    ∀ j, ¬ (update creates i c j).PastCheck := by
  intro j
  by_cases hj : j = i
  · subst hj
    rwa [update_self]
  · rw [update_of_ne hj]
    exact h j

theorem LifecycleStep.settled {s s' : LifecycleState} {e : LifecycleEvent}
    (h : LifecycleStep s e s') (hs : s.Settled) : s'.Settled := by
  cases h with
  | startRemoval => exact ⟨GsiRecord.removed_startRemoval _ _, hs.checked⟩
  | spawnCreate => exact ⟨hs.removed, checked_update hs.checked id⟩
  | spawnRemoval | spawnDrift => exact ⟨hs.removed, hs.checked⟩
  | @create i r c hstep =>
    obtain ⟨hremoved, hchecked⟩ := hstep.removed (hs.checked i) hs.removed
    exact ⟨hremoved, checked_update hs.checked hchecked⟩
  | removal hstep | drift hstep => exact ⟨hstep.removed hs.removed, hs.checked⟩
  | crash => exact ⟨hs.removed, fun _ => id⟩

/-- Once a GSI is deleted with no create worker past its check, no interleaving brings a create-side
phase or the serveable mark back. -/
theorem removal_stays_removed {s s' t : LifecycleState}
    {trace : List (LifecycleState × LifecycleEvent)} (hchecked : ∀ i, ¬ (s.creates i).PastCheck)
    (hstart : LifecycleStep s .startRemoval s') (hrun : Run LifecycleStep s' trace t) :
    t.stored.Removed := by
  have hsettled : s'.Settled := by
    cases hstart
    exact ⟨GsiRecord.removed_startRemoval _ _, hchecked⟩
  have hend := hrun.preserved LifecycleState.Settled (fun _ _ _ hstep => hstep.settled) hsettled
  exact hend.removed

def declaredSpec : GsiSpec :=
  ⟨"by-tag", "tag", .s, "tag", none, "rekt_t_orders_gsi_by_tag_idx", .dualWrite, false,
    some "DualWrite GSI in CREATING phase"⟩

/-- Right after UpdateTable: one create worker is about to start. -/
def justDeclared : LifecycleState where
  stored := ⟨⟨"orders::by-tag", "orders", "by-tag", "rekt_t_orders", columnSpecsJson declaredSpec,
    declaredSpec.indexName, .backfilling, none, none⟩, some declaredSpec, none⟩
  creates := update (fun _ => .ended) 0 .start
  removals := fun _ => .ended
  drifts := fun _ => .ended

theorem removal_stays_removed_sample : ∃ s trace t,
    LifecycleStep justDeclared .startRemoval s ∧ Run LifecycleStep s trace t ∧
    trace.map Prod.snd = [.create 0, .create 0, .spawnRemoval 0, .removal 0] ∧
    t.stored.Removed := by
  have hchecked : ∀ i, ¬ (justDeclared.creates i).PastCheck :=
    checked_update (fun _ => id) id
  have hruns : ∃ s trace t, LifecycleStep justDeclared .startRemoval s ∧
      Run LifecycleStep s trace t ∧
      trace.map Prod.snd = [.create 0, .create 0, .spawnRemoval 0, .removal 0] :=
    ⟨_, _, _, .startRemoval, .cons (.create (.pastBackfill (by decide)))
      (.cons (.create (.otherPhase (by decide))) (.cons (.spawnRemoval rfl)
      (.cons (.removal (.removingIndex rfl)) (.nil _)))), rfl⟩
  obtain ⟨s, trace, t, hstart, hrun, htrace⟩ := hruns
  exact ⟨s, trace, t, hstart, hrun, htrace, removal_stays_removed hchecked hstart hrun⟩

/-- A create worker that has read `backfilling` overwrites `removing_index`, so the removal worker
gives up and the deleted GSI is served. -/
theorem stale_create_worker_revives_gsi : ∃ trace t, Run LifecycleStep justDeclared trace t ∧
    trace.map Prod.snd = [.create 0, .create 0, .create 0, .startRemoval, .spawnRemoval 0,
      .create 0, .removal 0, .create 0, .create 0, .create 0] ∧
    t.stored.row.phase = .active ∧ t.stored.spec.map GsiSpec.serveable = some true ∧
    t.removals 0 = .ended :=
  ⟨_, _, .cons (.create (.backfill rfl)) (.cons (.create .backfilled)
    (.cons (.create (.fromBackfilling rfl)) (.cons .startRemoval (.cons (.spawnRemoval rfl)
    (.cons (.create .indexing) (.cons (.removal (.otherPhase (by decide)))
    (.cons (.create .createIndex) (.cons (.create (.valid rfl)) (.cons (.create .promote)
    (.nil _)))))))))), rfl, rfl, rfl, rfl⟩

end Rektifier
