import Rektifier.BatchKeys

namespace Rektifier

open Fallible List

variable {plans : List TransactWritePlanItem}

def TransactWriteItem.target (m : SchemaMap) (ti : TransactWriteItem) : Option TransactTarget :=
  let request := (ti.put.map fun p => (p.tableName, p.item)).or
    ((ti.delete.map fun d => (d.tableName, d.key)).or
      ((ti.update.map fun u => (u.tableName, u.key)).or
        (ti.conditionCheck.map fun c => (c.tableName, c.key))))
  request.bind fun (name, item) =>
    (extractKeyPair item (m.schema name)).toOption.map fun key => (name, key)

def TransactWritePlanItem.target (p : TransactWritePlanItem) : TransactTarget :=
  (p.tableName, p.pk, p.sk)

def SameTargetRow (a b : TransactTarget) : Prop := a.1 = b.1 ∧ SameRow a.2 b.2

/-- Targets of one table equal in value are written the same way. -/
def TargetsSpelledAlike (m : SchemaMap) (items : List TransactWriteItem) : Prop :=
  ∀ v ∈ items, ∀ w ∈ items, ∀ a b, v.target m = some a → w.target m = some b →
    a.1 = b.1 ∧ KeysEqualInValue a.2 b.2 → a = b

def DistinctTargetRows (plans : List TransactWritePlanItem) : Prop :=
  plans.Pairwise fun p q => ¬ SameTargetRow p.target q.target

section

variable {m : SchemaMap} {seen : List TransactTarget} {p : TransactWritePlanItem}

theorem checkNewTarget_ok {target : TransactTarget} (h : checkNewTarget seen target = .ok ()) :
    target ∉ seen := by
  unfold checkNewTarget at h
  split at h
  next => cases h
  next hnew => exact hnew

theorem translateTransactItem_target {ti : TransactWriteItem}
    (h : translateTransactItem m seen ti = .ok p) :
    ti.target m = some p.target ∧ p.target ∉ seen := by
  obtain ⟨name, item, hkeyed, hop⟩ := translateTransactItem_ok h
  obtain rfl := hop.table
  refine ⟨?_, checkNewTarget_ok hop.fresh⟩
  have htarget : ti.target m = ti.keyed.bind fun entry =>
    (extractKeyPair entry.2 (m.schema entry.1)).toOption.map fun key => (entry.1, key) := rfl
  rw [htarget, hkeyed, Option.bind_some, hop.key]
  rfl

theorem translateTransactItems_targets {items : List TransactWriteItem}
    (h : translateTransactItems m seen items = .ok plans) :
    items.map (TransactWriteItem.target m) = plans.map (fun p => some p.target) ∧
    (plans.map TransactWritePlanItem.target).Nodup ∧ ∀ p ∈ plans, p.target ∉ seen := by
  induction items generalizing seen plans with
  | nil =>
    cases h
    exact ⟨rfl, nodup_nil, nofun⟩
  | cons ti items ih =>
    obtain ⟨p, hp, h⟩ := bind_ok h
    obtain ⟨rest, hrest, h⟩ := bind_ok h
    cases h
    obtain ⟨htarget, hnew⟩ := translateTransactItem_target hp
    obtain ⟨hkeys, hnodup, hfresh⟩ := ih hrest
    refine ⟨by rw [map_cons, map_cons, htarget, hkeys], ?_, ?_⟩
    · refine nodup_cons.mpr ⟨?_, hnodup⟩
      intro hmem
      obtain ⟨q, hq, hsame⟩ := mem_map.mp hmem
      exact hfresh q hq (hsame ▸ mem_cons_self)
    · refine forall_mem_cons.mpr ⟨hnew, ?_⟩
      exact fun q hq hmem => hfresh q hq (mem_cons_of_mem _ hmem)

theorem distinctTargetRows_iff {req : TransactWriteItemsRequest} {maxItems : Nat}
    (h : translateTransactWriteItems req m maxItems = .ok plans) :
    DistinctTargetRows plans ↔ TargetsSpelledAlike m req.transactItems := by
  obtain ⟨_, _, h⟩ := bind_ok h
  obtain ⟨_, _, h⟩ := bind_ok h
  obtain ⟨hkeys, hnodup, _⟩ := translateTransactItems_targets h
  have hsymm : ∀ a b, SameTargetRow a b → SameTargetRow b a :=
    fun a b h => ⟨h.1.symm, h.2.symm⟩
  have hiff := pairwise_not_same_iff SameTargetRow hsymm hkeys hnodup
  rw [DistinctTargetRows, hiff]
  simp only [SameTargetRow, sameRow_iff, TargetsSpelledAlike]

end

end Rektifier
