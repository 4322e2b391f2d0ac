import Rektifier.UpdateItem

namespace Rektifier

open Fallible

variable {schema : TableSchema} {e : UpdateExpression}

/-- What translation has established about an accepted request. -/
structure AcceptedUpdate (req : UpdateItemRequest) (schema : TableSchema)
    (plan : UpdateItemPlan) : Prop where
  key : extractKeyPair req.key schema = .ok (plan.pk, plan.sk)
  onlyKeys : ∀ attr ∈ req.key.keys, schema.isKeyAttr attr = true
  expression : plan.expression = req.expression
  checked : checkExpression schema req.expression = .ok ()
  condition : translateCondition schema req.condition = .ok plan.condition

theorem translateUpdateItem_accepted {req : UpdateItemRequest}
    {plan : UpdateItemPlan} (h : translateUpdateItem req schema = .ok plan) :
    AcceptedUpdate req schema plan := by
  obtain ⟨mode, _, h⟩ := bind_ok h
  obtain ⟨⟨pk, sk⟩, hkey, h⟩ := bind_ok h
  obtain ⟨_, hextra, h⟩ := bind_ok h
  obtain ⟨_, hexpr, h⟩ := bind_ok h
  obtain ⟨cond, hcond, h⟩ := bind_ok h
  cases h
  refine ⟨hkey, ?_, rfl, hexpr, hcond⟩
  intro attr hattr
  have := forM_ok_iff.mp hextra attr hattr
  split at this
  next hk => exact hk
  next => cases this

theorem not_isKeyAttr_of_checkNotKey {p : Path} {n : String}
    (h : checkNotKey p schema = .ok ()) (hn : p.topName = some n) :
    schema.isKeyAttr n = false := by
  simp only [checkNotKey, hn] at h
  split at h
  next => cases h
  next hk => simpa using hk

def UpdateExpression.targets (e : UpdateExpression) : List Path :=
  e.set.map SetClause.path ++ e.remove ++ e.add.map AddAction.path ++ e.delete.map DeleteAction.path

theorem checkExpression_targets
    (h : checkExpression schema e = .ok ()) : ∀ p ∈ e.targets, checkNotKey p schema = .ok () := by
  unfold checkExpression at h
  split at h
  · cases h
  · obtain ⟨_, hset, h⟩ := bind_ok h
    obtain ⟨_, hremove, h⟩ := bind_ok h
    obtain ⟨_, hadd, hdelete⟩ := bind_ok h
    intro p hp
    simp only [UpdateExpression.targets, List.mem_append, List.mem_map] at hp
    rcases hp with ((⟨c, hc, rfl⟩ | hp) | ⟨a, ha, rfl⟩) | ⟨a, ha, rfl⟩
    · obtain ⟨_, _, hc⟩ := bind_ok (forM_ok_iff.mp hset c hc)
      obtain ⟨_, hnot, _⟩ := bind_ok hc
      exact hnot
    · obtain ⟨_, _, hnot⟩ := bind_ok (forM_ok_iff.mp hremove p hp)
      exact hnot
    · obtain ⟨_, _, ha⟩ := bind_ok (forM_ok_iff.mp hadd a ha)
      obtain ⟨_, hnot, _⟩ := bind_ok ha
      exact hnot
    · obtain ⟨_, _, ha⟩ := bind_ok (forM_ok_iff.mp hdelete a ha)
      obtain ⟨_, hnot, _⟩ := bind_ok ha
      exact hnot

theorem SetClause.literal_topName {c : SetClause} {e : String × AttributeValue}
    (h : c.literal = some e) : c.path.topName = some e.1 := by
  unfold literal at h
  split at h
  next hn _ => cases h; exact hn
  next => cases h

/-- Neither SET nor REMOVE touches a key attribute. -/
theorem literals_not_key (h : checkExpression schema e = .ok ()) :
    ∀ n ∈ e.literals.map Prod.fst, schema.isKeyAttr n = false := by
  intro n hn
  obtain ⟨entry, hentry, rfl⟩ := List.mem_map.mp hn
  obtain ⟨c, hc, hlit⟩ := List.mem_filterMap.mp hentry
  have hnot := checkExpression_targets h c.path
    (by simpa [UpdateExpression.targets] using .inl ⟨c, hc, rfl⟩)
  exact not_isKeyAttr_of_checkNotKey hnot (SetClause.literal_topName hlit)

theorem removeNames_not_key (h : checkExpression schema e = .ok ()) :
    ∀ n ∈ e.removeNames, schema.isKeyAttr n = false := by
  intro n hn
  obtain ⟨p, hp, htop⟩ := List.mem_filterMap.mp hn
  have hnot := checkExpression_targets h p (by simp [UpdateExpression.targets, hp])
  exact not_isKeyAttr_of_checkNotKey hnot htop

/-- The item a simple expression makes of an item. -/
def UpdateExpression.simpleUpdate (e : UpdateExpression) (item : Item) : Item :=
  (item.insertAll e.literals).eraseAll e.removeNames

theorem isSimple_clauses (h : e.isSimple) :
    e.add = [] ∧ e.delete = [] ∧
    (∀ c ∈ e.set, c.path.isTopLevel ∧ c.value.isLiteral) ∧
    (∀ p ∈ e.remove, p.isTopLevel) := by
  simp only [UpdateExpression.isSimple, Bool.and_eq_true, List.isEmpty_iff, List.all_eq_true] at h
  exact ⟨h.1.1.1, h.1.1.2, h.1.2, h.2⟩

theorem stageSet_simple {c : SetClause} (hp : c.path.isTopLevel = true)
    (hv : c.value.isLiteral) (existing : Option Json) :
    ∃ e, c.literal = some e ∧ stageSet existing c = .ok (e.1, e.2.toValue) := by
  obtain ⟨path, value⟩ := c
  obtain ⟨n, rfl⟩ := Path.eq_attr_of_isTopLevel hp
  unfold SetRhs.isLiteral at hv
  split at hv
  next v hval =>
    cases hval
    exact ⟨(n, v), rfl, rfl⟩
  next => cases hv

/-- The evaluator never fails on it: SETs in order, then REMOVEs. -/
theorem applyUpdateExpression_simple (h : e.isSimple = true)
    (existing : Option Item) (key : Item) :
    applyUpdateExpression (existing.map Item.toValue) e key
      = .ok (Item.toValue (e.simpleUpdate (existing.getD key))) := by
  obtain ⟨hadd, hdelete, hset, hremove⟩ := isSimple_clauses h
  have hstage : e.set.mapM (stageSet (existing.map Item.toValue))
      = .ok (Entries.mapVals AttributeValue.toValue e.literals) :=
    mapM_filterMap fun c hc => stageSet_simple (hset c hc).1 (hset c hc).2 _
  have hnames : e.remove.mapM topNameOrUnreachable = .ok (e.removeNames.map id) := by
    apply mapM_filterMap
    intro p hp
    obtain ⟨n, rfl⟩ := Path.eq_attr_of_isTopLevel (hremove p hp)
    exact ⟨n, rfl, rfl⟩
  have hbase : (existing.map Item.toValue).getD (Item.toValue key)
      = Item.toValue (existing.getD key) := by
    cases existing <;> rfl
  unfold applyUpdateExpression
  rw [hstage, hnames, hbase, hadd, hdelete, UpdateExpression.simpleUpdate, Item.toValue_update,
    List.map_id]
  rfl

end Rektifier
