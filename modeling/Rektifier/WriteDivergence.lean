import Rektifier.TransactSpec

namespace Rektifier

open Fallible

def resolvePutDeleteReturnValues (op : String) :
    Option String → Except TranslateError ReturnValuesMode
  | none | some "NONE" => .ok .none
  | some "ALL_OLD" => .ok .allOld
  | some other => .error (.unsupportedReturnValuesForOp op other)

/-- The condition is parsed and substituted. -/
structure PutItemRequest where
  item : Item
  condition : Option Condition
  returnValues : Option String

structure PutItemPlan where
  pk : KeyValue
  sk : Option KeyValue
  itemJson : Json
  condition : Option ConditionPlan
  returnValues : ReturnValuesMode

def translatePutItem (req : PutItemRequest) (schema : TableSchema) :
    Except TranslateError PutItemPlan := do
  let (pk, sk) ← extractKeyPair req.item schema
  let returnValues ← resolvePutDeleteReturnValues "PutItem" req.returnValues
  let condition ← translateCondition schema req.condition
  return ⟨pk, sk, Item.toValue req.item, condition, returnValues⟩

/-- The condition is parsed and substituted. -/
structure DeleteItemRequest where
  key : Item
  condition : Option Condition
  returnValues : Option String

structure DeleteItemPlan where
  pk : KeyValue
  sk : Option KeyValue
  condition : Option ConditionPlan
  returnValues : ReturnValuesMode

def translateDeleteItem (req : DeleteItemRequest) (schema : TableSchema) :
    Except TranslateError DeleteItemPlan := do
  let (pk, sk) ← extractKeyPair req.key schema
  rejectExtraKeyAttrs req.key schema
  let returnValues ← resolvePutDeleteReturnValues "DeleteItem" req.returnValues
  let condition ← translateCondition schema req.condition
  return ⟨pk, sk, condition, returnValues⟩

/-- The types `apply_add` has an arm of its own for. -/
def AttributeValue.isAddend : AttributeValue → Bool
  | .n _ | .ss _ | .ns _ | .bs _ => true
  | _ => false

def AttributeValue.isSet : AttributeValue → Bool
  | .ss _ | .ns _ | .bs _ => true
  | _ => false

/-- The SQL compiler takes what is routed to it. -/
def ConditionPlan.Compiles (plan : ConditionPlan) : Prop :=
  plan.routing = .simpleSql → ∀ b, ∃ r, compileCondition b plan.condition = .ok r

/-- The evaluator meets no path and no value that translation should have kept from it. -/
structure UpdateExpression.Evaluates (e : UpdateExpression) : Prop where
  paths : ∀ existing key, Avoids EvalError.unreachablePath (applyUpdateExpression existing e key)
  adds : ∀ a ∈ e.add, a.value.isAddend = true
  deletes : ∀ a ∈ e.delete, a.value.isSet = true

variable {schema : TableSchema} {existing : Option Json}

theorem translateCondition_compiles {cond : Option Condition} {plan : Option ConditionPlan}
    (h : translateCondition schema cond = .ok plan) : ∀ c ∈ plan, c.Compiles := by
  cases cond with
  | none =>
    cases h
    nofun
  | some cond =>
    obtain ⟨_, htop, h⟩ := bind_ok h
    cases h
    intro c hc hrouting b
    cases hc
    exact compileCondition_ok (conditionFitsSql_of_simpleSql hrouting) htop b

/-! ### The evaluator's other errors -/

theorem checkTopLevel_ok {p : Path} (h : checkTopLevel p = .ok ()) :
    ∃ n, topNameOrUnreachable p = .ok n := by
  unfold checkTopLevel at h
  split at h
  next htop =>
    obtain ⟨n, rfl⟩ := Path.eq_attr_of_isTopLevel htop
    exact ⟨n, rfl⟩
  next => cases h

theorem topName_avoids {p : Path} (h : checkTopLevel p = .ok ()) :
    Avoids .unreachablePath (topNameOrUnreachable p) := by
  obtain ⟨n, hn⟩ := checkTopLevel_ok h
  rw [hn]
  exact avoids_ok _ n

theorem readAttr_avoids {p : Path} (h : checkTopLevel p = .ok ()) :
    Avoids .unreachablePath (readAttr existing p) := by
  refine Avoids.bind (topName_avoids h) fun attr _ => ?_
  split
  · exact avoids_ok _ _
  · nofun

theorem operandValue_avoids {o : Operand} (h : checkOperandPathTopLevel o = .ok ()) :
    Avoids .unreachablePath (operandValue existing o) := by
  cases o with
  | value v => exact avoids_ok _ _
  | path p => exact readAttr_avoids h

theorem ddbNValue_avoids (v : Json) : Avoids .unreachablePath (ddbNValue v) := by
  unfold ddbNValue
  repeat' split
  all_goals nofun

theorem ddbList_avoids (v : Json) : Avoids .unreachablePath (ddbList v) := by
  unfold ddbList
  repeat' split
  all_goals nofun

theorem parseDecimal_avoids (s : String) : Avoids .unreachablePath (parseDecimal s) := by
  unfold parseDecimal
  split
  all_goals nofun

theorem arith_avoids {a b : Operand} {plus : Bool} (ha : checkOperandPathTopLevel a = .ok ())
    (hb : checkOperandPathTopLevel b = .ok ()) :
    Avoids .unreachablePath (arith existing a b plus) := by
  refine (operandValue_avoids ha).bind fun av _ => (operandValue_avoids hb).bind fun bv _ => ?_
  refine (ddbNValue_avoids av).bind fun an _ => (ddbNValue_avoids bv).bind fun bn _ => ?_
  refine (parseDecimal_avoids an).bind fun lhs _ => (parseDecimal_avoids bn).bind fun rhs _ => ?_
  exact avoids_ok _ _

/-- By the shape of the right-hand side, as the check walks it. -/
theorem computeSetRhs_avoids {rhs : SetRhs} (h : checkSetRhsPathsTopLevel rhs = .ok ()) :
    Avoids .unreachablePath (computeSetRhs existing rhs) := by
  induction rhs with
  | operand o => exact operandValue_avoids h
  | plus a b | minus a b =>
    obtain ⟨_, ha, hb⟩ := bind_ok h
    exact arith_avoids ha hb
  | ifNotExists p fallback ih =>
    obtain ⟨_, hp, hfallback⟩ := bind_ok h
    refine (topName_avoids hp).bind fun attr _ => ?_
    split
    · exact avoids_ok _ _
    · exact ih hfallback
  | listAppend a b iha ihb =>
    obtain ⟨_, ha, hb⟩ := bind_ok h
    refine (iha ha).bind fun av _ => (ihb hb).bind fun bv _ => ?_
    refine (ddbList_avoids av).bind fun as _ => (ddbList_avoids bv).bind fun bs _ => ?_
    exact avoids_ok _ _

theorem setUnion_avoids (existing : Option Json) (tag : String) (addend : List String) :
    Avoids .unreachablePath (setUnion existing tag addend) := by
  unfold setUnion
  dsimp only
  repeat' split
  all_goals first | exact avoids_ok _ _ | nofun

theorem addBase_avoids (existing : Option Json) : Avoids .unreachablePath (addBase existing) := by
  unfold addBase
  repeat' split
  all_goals nofun

theorem applyAdd_avoids (existing : Option Json) (v : AttributeValue) :
    Avoids .unreachablePath (applyAdd existing v) := by
  unfold applyAdd
  split
  · refine (addBase_avoids existing).bind fun lhs _ => (parseDecimal_avoids _).bind fun rhs _ => ?_
    exact avoids_ok _ _
  · exact setUnion_avoids existing _ _
  · exact setUnion_avoids existing _ _
  · exact setUnion_avoids existing _ _
  · nofun

theorem applyDelete_avoids (existing : Json) (v : AttributeValue) :
    Avoids .unreachablePath (applyDelete existing v) := by
  unfold applyDelete
  refine Avoids.bind ?_ fun subset _ => ?_
  · unfold deleteSubset
    split
    all_goals nofun
  · repeat' split
    all_goals nofun

theorem isAddend_of_check {v : AttributeValue} (h : checkAddValueType v = .ok ()) :
    v.isAddend := by
  cases v
  all_goals first | rfl | cases h

theorem isSet_of_check {v : AttributeValue} (h : checkDeleteValueType v = .ok ()) :
    v.isSet := by
  cases v
  all_goals first | rfl | cases h

theorem checkExpression_evaluates {e : UpdateExpression} (h : checkExpression schema e = .ok ()) :
    e.Evaluates := by
  unfold checkExpression at h
  split at h
  · cases h
  obtain ⟨_, hset, h⟩ := bind_ok h
  obtain ⟨_, hremove, h⟩ := bind_ok h
  obtain ⟨_, hadd, hdelete⟩ := bind_ok h
  rw [forM_ok_iff] at hset hremove hadd hdelete
  refine ⟨fun existing key => ?_, fun a ha => ?_, fun a ha => ?_⟩
  · refine Avoids.bind (avoids_mapM fun c hc => ?_) fun staged _ => ?_
    · obtain ⟨_, htop, hrest⟩ := bind_ok (hset c hc)
      obtain ⟨_, _, hrhs⟩ := bind_ok hrest
      exact (topName_avoids htop).bind fun attr _ =>
        (computeSetRhs_avoids hrhs).bind fun value _ => avoids_ok _ _
    split
    · nofun
    refine Avoids.bind (avoids_mapM fun p hp => ?_) fun removed _ => ?_
    · obtain ⟨_, htop, _⟩ := bind_ok (hremove p hp)
      exact topName_avoids htop
    refine Avoids.bind (avoids_foldlM (fun obj a ha => ?_) _) fun obj _ => ?_
    · obtain ⟨_, htop, _⟩ := bind_ok (hadd a ha)
      exact (topName_avoids htop).bind fun attr _ =>
        (applyAdd_avoids _ _).bind fun value _ => avoids_ok _ _
    refine Avoids.bind (avoids_foldlM (fun obj a ha => ?_) _) fun obj _ => avoids_ok _ _
    obtain ⟨_, htop, _⟩ := bind_ok (hdelete a ha)
    refine (topName_avoids htop).bind fun attr _ => ?_
    split
    · exact avoids_ok _ _
    · refine (applyDelete_avoids _ _).bind fun left _ => ?_
      split
      all_goals exact avoids_ok _ _
  · obtain ⟨_, _, hrest⟩ := bind_ok (hadd a ha)
    obtain ⟨_, _, hvalue⟩ := bind_ok hrest
    exact isAddend_of_check hvalue
  · obtain ⟨_, _, hrest⟩ := bind_ok (hdelete a ha)
    obtain ⟨_, _, hvalue⟩ := bind_ok hrest
    exact isSet_of_check hvalue

/-- What translation has accepted, no later stage finds fault with, whatever item is stored. -/
theorem accepted_writes_consistent :
    (∀ req schema plan, translateUpdateItem req schema = .ok plan →
      (∀ c ∈ plan.condition, c.Compiles) ∧ plan.expression.Evaluates) ∧
    (∀ req schema plan, translatePutItem req schema = .ok plan →
      ∀ c ∈ plan.condition, c.Compiles) ∧
    (∀ req schema plan, translateDeleteItem req schema = .ok plan →
      ∀ c ∈ plan.condition, c.Compiles) ∧
    (∀ req m maxItems plans, translateTransactWriteItems req m maxItems = .ok plans →
      ∀ p ∈ plans, (∀ c ∈ p.condition, c.Compiles) ∧
        ∀ expression key, p.kind = .update expression key → expression.Evaluates) := by
  refine ⟨fun req schema plan h => ?_, fun req schema plan h => ?_, fun req schema plan h => ?_,
    fun req m maxItems plans h p hp => ?_⟩
  · have haccepted := translateUpdateItem_accepted h
    refine ⟨translateCondition_compiles haccepted.condition, ?_⟩
    rw [haccepted.expression]
    exact checkExpression_evaluates haccepted.checked
  · obtain ⟨key, _, h⟩ := bind_ok h
    obtain ⟨mode, _, h⟩ := bind_ok h
    obtain ⟨cond, hcond, h⟩ := bind_ok h
    cases h
    exact translateCondition_compiles hcond
  · obtain ⟨key, _, h⟩ := bind_ok h
    obtain ⟨_, _, h⟩ := bind_ok h
    obtain ⟨mode, _, h⟩ := bind_ok h
    obtain ⟨cond, hcond, h⟩ := bind_ok h
    cases h
    exact translateCondition_compiles hcond
  · obtain ⟨haccepted, schema, cond, hcond⟩ := (translateTransactWriteItems_accepted h).2 p hp
    refine ⟨translateCondition_compiles hcond, fun expression key hkind => ?_⟩
    exact checkExpression_evaluates (haccepted.update expression key hkind).2

/-- Count a visit to an order that is there. -/
def visitRequest : UpdateItemRequest :=
  ⟨OrderedMap.ofList [("id", .s "o1")], ⟨[], [], [⟨.attr "visits", .n "1"⟩], []⟩,
    some (.attributeExists (.attr "id")), none⟩

def visitPlan : UpdateItemPlan :=
  ⟨.s "o1", none, visitRequest.expression,
    some ⟨.attributeExists (.attr "id"), .simpleSql⟩, .none⟩

theorem accepted_writes_consistent_visit :
    (∃ r, compileCondition ⟨[], []⟩ (.attributeExists (.attr "id")) = .ok r) ∧
    visitRequest.expression.Evaluates := by
  have hplan : translateUpdateItem visitRequest sampleSchema = .ok visitPlan := rfl
  obtain ⟨hcond, hexpr⟩ := accepted_writes_consistent.1 _ _ _ hplan
  exact ⟨hcond _ rfl rfl _, hexpr⟩

end Rektifier
