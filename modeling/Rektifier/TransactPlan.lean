import Rektifier.Translate

namespace Rektifier

structure TransactPut where
  tableName : String
  item : Item
  condition : Option Condition
  returnValuesOnFailure : Option String

structure TransactDelete where
  tableName : String
  key : Item
  condition : Option Condition
  returnValuesOnFailure : Option String

structure TransactUpdate where
  tableName : String
  key : Item
  expression : UpdateExpression
  condition : Option Condition
  returnValuesOnFailure : Option String

/-- A blank condition is `none`. -/
structure TransactConditionCheck where
  tableName : String
  key : Item
  condition : Option Condition
  returnValuesOnFailure : Option String

structure TransactWriteItem where
  put : Option TransactPut
  delete : Option TransactDelete
  update : Option TransactUpdate
  conditionCheck : Option TransactConditionCheck

/-- Expressions are parsed and substituted. -/
structure TransactWriteItemsRequest where
  transactItems : List TransactWriteItem
  clientRequestToken : Option String

inductive TransactWriteKind where
  | put (item : Item)
  | delete
  | conditionCheck
  | update (expression : UpdateExpression) (key : Item)

structure TransactWritePlanItem where
  tableName : String
  pk : KeyValue
  sk : Option KeyValue
  kind : TransactWriteKind
  condition : Option ConditionPlan
  returnOldOnFailure : Bool

/-- The schemas a request is translated against, and which tables are known. -/
structure SchemaMap where
  schema : String → TableSchema
  known : String → Bool

def SchemaMap.get (m : SchemaMap) (name : String) : Except TranslateError TableSchema :=
  if m.known name then .ok (m.schema name) else .error (.resourceNotFoundForTransact name)

abbrev TransactTarget := String × KeyValue × Option KeyValue

def checkNewTarget (seen : List TransactTarget) (target : TransactTarget) :
    Except TranslateError Unit :=
  if target ∈ seen then .error .duplicateTransactTarget else .ok ()

def parseReturnOldOnFailure : Option String → Except TranslateError Bool
  | none | some "NONE" => .ok false
  | some "ALL_OLD" => .ok true
  | some other => .error (.unsupportedReturnValuesForOp "TransactWriteItems" other)

def translateTransactPut (m : SchemaMap) (seen : List TransactTarget) (put : TransactPut) :
    Except TranslateError TransactWritePlanItem := do
  let schema ← m.get put.tableName
  let (pk, sk) ← extractKeyPair put.item schema
  checkNewTarget seen (put.tableName, pk, sk)
  let condition ← translateCondition schema put.condition
  let returnOld ← parseReturnOldOnFailure put.returnValuesOnFailure
  return ⟨put.tableName, pk, sk, .put put.item, condition, returnOld⟩

def translateTransactDelete (m : SchemaMap) (seen : List TransactTarget) (del : TransactDelete) :
    Except TranslateError TransactWritePlanItem := do
  let schema ← m.get del.tableName
  let (pk, sk) ← extractKeyPair del.key schema
  rejectExtraKeyAttrs del.key schema
  checkNewTarget seen (del.tableName, pk, sk)
  let condition ← translateCondition schema del.condition
  let returnOld ← parseReturnOldOnFailure del.returnValuesOnFailure
  return ⟨del.tableName, pk, sk, .delete, condition, returnOld⟩

def requireCondition : Option ConditionPlan → Except TranslateError ConditionPlan
  | some plan => .ok plan
  | none => .error (.malformedTransactItem "ConditionCheck requires non-empty ConditionExpression")

def translateTransactConditionCheck (m : SchemaMap) (seen : List TransactTarget)
    (check : TransactConditionCheck) : Except TranslateError TransactWritePlanItem := do
  let schema ← m.get check.tableName
  let (pk, sk) ← extractKeyPair check.key schema
  rejectExtraKeyAttrs check.key schema
  checkNewTarget seen (check.tableName, pk, sk)
  let condition ← requireCondition (← translateCondition schema check.condition)
  let returnOld ← parseReturnOldOnFailure check.returnValuesOnFailure
  return ⟨check.tableName, pk, sk, .conditionCheck, some condition, returnOld⟩

def translateTransactUpdate (m : SchemaMap) (seen : List TransactTarget) (upd : TransactUpdate) :
    Except TranslateError TransactWritePlanItem := do
  let schema ← m.get upd.tableName
  let (pk, sk) ← extractKeyPair upd.key schema
  rejectExtraKeyAttrs upd.key schema
  checkNewTarget seen (upd.tableName, pk, sk)
  checkExpression schema upd.expression
  let condition ← translateCondition schema upd.condition
  let returnOld ← parseReturnOldOnFailure upd.returnValuesOnFailure
  return ⟨upd.tableName, pk, sk, .update upd.expression upd.key, condition, returnOld⟩

/-- Exactly one of the four. -/
def translateTransactItem (m : SchemaMap) (seen : List TransactTarget) (ti : TransactWriteItem) :
    Except TranslateError TransactWritePlanItem :=
  match ti.put, ti.delete, ti.update, ti.conditionCheck with
  | some put, none, none, none => translateTransactPut m seen put
  | none, some del, none, none => translateTransactDelete m seen del
  | none, none, some upd, none => translateTransactUpdate m seen upd
  | none, none, none, some check => translateTransactConditionCheck m seen check
  | _, _, _, _ => .error (.malformedTransactItem "Put | Delete | Update | ConditionCheck")

def translateTransactItems (m : SchemaMap) :
    List TransactTarget → List TransactWriteItem →
      Except TranslateError (List TransactWritePlanItem)
  | _, [] => .ok []
  | seen, ti :: rest => do
    let plan ← translateTransactItem m seen ti
    let plans ← translateTransactItems m ((plan.tableName, plan.pk, plan.sk) :: seen) rest
    return plan :: plans

def checkTransactCount (count maxItems : Nat) : Except TranslateError Unit :=
  if count = 0 then .error .emptyTransactRequest
  else if maxItems < count then .error (.tooManyTransactItems count maxItems)
  else .ok ()

def checkRequestToken (token : Option String) : Except TranslateError Unit :=
  if token.any fun t => 36 < t.utf8ByteSize then
    .error (.invalidConditionExpression "ClientRequestToken must be <= 36 chars")
  else .ok ()

def translateTransactWriteItems (req : TransactWriteItemsRequest) (m : SchemaMap)
    (maxItems : Nat) : Except TranslateError (List TransactWritePlanItem) := do
  checkTransactCount req.transactItems.length maxItems
  checkRequestToken req.clientRequestToken
  translateTransactItems m [] req.transactItems

end Rektifier
