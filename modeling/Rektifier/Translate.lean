import Rektifier.Expressions
import Rektifier.Schema

namespace Rektifier

inductive TranslateError where
  | missingPartitionKey (attr : String)
  | missingSortKey (attr : String)
  | partitionKeyTypeMismatch (attr : String) (expected : KeyType) (got : String)
  | sortKeyTypeMismatch (attr : String) (expected : KeyType) (got : String)
  | extraKeyAttribute (attr : String)
  | emptyUpdateExpression
  | updateTouchesKey (attr : String)
  | unsupportedNestedPath (path : String)
  | unsupportedSetRhs (shape : String)
  | invalidAddValueType (got : String)
  | invalidDeleteValueType (got : String)
  | unsupportedConditionInFastPath
  | unsupportedConditionNestedPath (path : String)
  | unsupportedReturnValues (got : String)
  | keyConditionMissingPkEquality (attr : String)
  | keyConditionNonKeyAttr (attr : String)
  | keyConditionUnsupportedShape (reason : String)
  | keyConditionPkMustBeEquality (attr op : String)
  | keyConditionRhsMustBeValue
  | keyConditionBeginsWithRequiresStringSk (attr : String) (got : KeyType)
  | keyConditionSkTypeMismatch (attr : String) (expected : KeyType) (got : String)
  | keyConditionPkTypeMismatch (attr : String) (expected : KeyType) (got : String)
  | invalidLimit (got : Nat)
  | invalidExclusiveStartKey (reason : String)
  | exclusiveStartKeyPkMismatch (attr : String)
  | scanFeatureNotSupported (what : String)
  | indexNotFound (index : String)
  | indexNotServeable (index reason : String)
  | unsupportedSelect (got : String)
  | invalidSelectMode (reason : String)
  | invalidConditionExpression (reason : String)
  | unsupportedReturnValuesForOp (op got : String)
  | emptyTransactRequest
  | tooManyTransactItems (got max : Nat)
  | malformedTransactItem (expected : String)
  | duplicateTransactTarget
  | resourceNotFoundForTransact (table : String)
  | emptyBatchWriteRequest
  | tooManyWritesInBatch (got max : Nat)
  | resourceNotFoundForBatch (table : String)
  | emptyWritesInBatch (table : String)
  | duplicateKeyInBatch
  | malformedWriteRequest
deriving DecidableEq

def formatSegment (first : Bool) : PathSegment → String
  | .name n => if first then n else "." ++ n
  | .index i => "[" ++ toString i ++ "]"

def formatPath (p : Path) : String :=
  match p.segments with
  | [] => ""
  | seg :: rest => formatSegment true seg ++ String.join (rest.map (formatSegment false))

inductive KeyRole where
  | pk | sk

def missingKey : KeyRole → String → TranslateError
  | .pk, attr => .missingPartitionKey attr
  | .sk, attr => .missingSortKey attr

def keyTypeMismatch : KeyRole → String → KeyType → String → TranslateError
  | .pk => .partitionKeyTypeMismatch
  | .sk => .sortKeyTypeMismatch

def extractKey (item : Item) (attr : String) (expected : KeyType) (role : KeyRole) :
    Except TranslateError KeyValue :=
  match item.get attr with
  | none => .error (missingKey role attr)
  | some av => match expected, av with
    | .s, .s v => .ok (.s v)
    | .n, .n v => .ok (.n v)
    | .b, .b v => .ok (.b v)
    | _, other => .error (keyTypeMismatch role attr expected other.typeName)

def extractKeyPair (item : Item) (schema : TableSchema) :
    Except TranslateError (KeyValue × Option KeyValue) := do
  let pk ← extractKey item schema.pkAttr schema.pkType .pk
  match schema.sk with
  | some (attr, t) =>
    let sk ← extractKey item attr t .sk
    return (pk, some sk)
  | none => return (pk, none)

def TableSchema.isKeyAttr (schema : TableSchema) (attr : String) : Bool :=
  attr = schema.pkAttr || schema.sk.any fun k => k.1 = attr

def rejectExtraKeyAttrs (key : Item) (schema : TableSchema) : Except TranslateError Unit :=
  key.keys.forM fun attr =>
    if schema.isKeyAttr attr then .ok () else .error (.extraKeyAttribute attr)

def checkTopLevel (p : Path) : Except TranslateError Unit :=
  if p.isTopLevel then .ok () else .error (.unsupportedNestedPath (formatPath p))

def checkNotKey (p : Path) (schema : TableSchema) : Except TranslateError Unit :=
  match p.topName with
  | none => .ok ()
  | some n => if schema.isKeyAttr n then .error (.updateTouchesKey n) else .ok ()

def checkOperandPathTopLevel : Operand → Except TranslateError Unit
  | .path p => checkTopLevel p
  | .value _ => .ok ()

def checkSetRhsPathsTopLevel : SetRhs → Except TranslateError Unit
  | .operand o => checkOperandPathTopLevel o
  | .plus a b => do checkOperandPathTopLevel a; checkOperandPathTopLevel b
  | .minus a b => do checkOperandPathTopLevel a; checkOperandPathTopLevel b
  | .ifNotExists p inner => do checkTopLevel p; checkSetRhsPathsTopLevel inner
  | .listAppend a b => do checkSetRhsPathsTopLevel a; checkSetRhsPathsTopLevel b

def checkAddValueType : AttributeValue → Except TranslateError Unit
  | .n _ | .ss _ | .ns _ | .bs _ => .ok ()
  | other => .error (.invalidAddValueType other.typeName)

def checkDeleteValueType : AttributeValue → Except TranslateError Unit
  | .ss _ | .ns _ | .bs _ => .ok ()
  | other => .error (.invalidDeleteValueType other.typeName)

def checkConditionPath (p : Path) : Except TranslateError Unit :=
  if p.isTopLevel then .ok () else .error (.unsupportedConditionNestedPath (formatPath p))

def checkConditionOperand : Operand → Except TranslateError Unit
  | .path p => checkConditionPath p
  | .value _ => .ok ()

def checkConditionPathsTopLevel : Condition → Except TranslateError Unit
  | .attributeExists p => checkConditionPath p
  | .attributeNotExists p => checkConditionPath p
  | .compare _ left right => do checkConditionOperand left; checkConditionOperand right
  | .beginsWith p o => do checkConditionPath p; checkConditionOperand o
  | .contains p o => do checkConditionPath p; checkConditionOperand o
  | .attributeType p o => do checkConditionPath p; checkConditionOperand o
  | .between v lo hi => do
    checkConditionOperand v; checkConditionOperand lo; checkConditionOperand hi
  | .isIn v items => do checkConditionOperand v; items.forM checkConditionOperand
  | .and a b => do checkConditionPathsTopLevel a; checkConditionPathsTopLevel b
  | .or a b => do checkConditionPathsTopLevel a; checkConditionPathsTopLevel b
  | .not inner => checkConditionPathsTopLevel inner

inductive ConditionRouting where
  | insertOnlyOnPk | simpleSql | needsTx
deriving DecidableEq

/-- One path and one `N` or `S` value, in either order. -/
def orderingHasTypedExtraction : Operand → Operand → Bool
  | .path _, .value (.n _) | .path _, .value (.s _) => true
  | .value (.n _), .path _ | .value (.s _), .path _ => true
  | _, _ => false

def conditionFitsSql : Condition → Bool
  | .attributeExists _ | .attributeNotExists _ => true
  | .compare op left right => match op with
    | .eq | .ne => true
    | .lt | .le | .gt | .ge => orderingHasTypedExtraction left right
  | .beginsWith _ _ | .contains _ _ | .between _ _ _ | .isIn _ _ | .attributeType _ _ => false
  | .and a b => conditionFitsSql a && conditionFitsSql b
  | .or a b => conditionFitsSql a && conditionFitsSql b
  | .not inner => conditionFitsSql inner

def isNotExistsOnPk (schema : TableSchema) : Condition → Bool
  | .attributeNotExists p => p.topName = some schema.pkAttr
  | _ => false

def classifyCondition (cond : Condition) (schema : TableSchema) : ConditionRouting :=
  if isNotExistsOnPk schema cond then .insertOnlyOnPk
  else if conditionFitsSql cond then .simpleSql
  else .needsTx

structure ConditionPlan where
  condition : Condition
  routing : ConditionRouting

inductive ReturnValuesMode where
  | none | allNew | allOld | updatedNew | updatedOld
deriving DecidableEq

structure UpdateItemPlan where
  pk : KeyValue
  sk : Option KeyValue
  expression : UpdateExpression
  condition : Option ConditionPlan
  returnValues : ReturnValuesMode

/-- Expressions are parsed and substituted. -/
structure UpdateItemRequest where
  key : Item
  expression : UpdateExpression
  condition : Option Condition
  returnValues : Option String

def resolveReturnValues : Option String → Except TranslateError ReturnValuesMode
  | .none => .ok .none
  | some "NONE" => .ok .none
  | some "ALL_NEW" => .ok .allNew
  | some "ALL_OLD" => .ok .allOld
  | some "UPDATED_NEW" => .ok .updatedNew
  | some "UPDATED_OLD" => .ok .updatedOld
  | some other => .error (.unsupportedReturnValues other)

def checkSetClause (schema : TableSchema) (c : SetClause) : Except TranslateError Unit := do
  checkTopLevel c.path
  checkNotKey c.path schema
  checkSetRhsPathsTopLevel c.value

def checkRemovePath (schema : TableSchema) (p : Path) : Except TranslateError Unit := do
  checkTopLevel p
  checkNotKey p schema

def checkAddAction (schema : TableSchema) (a : AddAction) : Except TranslateError Unit := do
  checkTopLevel a.path
  checkNotKey a.path schema
  checkAddValueType a.value

def checkDeleteAction (schema : TableSchema) (a : DeleteAction) : Except TranslateError Unit := do
  checkTopLevel a.path
  checkNotKey a.path schema
  checkDeleteValueType a.value

def checkExpression (schema : TableSchema) (e : UpdateExpression) : Except TranslateError Unit := do
  if e.set.isEmpty && e.remove.isEmpty && e.add.isEmpty && e.delete.isEmpty then
    throw .emptyUpdateExpression
  e.set.forM (checkSetClause schema)
  e.remove.forM (checkRemovePath schema)
  e.add.forM (checkAddAction schema)
  e.delete.forM (checkDeleteAction schema)

def translateCondition (schema : TableSchema) :
    Option Condition → Except TranslateError (Option ConditionPlan)
  | .none => .ok .none
  | some cond => do
    checkConditionPathsTopLevel cond
    return some ⟨cond, classifyCondition cond schema⟩

def translateUpdateItem (req : UpdateItemRequest) (schema : TableSchema) :
    Except TranslateError UpdateItemPlan := do
  let returnValues ← resolveReturnValues req.returnValues
  let (pk, sk) ← extractKeyPair req.key schema
  rejectExtraKeyAttrs req.key schema
  checkExpression schema req.expression
  let condition ← translateCondition schema req.condition
  return ⟨pk, sk, req.expression, condition, returnValues⟩

end Rektifier
