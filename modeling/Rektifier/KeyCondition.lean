import Rektifier.Translate

namespace Rektifier

inductive SkCondition where
  | eq (v : KeyValue)
  | lt (v : KeyValue)
  | le (v : KeyValue)
  | gt (v : KeyValue)
  | ge (v : KeyValue)
  | between (lo hi : KeyValue)
  | beginsWithS (start : String)
deriving DecidableEq

structure QueryKeyBounds where
  pk : KeyValue
  skCondition : Option SkCondition
deriving DecidableEq

def ComparisonOp.asStr : ComparisonOp → String
  | .eq => "="
  | .ne => "<>"
  | .lt => "<"
  | .le => "<="
  | .gt => ">"
  | .ge => ">="

/-- The error is the type found. -/
def avToKeyvalue (av : AttributeValue) (expected : KeyType) : Except String KeyValue :=
  match expected, av with
  | .s, .s v => .ok (.s v)
  | .n, .n v => .ok (.n v)
  | .b, .b v => .ok (.b v)
  | _, other => .error other.typeName

def requireTopName (reason : String) (p : Path) : Except TranslateError String :=
  match p.topName with
  | some name => .ok name
  | none => .error (.keyConditionUnsupportedShape reason)

/-- The one path, by its first name, and the one value. -/
def pathAndValue : Operand → Operand → Except TranslateError (String × AttributeValue)
  | .path p, .value v | .value v, .path p =>
    (requireTopName "operand path is not a top-level name" p).map fun name => (name, v)
  | .path _, .path _ => .error .keyConditionRhsMustBeValue
  | .value _, .value _ => .error (.keyConditionUnsupportedShape
      "both operands are values (must reference a key attribute)")

def pathName : Operand → Except TranslateError String
  | .path p => requireTopName "operand path is not a top-level name" p
  | .value _ => .error (.keyConditionUnsupportedShape "BETWEEN target must be a path")

def keyOperandValue : Operand → Except TranslateError AttributeValue
  | .value v => .ok v
  | .path _ => .error .keyConditionRhsMustBeValue

def checkPkAttr (schema : TableSchema) (attr : String) : Except TranslateError Unit :=
  if attr = schema.pkAttr then .ok ()
  else if schema.sk.any fun k => k.1 = attr then
    .error (.keyConditionMissingPkEquality schema.pkAttr)
  else .error (.keyConditionNonKeyAttr attr)

def checkPkOp (attr : String) (op : ComparisonOp) : Except TranslateError Unit :=
  if op = .eq then .ok () else .error (.keyConditionPkMustBeEquality attr op.asStr)

def matchPkEquality (cond : Condition) (schema : TableSchema) : Except TranslateError KeyValue :=
  match cond with
  | .compare op left right => do
    let (attr, value) ← pathAndValue left right
    checkPkAttr schema attr
    checkPkOp attr op
    (avToKeyvalue value schema.pkType).mapError (.keyConditionPkTypeMismatch attr schema.pkType)
  | .and _ _ => .error (.keyConditionUnsupportedShape "nested AND not allowed on the PK side")
  | .or _ _ | .not _ => .error (.keyConditionUnsupportedShape "OR / NOT are not allowed")
  | .attributeExists _ | .attributeNotExists _ => .error (.keyConditionUnsupportedShape
      "attribute_exists / attribute_not_exists are not allowed")
  | .beginsWith _ _ | .contains _ _ | .between _ _ _ | .isIn _ _ | .attributeType _ _ =>
    .error (.keyConditionUnsupportedShape "function-call shape used on the partition key term")

def checkSkAttr (skAttr attr : String) : Except TranslateError Unit :=
  if attr = skAttr then .ok () else .error (.keyConditionNonKeyAttr attr)

def skValue (attr : String) (skType : KeyType) (av : AttributeValue) :
    Except TranslateError KeyValue :=
  (avToKeyvalue av skType).mapError (.keyConditionSkTypeMismatch attr skType)

/-- The attribute is taken to be the left operand. -/
def skComparison (op : ComparisonOp) (kv : KeyValue) : Except TranslateError SkCondition :=
  match op with
  | .eq => .ok (.eq kv)
  | .lt => .ok (.lt kv)
  | .le => .ok (.le kv)
  | .gt => .ok (.gt kv)
  | .ge => .ok (.ge kv)
  | .ne => .error (.keyConditionUnsupportedShape "`<>` is not valid on the sort key")

def checkStringSk (attr : String) (skType : KeyType) : Except TranslateError Unit :=
  if skType = .s then .ok () else .error (.keyConditionBeginsWithRequiresStringSk attr skType)

def beginsWithBound (attr : String) : AttributeValue → Except TranslateError SkCondition
  | .s start => .ok (.beginsWithS start)
  | other => .error (.keyConditionSkTypeMismatch attr .s other.typeName)

def matchSkTerm (skAttr : String) (skType : KeyType) : Condition →
    Except TranslateError SkCondition
  | .compare op left right => do
    let (attr, value) ← pathAndValue left right
    checkSkAttr skAttr attr
    let kv ← skValue attr skType value
    skComparison op kv
  | .between target lo hi => do
    let attr ← pathName target
    checkSkAttr skAttr attr
    let loAv ← keyOperandValue lo
    let hiAv ← keyOperandValue hi
    let loKv ← skValue attr skType loAv
    let hiKv ← skValue attr skType hiAv
    return .between loKv hiKv
  | .beginsWith p operand => do
    let attr ← requireTopName "begins_with target is not a top-level name" p
    checkSkAttr skAttr attr
    checkStringSk attr skType
    let av ← keyOperandValue operand
    beginsWithBound attr av
  | .and _ _ | .or _ _ | .not _ => .error (.keyConditionUnsupportedShape
      "boolean combinators are not allowed on the sort-key term")
  | .attributeExists _ | .attributeNotExists _ => .error (.keyConditionUnsupportedShape
      "attribute_exists / attribute_not_exists are not allowed")
  | .contains _ _ => .error (.keyConditionUnsupportedShape
      "contains is not allowed in KeyConditionExpression")
  | .isIn _ _ => .error (.keyConditionUnsupportedShape
      "IN is not allowed in KeyConditionExpression")
  | .attributeType _ _ => .error (.keyConditionUnsupportedShape
      "attribute_type is not allowed in KeyConditionExpression")

def matchSkPredicate (cond : Condition) (schema : TableSchema) :
    Except TranslateError SkCondition :=
  match schema.sk with
  | some (skAttr, skType) => matchSkTerm skAttr skType cond
  | none => .error (.keyConditionUnsupportedShape
      "table is hash-only; AND'ing a sort-key predicate is not allowed")

def extractKeyCondition (cond : Condition) (schema : TableSchema) :
    Except TranslateError QueryKeyBounds :=
  match cond with
  | .and a b => do
    let pk ← matchPkEquality a schema
    let sk ← matchSkPredicate b schema
    return ⟨pk, some sk⟩
  | single => do
    let pk ← matchPkEquality single schema
    return ⟨pk, none⟩

def kvToAv : KeyValue → AttributeValue
  | .s v => .s v
  | .n v => .n v
  | .b v => .b v

/-- The key attribute, or what is wrong with the start key. -/
def eskKey (role : String) (esk : Item) (attr : String) (t : KeyType) (keyRole : KeyRole) :
    Except TranslateError KeyValue :=
  (extractKey esk attr t keyRole).mapError fun _ =>
    .invalidExclusiveStartKey ("missing or wrong-typed " ++ role ++ " key `" ++ attr ++ "`")

def eskSk (esk : Item) (schema : TableSchema) : Except TranslateError (Option KeyValue) :=
  match schema.sk with
  | some (attr, t) => (eskKey "sort" esk attr t .sk).map some
  | none => .ok none

def rejectExtraEskAttrs (esk : Item) (schema : TableSchema) : Except TranslateError Unit :=
  esk.keys.forM fun attr =>
    if schema.isKeyAttr attr then .ok ()
    else .error (.invalidExclusiveStartKey
      ("unexpected attribute `" ++ attr ++ "` in ExclusiveStartKey"))

def checkEskPk (schema : TableSchema) (eskPk queryPk : KeyValue) : Except TranslateError Unit :=
  if eskPk = queryPk then .ok () else .error (.exclusiveStartKeyPkMismatch schema.pkAttr)

/-- The start key of a Query, in the request's partition. -/
def decodeEsk (esk : Item) (schema : TableSchema) (queryPk : KeyValue) :
    Except TranslateError (Option KeyValue) := do
  let pk ← eskKey "partition" esk schema.pkAttr schema.pkType .pk
  checkEskPk schema pk queryPk
  let sk ← eskSk esk schema
  rejectExtraEskAttrs esk schema
  return sk

def decodeScanEsk (esk : Item) (schema : TableSchema) :
    Except TranslateError (KeyValue × Option KeyValue) := do
  let pk ← eskKey "partition" esk schema.pkAttr schema.pkType .pk
  let sk ← eskSk esk schema
  rejectExtraEskAttrs esk schema
  return (pk, sk)

def encodeLek (pk : KeyValue) (sk : Option KeyValue) (schema : TableSchema) : Item :=
  let m := OrderedMap.empty.insert schema.pkAttr (kvToAv pk)
  match schema.sk, sk with
  | some (attr, _), some v => m.insert attr (kvToAv v)
  | _, _ => m

def validateLimit (limit : Nat) : Except TranslateError Nat :=
  if 1 ≤ limit ∧ limit ≤ 1000 then .ok limit else .error (.invalidLimit limit)

end Rektifier
