import Rektifier.Expressions

namespace Rektifier

inductive SubstituteError where
  | unknownName (name : String)
  | unknownValue (name : String)
  | reservedWord (word : String)
deriving DecidableEq

/-- As the error for a path in the place of a value shows it. -/
def debugPath (p : RawPath) : String :=
  (p.segments.foldl (fun (first, out) seg => (false, out ++ match seg with
    | .name n => (if first then "" else ".") ++ n
    | .nameRef n => (if first then "" else ".") ++ "#" ++ n
    | .index i => "[" ++ toString i.toNat ++ "]")) (true, "")).2

section Resolve

variable (reserved : String → Bool) (names : String → Option String)
  (values : String → Option AttributeValue)

def resolveSegment : RawPathSegment → Except SubstituteError PathSegment
  | .name n => if reserved n then .error (.reservedWord n) else .ok (.name n)
  | .index i => .ok (.index i.toNat)
  | .nameRef n => match (names ("#" ++ n)).or (names n) with
    | some actual => .ok (.name actual)
    | none => .error (.unknownName n)

def resolvePath (p : RawPath) : Except SubstituteError Path := do
  let segments ← p.segments.mapM (resolveSegment reserved names)
  return ⟨segments⟩

def resolveValue (v : String) : Except SubstituteError AttributeValue :=
  match (values (":" ++ v)).or (values v) with
  | some av => .ok av
  | none => .error (.unknownValue v)

def resolveOperand : RawOperand → Except SubstituteError Operand
  | .path p => do
    let p ← resolvePath reserved names p
    return .path p
  | .valueRef v => do
    let av ← resolveValue values v
    return .value av

def resolveOperandToValue : RawOperand → Except SubstituteError AttributeValue
  | .path p => .error (.unknownValue
      ("ADD/DELETE require a value reference (`:v`), got path `" ++ debugPath p ++ "`"))
  | .valueRef v => resolveValue values v

def resolveSetRhs : RawSetRhs → Except SubstituteError SetRhs
  | .operand o => do
    let o ← resolveOperand reserved names values o
    return .operand o
  | .plus a b => do
    let a ← resolveOperand reserved names values a
    let b ← resolveOperand reserved names values b
    return .plus a b
  | .minus a b => do
    let a ← resolveOperand reserved names values a
    let b ← resolveOperand reserved names values b
    return .minus a b
  | .ifNotExists p inner => do
    let p ← resolvePath reserved names p
    let inner ← resolveSetRhs inner
    return .ifNotExists p inner
  | .listAppend a b => do
    let a ← resolveSetRhs a
    let b ← resolveSetRhs b
    return .listAppend a b

def resolveSetClause (c : RawSetClause) : Except SubstituteError SetClause := do
  let path ← resolvePath reserved names c.path
  let value ← resolveSetRhs reserved names values c.value
  return ⟨path, value⟩

def resolveAction {α : Type} (mk : Path → AttributeValue → α) (p : RawPath) (o : RawOperand) :
    Except SubstituteError α := do
  let path ← resolvePath reserved names p
  let value ← resolveOperandToValue values o
  return mk path value

def substituteUpdate (raw : RawUpdateExpression) : Except SubstituteError UpdateExpression := do
  let set ← raw.set.mapM (resolveSetClause reserved names values)
  let remove ← raw.remove.mapM (resolvePath reserved names)
  let add ← raw.add.mapM fun a => resolveAction reserved names values AddAction.mk a.path a.value
  let delete ← raw.delete.mapM fun a =>
    resolveAction reserved names values DeleteAction.mk a.path a.value
  return ⟨set, remove, add, delete⟩

def substituteCondition : RawCondition → Except SubstituteError Condition
  | .compare op left right => do
    let left ← resolveOperand reserved names values left
    let right ← resolveOperand reserved names values right
    return .compare op left right
  | .attributeExists p => do
    let p ← resolvePath reserved names p
    return .attributeExists p
  | .attributeNotExists p => do
    let p ← resolvePath reserved names p
    return .attributeNotExists p
  | .beginsWith p o => do
    let p ← resolvePath reserved names p
    let o ← resolveOperand reserved names values o
    return .beginsWith p o
  | .contains p o => do
    let p ← resolvePath reserved names p
    let o ← resolveOperand reserved names values o
    return .contains p o
  | .between v lo hi => do
    let v ← resolveOperand reserved names values v
    let lo ← resolveOperand reserved names values lo
    let hi ← resolveOperand reserved names values hi
    return .between v lo hi
  | .isIn v items => do
    let v ← resolveOperand reserved names values v
    let items ← items.mapM (resolveOperand reserved names values)
    return .isIn v items
  | .attributeType p o => do
    let p ← resolvePath reserved names p
    let o ← resolveOperand reserved names values o
    return .attributeType p o
  | .and a b => do
    let a ← substituteCondition a
    let b ← substituteCondition b
    return .and a b
  | .or a b => do
    let a ← substituteCondition a
    let b ← substituteCondition b
    return .or a b
  | .not inner => do
    let inner ← substituteCondition inner
    return .not inner

end Resolve

end Rektifier
