import Rektifier.Expressions
import Rektifier.Binary64

namespace Rektifier

inductive EvalError where
  | pathDoesNotExist (path : String)
  | arithmeticOperandNotNumber (got : String)
  | arithmeticParseFailed (value : String)
  /-- `ArithmeticParseFailed` with the stored payload rendered as JSON text. -/
  | storedNumberParseFailed (value : Json)
  | listAppendOperandNotList (got : String)
  | itemNotObject
  /-- The panic of `top_name_or_unreachable`. -/
  | unreachablePath
deriving DecidableEq

def topNameOrUnreachable (p : Path) : Except EvalError String :=
  match p.topName with
  | some n => .ok n
  | none => .error .unreachablePath

def staticTag (tag : String) : String :=
  if tag ∈ ["S", "N", "B", "BOOL", "NULL", "L", "M", "SS", "NS", "BS"] then tag else "unknown"

def parseDecimal (s : String) : Except EvalError Binary64 :=
  match Binary64.parse s with
  | some f => .ok f
  | none => .error (.arithmeticParseFailed s)

def formatDecimal (f : Binary64) : String :=
  match f.toInt? with
  | some n => if |n| < 10 ^ 16 then toString n else f.display
  | none => f.display

def ddbNValue (v : Json) : Except EvalError String :=
  match v.singleTagged with
  | none => .error (.arithmeticOperandNotNumber "non-DDB-tagged value")
  | some (tag, inner) =>
    if tag ≠ "N" then .error (.arithmeticOperandNotNumber (staticTag tag))
    else match inner.asStr with
      | some s => .ok s
      | none => .error (.arithmeticOperandNotNumber "non-string N")

def ddbList (v : Json) : Except EvalError (List Json) :=
  match v.singleTagged with
  | none => .error (.listAppendOperandNotList "non-DDB-tagged value")
  | some (tag, inner) =>
    if tag ≠ "L" then .error (.listAppendOperandNotList (staticTag tag))
    else match inner.asArray with
      | some items => .ok items
      | none => .error (.listAppendOperandNotList "non-array L")

def listConcat (a b : Json) : Except EvalError Json := do
  let av ← ddbList a
  let bv ← ddbList b
  return .obj [("L", .arr (av ++ bv))]

def readAttr (existing : Option Json) (p : Path) : Except EvalError Json := do
  let attr ← topNameOrUnreachable p
  match existing.bind fun v => v.get attr with
  | some v => return v
  | none => throw (.pathDoesNotExist attr)

def operandValue (existing : Option Json) : Operand → Except EvalError Json
  | .value v => .ok v.toValue
  | .path p => readAttr existing p

def arith (existing : Option Json) (a b : Operand) (plus : Bool) : Except EvalError Json := do
  let av ← operandValue existing a
  let bv ← operandValue existing b
  let an ← ddbNValue av
  let bn ← ddbNValue bv
  let lhs ← parseDecimal an
  let rhs ← parseDecimal bn
  let result := if plus then lhs.add rhs else lhs.sub rhs
  return .obj [("N", .str (formatDecimal result))]

/-- A SET right-hand side, on the row before the update. -/
def computeSetRhs (existing : Option Json) : SetRhs → Except EvalError Json
  | .operand o => operandValue existing o
  | .plus a b => arith existing a b true
  | .minus a b => arith existing a b false
  | .ifNotExists p fallback => do
    let attr ← topNameOrUnreachable p
    match existing.bind fun v => v.get attr with
    | some v => return v
    | none => computeSetRhs existing fallback
  | .listAppend a b => do
    let av ← computeSetRhs existing a
    let bv ← computeSetRhs existing b
    listConcat av bv

def stringItems (items : List Json) : List String := items.filterMap Json.asStr

def setValue (tag : String) (items : List String) : Json := .obj [(tag, .arr (items.map .str))]

def setUnion (existing : Option Json) (tag : String) (addend : List String) :
    Except EvalError Json := do
  let start ← match existing with
    | none => pure []
    | some v => match v.singleTagged with
      | some (existingTag, arr) =>
        if existingTag = tag then pure ((arr.asArray.map stringItems).getD [])
        else throw (.listAppendOperandNotList (staticTag existingTag))
      | none => pure []
  return setValue tag (addend.foldl (fun acc s => if s ∈ acc then acc else acc ++ [s]) start)

/-- Zero on a missing attribute. -/
def addBase (existing : Option Json) : Except EvalError Binary64 :=
  match existing with
  | none => .ok (.finite 0)
  | some v => match v.singleTagged with
    | some (tag, s) =>
      if tag = "N" then
        match s.asStr.bind Binary64.parse with
        | some f => .ok f
        | none => .error (.storedNumberParseFailed s)
      else .error (.arithmeticOperandNotNumber (staticTag tag))
    | none => .error (.arithmeticOperandNotNumber "non-DDB-tagged value")

def applyAdd (existing : Option Json) : AttributeValue → Except EvalError Json
  | .n v => do
    let lhs ← addBase existing
    let rhs ← parseDecimal v
    return .obj [("N", .str (formatDecimal (lhs.add rhs)))]
  | .ss items => setUnion existing "SS" items
  | .ns items => setUnion existing "NS" items
  | .bs items => setUnion existing "BS" (items.map Base64.encode)
  | addend => .error (.arithmeticOperandNotNumber addend.typeName)

def deleteSubset : AttributeValue → Except EvalError (String × List String)
  | .ss items => .ok ("SS", items)
  | .ns items => .ok ("NS", items)
  | .bs items => .ok ("BS", items.map Base64.encode)
  | other => .error (.listAppendOperandNotList other.typeName)

/-- `none` when nothing is left. -/
def applyDelete (existing : Json) (subset : AttributeValue) : Except EvalError (Option Json) := do
  let (tag, toRemove) ← deleteSubset subset
  match existing.singleTagged with
  | none => throw (.listAppendOperandNotList "non-DDB-tagged value")
  | some (existingTag, arr) =>
    if existingTag ≠ tag then throw (.listAppendOperandNotList (staticTag existingTag))
    else match arr.asArray with
      | none => throw (.listAppendOperandNotList "non-array set wrapper")
      | some items =>
        let remaining := (stringItems items).filter fun s => s ∉ toRemove
        return if remaining.isEmpty then none else some (setValue tag remaining)

def stageSet (existing : Option Json) (c : SetClause) : Except EvalError (String × Json) := do
  let attr ← topNameOrUnreachable c.path
  let value ← computeSetRhs existing c.value
  return (attr, value)

def addStep (obj : List (String × Json)) (a : AddAction) : Except EvalError (List (String × Json)) := do
  let attr ← topNameOrUnreachable a.path
  let value ← applyAdd (Entries.get attr obj) a.value
  return Entries.insert attr value obj

def deleteStep (obj : List (String × Json)) (a : DeleteAction) :
    Except EvalError (List (String × Json)) := do
  let attr ← topNameOrUnreachable a.path
  match Entries.get attr obj with
  | none => return obj
  | some existing => match ← applyDelete existing a.value with
    | some value => return Entries.insert attr value obj
    | none => return Entries.erase attr obj

/-- SET values are read on the original row; then SET, REMOVE, ADD and DELETE write in turn. -/
def applyUpdateExpression (existing : Option Json) (expr : UpdateExpression) (key : Item) :
    Except EvalError Json := do
  let staged ← expr.set.mapM (stageSet existing)
  match (existing.getD (Item.toValue key)).asObject with
  | none => throw .itemNotObject
  | some obj =>
    let removed ← expr.remove.mapM topNameOrUnreachable
    let obj ← expr.add.foldlM addStep (Entries.eraseAll (Entries.insertAll obj staged) removed)
    let obj ← expr.delete.foldlM deleteStep obj
    return .obj obj

end Rektifier
