import Rektifier.Expressions
import Rektifier.Binary64

namespace Rektifier

def conditionOperandValue (existing : Option Json) : Operand → Option Json
  | .path p => existing.bind fun v => p.topName.bind v.get
  | .value v => some v.toValue

def pathValue (existing : Option Json) (p : Path) : Option Json :=
  p.topName.bind fun n => existing.bind fun v => v.get n

def applyOrd (op : ComparisonOp) (ord : Option Ordering) : Bool :=
  match op, ord with
  | .lt, some .lt => true
  | .le, some .lt => true
  | .le, some .eq => true
  | .gt, some .gt => true
  | .ge, some .gt => true
  | .ge, some .eq => true
  | _, _ => false

/-- Orderings need one shared tag, `N` as `f64` or `S` as text. -/
def compareOrdering (op : ComparisonOp) (l r : Json) : Bool :=
  match l.singleTagged, r.singleTagged with
  | some (lTag, lVal), some (rTag, rVal) =>
    if lTag ≠ rTag then false
    else if lTag = "N" then
      match lVal.asStr.bind Binary64.parse, rVal.asStr.bind Binary64.parse with
      | some a, some b => applyOrd op (a.partialCmp b)
      | _, _ => false
    else if lTag = "S" then
      match lVal.asStr, rVal.asStr with
      | some a, some b => applyOrd op (some (compare a b))
      | _, _ => false
    else false
  | _, _ => false

def compareValues (op : ComparisonOp) (l r : Json) : Bool :=
  match op with
  | .eq => l = r
  | .ne => l ≠ r
  | ord => compareOrdering ord l r

def evalCompare (existing : Option Json) (op : ComparisonOp) (left right : Operand) : Bool :=
  match conditionOperandValue existing left, conditionOperandValue existing right with
  | some lv, some rv => compareValues op lv rv
  | _, _ => false

def evalBeginsWith (existing : Option Json) (p : Path) (o : Operand) : Bool :=
  match pathValue existing p, conditionOperandValue existing o with
  | some attrVal, some needle =>
    match attrVal.singleTagged, needle.singleTagged with
    | some ("S", a), some ("S", b) =>
      match a.asStr, b.asStr with
      | some haystack, some start => start.toList.isPrefixOf haystack.toList
      | _, _ => false
    | _, _ => false
  | _, _ => false

def containsInSet (arr needle : Json) (scalarTag : String) : Bool :=
  match arr.asArray, needle.singleTagged with
  | some items, some (tag, v) => tag = scalarTag ∧ v ∈ items
  | _, _ => false

def containsText (haystack needle : String) : Bool :=
  haystack.toList.tails.any fun t => needle.toList.isPrefixOf t

def evalContains (existing : Option Json) (p : Path) (o : Operand) : Bool :=
  match pathValue existing p, conditionOperandValue existing o with
  | some attrVal, some needle =>
    match attrVal.singleTagged with
    | some ("S", haystackV) =>
      match haystackV.asStr, needle.singleTagged with
      | some haystack, some ("S", needleV) => needleV.asStr.any (containsText haystack)
      | _, _ => false
    | some ("SS", arr) => containsInSet arr needle "S"
    | some ("NS", arr) => containsInSet arr needle "N"
    | some ("BS", arr) => containsInSet arr needle "B"
    | some ("L", arr) => arr.asArray.any fun items => needle ∈ items
    | _ => false
  | _, _ => false

def evalBetween (existing : Option Json) (v lo hi : Operand) : Bool :=
  match conditionOperandValue existing v, conditionOperandValue existing lo,
    conditionOperandValue existing hi with
  | some vv, some lov, some hiv => compareValues .ge vv lov && compareValues .le vv hiv
  | _, _, _ => false

def evalIn (existing : Option Json) (v : Operand) (items : List Operand) : Bool :=
  match conditionOperandValue existing v with
  | some vv => items.any fun o => conditionOperandValue existing o = some vv
  | none => false

def evalAttributeType (existing : Option Json) (p : Path) (o : Operand) : Bool :=
  match pathValue existing p, conditionOperandValue existing o with
  | some attrVal, some ov =>
    match ov.singleTagged with
    | some ("S", s) =>
      match s.asStr, attrVal.singleTagged with
      | some typeStr, some (tag, _) => tag = typeStr
      | _, _ => false
    | _ => false
  | _, _ => false

/-- Two-valued: a comparison on a missing attribute is false. -/
def evaluateCondition (existing : Option Json) : Condition → Bool
  | .attributeExists p => (pathValue existing p).isSome
  | .attributeNotExists p =>
    p.topName.any fun n => (existing.bind fun v => v.get n).isNone
  | .compare op left right => evalCompare existing op left right
  | .beginsWith p o => evalBeginsWith existing p o
  | .contains p o => evalContains existing p o
  | .between v lo hi => evalBetween existing v lo hi
  | .isIn v items => evalIn existing v items
  | .attributeType p o => evalAttributeType existing p o
  | .and a b => evaluateCondition existing a && evaluateCondition existing b
  | .or a b => evaluateCondition existing a || evaluateCondition existing b
  | .not inner => !evaluateCondition existing inner

end Rektifier
