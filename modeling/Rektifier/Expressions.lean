import Rektifier.AttributeValue

namespace Rektifier

inductive PathSegment where
  | name (n : String)
  | index (i : Nat)
deriving DecidableEq

structure Path where
  segments : List PathSegment
deriving DecidableEq

namespace Path

def isTopLevel (p : Path) : Bool :=
  match p.segments with
  | [.name _] => true
  | _ => false

def topName (p : Path) : Option String :=
  match p.segments with
  | .name n :: _ => some n
  | _ => none

def attr (n : String) : Path := ⟨[.name n]⟩

@[simp] theorem topName_attr (n : String) : (attr n).topName = some n := rfl

@[simp] theorem isTopLevel_attr (n : String) : (attr n).isTopLevel = true := rfl

theorem eq_attr_of_isTopLevel {p : Path} (h : p.isTopLevel) : ∃ n, p = attr n := by
  obtain ⟨segments⟩ := p
  unfold isTopLevel at h
  split at h
  next n hs => exact ⟨n, by simp only at hs; rw [hs, attr]⟩
  next => simp at h

end Path

inductive Operand where
  | path (p : Path)
  | value (v : AttributeValue)

inductive SetRhs where
  | operand (o : Operand)
  | plus (a b : Operand)
  | minus (a b : Operand)
  | ifNotExists (p : Path) (fallback : SetRhs)
  | listAppend (a b : SetRhs)

structure SetClause where
  path : Path
  value : SetRhs

structure AddAction where
  path : Path
  value : AttributeValue

structure DeleteAction where
  path : Path
  value : AttributeValue

structure UpdateExpression where
  set : List SetClause
  remove : List Path
  add : List AddAction
  delete : List DeleteAction

inductive ComparisonOp where
  | eq | ne | lt | le | gt | ge
deriving DecidableEq

inductive Condition where
  | compare (op : ComparisonOp) (left right : Operand)
  | attributeExists (p : Path)
  | attributeNotExists (p : Path)
  | beginsWith (p : Path) (o : Operand)
  | contains (p : Path) (o : Operand)
  | between (v lo hi : Operand)
  | isIn (v : Operand) (items : List Operand)
  | attributeType (p : Path) (o : Operand)
  | and (a b : Condition)
  | or (a b : Condition)
  | not (inner : Condition)

namespace SetRhs

def isLiteral : SetRhs → Bool
  | operand (.value _) => true
  | _ => false

end SetRhs

namespace UpdateExpression

/-- Top-level `SET attr = literal` and `REMOVE attr` only. -/
def isSimple (e : UpdateExpression) : Bool :=
  e.add.isEmpty && e.delete.isEmpty
    && e.set.all (fun c => c.path.isTopLevel && c.value.isLiteral)
    && e.remove.all Path.isTopLevel

end UpdateExpression

inductive RawPathSegment where
  | name (n : String)
  | nameRef (n : String)
  | index (i : UInt64)
deriving DecidableEq

structure RawPath where
  segments : List RawPathSegment
deriving DecidableEq

inductive RawOperand where
  | path (p : RawPath)
  | valueRef (v : String)
deriving DecidableEq

inductive RawSetRhs where
  | operand (o : RawOperand)
  | plus (a b : RawOperand)
  | minus (a b : RawOperand)
  | ifNotExists (p : RawPath) (fallback : RawSetRhs)
  | listAppend (a b : RawSetRhs)
deriving DecidableEq

structure RawSetClause where
  path : RawPath
  value : RawSetRhs
deriving DecidableEq

structure RawAddAction where
  path : RawPath
  value : RawOperand
deriving DecidableEq

structure RawDeleteAction where
  path : RawPath
  value : RawOperand
deriving DecidableEq

structure RawUpdateExpression where
  set : List RawSetClause := []
  remove : List RawPath := []
  add : List RawAddAction := []
  delete : List RawDeleteAction := []
deriving DecidableEq

inductive RawCondition where
  | compare (op : ComparisonOp) (left right : RawOperand)
  | attributeExists (p : RawPath)
  | attributeNotExists (p : RawPath)
  | beginsWith (p : RawPath) (o : RawOperand)
  | contains (p : RawPath) (o : RawOperand)
  | between (v lo hi : RawOperand)
  | isIn (v : RawOperand) (items : List RawOperand)
  | attributeType (p : RawPath) (o : RawOperand)
  | and (a b : RawCondition)
  | or (a b : RawCondition)
  | not (inner : RawCondition)
deriving DecidableEq

end Rektifier
