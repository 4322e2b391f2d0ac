import Rektifier.EvalUpdate
import Rektifier.Translate
import Rektifier.Pg

namespace Rektifier

open ThreeValued

inductive Param where
  | text (s : String)
  | jsonb (v : Json)
  | bytea (b : List UInt8)
deriving DecidableEq

inductive PgType where
  | text | jsonb | bytea
deriving DecidableEq

def noNul (s : String) : Bool := s.toList.all fun c => c.toNat ≠ 0

/-- No text and no `jsonb` has U+0000. -/
def Param.bindable : Param → Bool
  | .text s => noNul s
  | .jsonb v => v.allTexts noNul
  | .bytea _ => true

/-- A message has room for 65535 parameters. -/
def bindable (params : List Param) : Bool := params.length ≤ 65535 && params.all Param.bindable

/-- The Bind message, before anything runs. -/
def bindParams (params : List Param) : Except PgError Unit :=
  if bindable params then .ok () else .error .unbindable

structure TransactCancelReason where
  code : String
  message : Option String
  item : Option Json
deriving DecidableEq

inductive BackendError where
  | tableNotFound (name : String)
  | conditionalCheckFailed
  | missingSortKey (name : String)
  | unexpectedSortKey (name : String)
  | poolExhausted (waitedMs : Nat)
  | connectFailed (reason : String)
  | pgError (e : PgError)
  | transactionCancelled (reasons : List TransactCancelReason)
  /-- `Other` with the text of an evaluator error -/
  | evalFailed (e : EvalError)
  | other (message : String)
deriving DecidableEq

structure ParamBuilder where
  params : List Param
  types : List PgType

namespace ParamBuilder

def new : ParamBuilder := ⟨[], []⟩

def push (b : ParamBuilder) (p : Param) (t : PgType) : Nat × ParamBuilder :=
  (b.params.length + 1, ⟨b.params ++ [p], b.types ++ [t]⟩)

def bindText (b : ParamBuilder) (s : String) : Nat × ParamBuilder := b.push (.text s) .text

def bindJsonb (b : ParamBuilder) (v : Json) : Nat × ParamBuilder := b.push (.jsonb v) .jsonb

def bindKey (b : ParamBuilder) : KeyValue → Nat × ParamBuilder
  | .s v => b.push (.text v) .text
  | .n v => b.push (.text v) .text
  | .b v => b.push (.bytea v) .bytea

end ParamBuilder

/-- `data->$i::text` or `$i::jsonb`. -/
inductive SqlJsonb where
  | dataField (attr : Nat)
  | param (value : Nat)

/-- A WHERE fragment; numbers are placeholder indices. -/
inductive SqlCond where
  /-- `(data ? $attr::text)` -/
  | hasKey (attr : Nat)
  /-- `(l = r)`, or `(l <> r)` when `eq` is false -/
  | jsonbEq (eq : Bool) (l r : SqlJsonb)
  /-- `((data#>>ARRAY[$attr::text, 'N']::text[])::numeric op $value::numeric)` -/
  | numericOrd (op : ComparisonOp) (attr value : Nat)
  /-- `(data#>>ARRAY[$attr::text, 'S']::text[] op $value::text)` -/
  | textOrd (op : ComparisonOp) (attr value : Nat)
  | and (a b : SqlCond)
  | or (a b : SqlCond)
  | not (a : SqlCond)

def topAttr (p : Path) : Except BackendError String :=
  match p.topName with
  | some n => .ok n
  | none => .error (.other "classifier divergence: non-top-level path reached SQL compiler")

def operandAsJsonb (b : ParamBuilder) : Operand → Except BackendError (SqlJsonb × ParamBuilder)
  | .path p => do
    let attr ← topAttr p
    let (idx, b) := b.bindText attr
    return (.dataField idx, b)
  | .value v =>
    let (idx, b) := b.bindJsonb v.toValue
    return (.param idx, b)

def sqlOp : ComparisonOp → Bool → ComparisonOp
  | op, false => op
  | .lt, true => .gt
  | .le, true => .ge
  | .gt, true => .lt
  | .ge, true => .le
  | op, true => op

def compileExtraction (b : ParamBuilder) (op : ComparisonOp) (p : Path) (value : AttributeValue) :
    Except BackendError (SqlCond × ParamBuilder) := do
  let attr ← topAttr p
  let (attrIdx, b) := b.bindText attr
  match value with
  | .n v =>
    let (valIdx, b) := b.bindText v
    return (.numericOrd op attrIdx valIdx, b)
  | .s v =>
    let (valIdx, b) := b.bindText v
    return (.textOrd op attrIdx valIdx, b)
  | _ => throw (.other "classifier divergence: ordering RHS must be N or S")

def compileTypedOrdering (b : ParamBuilder) (op : ComparisonOp) :
    Operand → Operand → Except BackendError (SqlCond × ParamBuilder)
  | .path p, .value v => compileExtraction b (sqlOp op false) p v
  | .value v, .path p => compileExtraction b (sqlOp op true) p v
  | _, _ => throw (.other "classifier divergence: ordering must be Path/Value")

def compileEquality (b : ParamBuilder) (eq : Bool) (left right : Operand) :
    Except BackendError (SqlCond × ParamBuilder) := do
  let (l, b) ← operandAsJsonb b left
  let (r, b) ← operandAsJsonb b right
  return (.jsonbEq eq l r, b)

def compileCondition (b : ParamBuilder) : Condition → Except BackendError (SqlCond × ParamBuilder)
  | .attributeExists p => do
    let attr ← topAttr p
    let (idx, b) := b.bindText attr
    return (.hasKey idx, b)
  | .attributeNotExists p => do
    let attr ← topAttr p
    let (idx, b) := b.bindText attr
    return (.not (.hasKey idx), b)
  | .compare op left right => match op with
    | .eq => compileEquality b true left right
    | .ne => compileEquality b false left right
    | .lt | .le | .gt | .ge => compileTypedOrdering b op left right
  | .and a c => do
    let (l, b) ← compileCondition b a
    let (r, b) ← compileCondition b c
    return (.and l r, b)
  | .or a c => do
    let (l, b) ← compileCondition b a
    let (r, b) ← compileCondition b c
    return (.or l r, b)
  | .not inner => do
    let (s, b) ← compileCondition b inner
    return (.not s, b)
  | .beginsWith _ _ | .contains _ _ | .between _ _ _ | .isIn _ _ | .attributeType _ _ =>
    throw (.other "classifier divergence: Phase 4e shape reached SQL compiler")

/-- `$i` read as text. -/
def textParam (params : List Param) (i : Nat) : Option String :=
  match params[i - 1]? with
  | some (.text s) => some s
  | _ => none

def jsonbParam (params : List Param) (i : Nat) : Option Json :=
  match params[i - 1]? with
  | some (.jsonb v) => some v
  | _ => none

def SqlJsonb.eval (params : List Param) (data : Json) : SqlJsonb → Option Json
  | dataField attr => (textParam params attr).bind data.get
  | param value => jsonbParam params value

/-- `op` in a total order. -/
def ordHolds (op : ComparisonOp) (ord : Ordering) : Bool :=
  match op with
  | .eq => ord == .eq
  | .ne => ord != .eq
  | .lt => ord == .lt
  | .le => ord != .gt
  | .gt => ord == .gt
  | .ge => ord != .lt

def castNullable (s : Option String) : Except PgError (Option Numeric.Value) :=
  match s with
  | none => .ok none
  | some s => (castNumeric s).map some

/-- `NULL` is the third truth value; `AND` and `OR` stop at a left side that decides; texts are
ordered by the collation. -/
def SqlCond.eval (collate : String → String → Ordering) (params : List Param) (data : Json) :
    SqlCond → Except PgError Truth
  | hasKey attr => .ok ((textParam params attr).map fun n => (data.get n).isSome)
  | jsonbEq eq l r => .ok <|
    (l.eval params data).bind fun lv => (r.eval params data).map fun rv => (lv = rv) == eq
  | numericOrd op attr value => do
    let l ← castNullable ((textParam params attr).bind fun n => extractText data n "N")
    let r ← castNullable (textParam params value)
    return l.bind fun lv => r.map fun rv => ordHolds op (compare lv rv)
  | textOrd op attr value => .ok <|
    ((textParam params attr).bind fun n => extractText data n "S").bind fun lv =>
      (textParam params value).map fun rv => ordHolds op (collate lv rv)
  | and a b => do
    let l ← a.eval collate params data
    if l = some false then return l
    return ThreeValued.conj l (← b.eval collate params data)
  | or a b => do
    let l ← a.eval collate params data
    if l = some true then return l
    return ThreeValued.disj l (← b.eval collate params data)
  | not a => do
    let t ← a.eval collate params data
    return ThreeValued.neg t

def SqlCond.satisfied (collate : String → String → Ordering) (params : List Param) (data : Json)
    (c : SqlCond) : Except PgError Bool :=
  (c.eval collate params data).map fun t => t == some true

end Rektifier
