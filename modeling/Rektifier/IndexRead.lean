import Rektifier.QueryPlan
import Rektifier.KeysetPages
import Rektifier.UpdateSql
import Mathlib.Data.Prod.Lex
import Mathlib.Order.WithBot

namespace Rektifier

def defaultLimit : Nat := 1000

def skColumn (shape : TableShape) (data : Json) : Except PgError (Option PgValue) :=
  match shape.sk with
  | some (col, t) => extractCol col t data
  | none => .ok none

/-- The key columns hold what the attributes of their names do. -/
structure ShapeRow (shape : TableShape) where
  data : Json
  pkCol : Option PgValue
  skCol : Option PgValue
  pk_eq : extractCol shape.pkCol shape.pkType data = .ok pkCol
  sk_eq : skColumn shape data = .ok skCol

structure QueryOutcome where
  items : List Json
  count : Nat
  scannedCount : Nat
  lastEvaluatedKey : Option (KeyValue × Option KeyValue)
deriving DecidableEq

abbrev ScanOutcome := QueryOutcome

def extractKeyFromJsonb (row : Json) (attr : String) (t : KeyType) : Option KeyValue :=
  (extractText row attr t.tag).bind fun s =>
    match t with
    | .s => some (.s s)
    | .n => some (.n s)
    | .b => (Base64.decode s).map .b

def lekFromRow (row : Json) (shape : TableShape) : Option (KeyValue × Option KeyValue) :=
  (extractKeyFromJsonb row shape.pkCol shape.pkType).bind fun pk =>
    match shape.sk with
    | some (col, t) => (extractKeyFromJsonb row col t).map fun sk => (pk, some sk)
    | none => some (pk, none)

def pageOutcome (shape : TableShape) (filter : Option (Json → Bool)) (limit : Nat)
    (scanned : List Json) : QueryOutcome :=
  let items := match filter with
    | none => scanned
    | some f => scanned.filter f
  { items
    count := items.length
    scannedCount := scanned.length
    lastEvaluatedKey :=
      if scanned.length = limit then scanned.getLast?.bind (lekFromRow · shape) else none }

def escapeLike (s : List Char) : List Char :=
  s.flatMap fun c => if c = '\\' ∨ c = '%' ∨ c = '_' then ['\\', c] else [c]

/-- `text LIKE pattern ESCAPE '\'`. -/
def like : List Char → List Char → Bool
  | [], text => text.isEmpty
  | '%' :: pattern, text => text.tails.any (like pattern)
  | '_' :: pattern, text => match text with
    | [] => false
    | _ :: rest => like pattern rest
  | ['\\'], _ => false
  | '\\' :: c :: pattern, text => match text with
    | [] => false
    | d :: rest => c = d && like pattern rest
  | c :: pattern, text => match text with
    | [] => false
    | d :: rest => c = d && like pattern rest

def PgValue.like (pattern : List Char) : PgValue → Bool
  | .text s => Rektifier.like pattern s.toList
  | _ => false

section

-- texts are ordered by the database's collation, whatever it is
variable [LinearOrder PgValue]

/-- `NULL` comes last in ascending order and first in descending. -/
def SortRank (_forward : Bool) : Type := WithTop PgValue

instance (forward : Bool) : LinearOrder (SortRank forward) :=
  match forward with
  | true => inferInstanceAs (LinearOrder (WithTop PgValue))
  | false => inferInstanceAs (LinearOrder (WithTop PgValue)ᵒᵈ)

def SortRank.of (forward : Bool) (v : Option PgValue) : SortRank forward := v

variable {shape : TableShape}

def queryRank (shape : TableShape) (forward : Bool) (row : ShapeRow shape) : SortRank forward :=
  SortRank.of forward row.skCol

def scanRank (shape : TableShape) (row : ShapeRow shape) : WithTop PgValue ×ₗ WithTop PgValue :=
  toLex (row.pkCol, row.skCol)

/-- The parameters are cast to the column's type. -/
def SkCondition.test : SkCondition → Except PgError (PgValue → Bool)
  | .eq v => v.pg.map fun b x => x = b
  | .lt v => v.pg.map fun b x => x < b
  | .le v => v.pg.map fun b x => x ≤ b
  | .gt v => v.pg.map fun b x => b < x
  | .ge v => v.pg.map fun b x => b ≤ x
  | .between lo hi => do
    let a ← lo.pg
    let b ← hi.pg
    return fun x => a ≤ x && x ≤ b
  | .beginsWithS start => .ok (PgValue.like (escapeLike start.toList ++ ['%']))

/-- A comparison with `NULL` selects no row. -/
def skTest : Option SkCondition → Except PgError (Option PgValue → Bool)
  | none => .ok fun _ => true
  | some c => c.test.map fun test v => v.any test

/-- Only the start key's sort value is compared. -/
def queryEskTest (forward : Bool) :
    Option (KeyValue × Option KeyValue) → Except PgError (Option PgValue → Bool)
  | some (_, some sk) => sk.pg.map fun b v => v.any fun x => if forward then b < x else x < b
  | _ => .ok fun _ => true

def queryWhere (pk : KeyValue) (skCondition : Option SkCondition)
    (esk : Option (KeyValue × Option KeyValue)) (forward : Bool) :
    Except PgError (ShapeRow shape → Bool) := do
  let partition ← pk.pg
  let sort ← skTest skCondition
  let start ← queryEskTest forward esk
  return fun row => row.pkCol = some partition && sort row.skCol && start row.skCol

def queryRaw {forward : Bool} (order : RowSort (queryRank shape forward))
    (rows : List (ShapeRow shape)) (pk : KeyValue) (skCondition : Option SkCondition)
    (limit : Option Nat) (esk : Option (KeyValue × Option KeyValue))
    (filter : Option (Json → Bool)) : Except BackendError QueryOutcome :=
  if skCondition.isSome && shape.sk.isNone then .error (.unexpectedSortKey shape.table)
  else if shape.sk.isNone && esk.isSome then .ok ⟨[], 0, 0, none⟩
  else (pgResult (queryWhere pk skCondition esk forward)).map fun selects =>
    let scanned := (order.sort (rows.filter selects)).take (limit.getD defaultLimit)
    pageOutcome shape filter (limit.getD defaultLimit) (scanned.map ShapeRow.data)

/-- A row constructor is compared from the left: a `NULL` counts once it is come to. -/
def scanWhere (esk : Option (KeyValue × Option KeyValue)) :
    Except PgError (ShapeRow shape → Bool) :=
  match esk, shape.sk with
  | some (pk, some sk), some _ => do
    let a ← pk.pg
    let b ← sk.pg
    return fun row => row.pkCol.any fun x => a < x || (x = a && row.skCol.any (b < ·))
  | some (pk, none), none => pk.pg.map fun a row => row.pkCol.any (a < ·)
  | _, _ => .ok fun _ => true

def scanRaw (order : RowSort (scanRank shape)) (rows : List (ShapeRow shape))
    (filter : Option (Json → Bool)) (limit : Option Nat)
    (esk : Option (KeyValue × Option KeyValue)) : Except BackendError ScanOutcome :=
  (pgResult (scanWhere esk)).map fun selects =>
    let scanned := (order.sort (rows.filter selects)).take (limit.getD defaultLimit)
    pageOutcome shape filter (limit.getD defaultLimit) (scanned.map ShapeRow.data)

end

/-- The place under the `C` collation, one type after the other. -/
def PgValue.place : PgValue → Nat ×ₗ String ×ₗ Numeric.Value ×ₗ List Nat
  | .text s => toLex (0, toLex (s, toLex (Numeric.ofRat 0, [])))
  | .numeric q => toLex (1, toLex ("", toLex (q, [])))
  | .bytea b => toLex (2, toLex ("", toLex (Numeric.ofRat 0, b.map UInt8.toNat)))

theorem PgValue.place_injective : Function.Injective PgValue.place := by
  intro a b h
  cases a <;> cases b <;> simp [PgValue.place] at h
  · rw [h]
  · rw [h]
  · rw [List.map_injective_iff.mpr (fun _ _ => UInt8.toNat_inj.mp) h]

@[reducible] def PgValue.cOrder : LinearOrder PgValue :=
  LinearOrder.lift' PgValue.place PgValue.place_injective

end Rektifier
