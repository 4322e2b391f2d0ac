import Rektifier.Schema
import Rektifier.Numeric
import Rektifier.ThreeValued
import Rektifier.Fallible

namespace Rektifier

open List Function

variable {k : PgKey} {row : PgRow} {old : Option PgKey}

/-- SQL `NULL` is `none` of `Option PgValue`. -/
inductive PgValue where
  | text (s : String)
  | numeric (q : Numeric.Value)
  | bytea (b : List UInt8)
deriving DecidableEq

inductive PgError where
  | invalidTextRepresentation (s : String)
  | cannotSetPath
  | undefinedParameter (i : Nat)
  | notNullViolation (col : String)
  | uniqueViolation
  | multipleAssignments
  | generatedAlways (col : String)
  | undefinedColumn (col : String)
  | datatypeMismatch (col : String)
  | indexRowSize
  | unbindable
  /-- whatever else PostgreSQL, or the connection to it, reports -/
  | reported (sqlstate : String)
deriving DecidableEq

def isNumeral (s : String) : Bool := (Numeric.parse s).isSome

/-- `::numeric`; overflow is reported like a malformed number. -/
def castNumeric (s : String) : Except PgError Numeric.Value :=
  match Numeric.parse s with
  | some d => .ok d.value
  | none => .error (.invalidTextRepresentation s)

theorem castNumeric_ok_iff (s : String) : (∃ q, castNumeric s = .ok q) ↔ isNumeral s := by
  unfold castNumeric isNumeral
  cases Numeric.parse s <;> simp

def KeyValue.pg : KeyValue → Except PgError PgValue
  | .s v => .ok (.text v)
  | .n v => (castNumeric v).map .numeric
  | .b v => .ok (.bytea v)

/-- `data #>> ARRAY[attr, tag]` where the payload is a string. -/
def extractText (data : Json) (attr tag : String) : Option String :=
  (data.get attr).bind fun v => (v.get tag).bind Json.asStr

def castKey (t : KeyType) (s : String) : Except PgError PgValue :=
  match t with
  | .s => .ok (.text s)
  | .n => (castNumeric s).map .numeric
  | .b => match Base64.decode s with
    | some bytes => .ok (.bytea bytes)
    | none => .error (.invalidTextRepresentation s)

/-- The same in generated columns, in dual writes and in the backfill: `data #>> '{attr,S}'`, cast
for `N`, decoded for `B`. -/
def extractCol (attr : String) (t : KeyType) (data : Json) : Except PgError (Option PgValue) :=
  match extractText data attr t.tag with
  | none => .ok none
  | some s => (castKey t s).map some

/-- The key columns, each named like its attribute, and what else rows are held to. -/
structure BaseKey where
  pkCol : String
  pkType : KeyType
  sk : Option (String × KeyType)
  rules : RowRules

def TableShape.baseKey (shape : TableShape) : BaseKey :=
  ⟨shape.pkCol, shape.pkType, shape.sk, shape.rules⟩

abbrev PgKey := PgValue × Option PgValue

instance : LawfulBEq PgKey := inferInstance

def numberKey (n : Int) : PgKey := (.numeric (Numeric.ofRat n), none)

def generatedNotNull (col : String) (t : KeyType) (data : Json) : Except PgError PgValue := do
  match ← extractCol col t data with
  | some v => return v
  | none => throw (.notNullViolation col)

def generatedKey (bk : BaseKey) (data : Json) : Except PgError PgKey := do
  let pk ← generatedNotNull bk.pkCol bk.pkType data
  match bk.sk with
  | none => return (pk, none)
  | some (col, t) =>
    let sk ← generatedNotNull col t data
    return (pk, some sk)

def fillCols (cols : List DualWriteCol) (data : Json) (start : String → Option PgValue) :
    Except PgError (String → Option PgValue) :=
  cols.foldlM (fun m c => do
    let v ← extractCol c.attr c.keyType data
    return update m c.col v) start

theorem fillCols_ok_iff (cols : List DualWriteCol) (data : Json)
    (start : String → Option PgValue) : (∃ m, fillCols cols data start = .ok m) ↔
      ∀ c ∈ cols, ∃ v, extractCol c.attr c.keyType data = .ok v := by
  induction cols generalizing start with
  | nil => simp [fillCols, pure, Except.pure]
  | cons c cols ih =>
    have hstep : fillCols (c :: cols) data start = (do
        let v ← extractCol c.attr c.keyType data
        fillCols cols data (update start c.col v)) := by
      simp only [fillCols, foldlM_cons, bind_assoc, pure_bind]
    constructor
    · rintro ⟨m, hm⟩
      rw [hstep] at hm
      obtain ⟨v, hv, hm⟩ := Fallible.bind_ok hm
      intro c' hc'
      rcases mem_cons.mp hc' with rfl | hc'
      · exact ⟨v, hv⟩
      · exact (ih _).mp ⟨m, hm⟩ c' hc'
    · intro h
      obtain ⟨v, hv⟩ := h c mem_cons_self
      obtain ⟨m, hm⟩ := (ih (update start c.col v)).mpr
        fun c' hc' => h c' (mem_cons_of_mem _ hc')
      refine ⟨m, ?_⟩
      rw [hstep]
      exact Fallible.bind_ok_iff.mpr ⟨v, hv, hm⟩

/-- Every generated column; the base key is among them. -/
def generatedCols (bk : BaseKey) (data : Json) : Except PgError PgKey := do
  let _ ← fillCols bk.rules.generated data fun _ => none
  generatedKey bk data

theorem generatedCols_ok_iff {bk : BaseKey} {data : Json} :
    generatedCols bk data = .ok k ↔
      (∀ c ∈ bk.rules.generated, ∃ v, extractCol c.attr c.keyType data = .ok v) ∧
      generatedKey bk data = .ok k := by
  rw [generatedCols, Fallible.bind_ok_iff, ← fillCols_ok_iff _ _ fun _ => none]
  exact exists_and_right

structure PgRow where
  data : Json
  cols : String → Option PgValue

/-- Rows by primary key, the one their data generates. -/
structure PgTable (bk : BaseKey) where
  rows : PgKey → Option PgRow
  keyed : ∀ k row, rows k = some row → generatedKey bk row.data = .ok k

namespace PgTable

variable {bk : BaseKey}

def empty : PgTable bk := ⟨fun _ => none, fun _ _ h => by cases h⟩

def ofRows (rows : List (PgKey × PgRow))
    (h : ∀ e ∈ rows, generatedKey bk e.2.data = .ok e.1) : PgTable bk where
  rows k := (rows.find? fun e => e.1 = k).map Prod.snd
  keyed := by
    intro k row hrow
    obtain ⟨e, he, rfl⟩ := Option.map_eq_some_iff.mp hrow
    have hk : e.1 = k := by simpa using List.find?_some he
    rw [← hk]
    exact h e (mem_of_find?_eq_some he)

theorem mem_of_ofRows {rows : List (PgKey × PgRow)}
    {h : ∀ e ∈ rows, generatedKey bk e.2.data = .ok e.1}
    (hrow : (ofRows rows h).rows k = some row) : (k, row) ∈ rows := by
  obtain ⟨e, he, rfl⟩ := Option.map_eq_some_iff.mp hrow
  have hk : e.1 = k := by simpa using List.find?_some he
  rw [← hk]
  exact mem_of_find?_eq_some he

/-- Rows without the version a statement replaces. -/
def without (t : PgTable bk) (old : Option PgKey) : PgKey → Option PgRow :=
  match old with
  | none => t.rows
  | some k => update t.rows k none

theorem generatedKey_of_without {t : PgTable bk}
    (h : t.without old k = some row) : generatedKey bk row.data = .ok k := by
  cases old with
  | none => exact t.keyed k row h
  | some k' =>
    by_cases hk : k = k'
    · subst hk
      simp [without] at h
    · exact t.keyed k row (by simpa [without, hk] using h)

/-- In place of the version under `old`: the columns are generated, the key must be free, and the
index rows must fit. -/
def write (t : PgTable bk) (old : Option PgKey) (row : PgRow) : Except PgError (PgTable bk) :=
  match h : generatedCols bk row.data with
  | .error e => .error e
  | .ok k =>
    if (t.without old k).isSome then .error .uniqueViolation
    else if bk.rules.indexRowsFit row.data then
      .ok ⟨update (t.without old) k (some row), by
        intro k' row' h'
        by_cases hk : k' = k
        · subst hk
          have : row = row' := by simpa using h'
          rw [← this, (generatedCols_ok_iff.mp h).2]
        · exact generatedKey_of_without (by simpa [hk] using h')⟩
    else .error .indexRowSize

theorem write_ok {t : PgTable bk}
    (hk : generatedCols bk row.data = .ok k) (hfree : t.without old k = none)
    (hfit : bk.rules.indexRowsFit row.data) :
    ∃ t', t.write old row = .ok t' ∧ t'.rows = update (t.without old) k (some row) := by
  unfold write
  split
  next e he => rw [hk] at he; cases he
  next k' hk' =>
    have : k' = k := by
      rw [hk] at hk'
      exact (Except.ok.inj hk').symm
    subst this
    rw [if_neg (by simp [hfree]), if_pos hfit]
    exact ⟨_, rfl, rfl⟩

/-- What was checked, and what it left. -/
theorem write_eq {t t' : PgTable bk}
    (h : t.write old row = .ok t') : ∃ k, generatedCols bk row.data = .ok k ∧
      bk.rules.indexRowsFit row.data ∧ t.without old k = none ∧
      t'.rows = update (t.without old) k (some row) := by
  unfold write at h
  split at h
  next => cases h
  next k hk =>
    split at h
    next => cases h
    next hfree =>
      split at h
      next hfit =>
        cases h
        exact ⟨k, hk, hfit, by simpa using hfree, rfl⟩
      next => cases h

@[simp] theorem without_none (t : PgTable bk) : t.without none = t.rows := rfl

@[simp] theorem without_self (t : PgTable bk) (k : PgKey) : t.without (some k) k = none := by
  simp [without]

end PgTable

theorem generatedKey_congr {bk : BaseKey} {data data' : Json}
    (hpk : data.get bk.pkCol = data'.get bk.pkCol)
    (hsk : ∀ col t, bk.sk = some (col, t) → data.get col = data'.get col) :
    generatedKey bk data = generatedKey bk data' := by
  have hcol : ∀ col t, data.get col = data'.get col →
      generatedNotNull col t data = generatedNotNull col t data' := by
    intro col t h
    simp only [generatedNotNull, extractCol, extractText, h]
  unfold generatedKey
  rw [hcol _ _ hpk]
  rcases hs : bk.sk with _ | ⟨col, t⟩
  · rfl
  · simp only [hcol col t (hsk col t hs)]

end Rektifier
