import Rektifier.BatchWrite
import Rektifier.UpdateSlowPath

namespace Rektifier

open List

inductive KeyListSql where
  /-- `pk = ANY($1)`, for a number key `ANY($1::numeric[])` -/
  | any (t : KeyType)
  /-- `(pk, sk) IN (($i, $j), …)`, each with the cast of its key type -/
  | pairs (tuples : List (Nat × Nat))

inductive KeyListParams where
  | texts (values : List String)
  | byteas (values : List (List UInt8))
  | each (params : List Param)

def keyListSql (shape : TableShape) (count : Nat) : KeyListSql :=
  match shape.sk with
  | none => .any shape.pkType
  | some _ => .pairs ((List.range count).map fun i => (i * 2 + 1, i * 2 + 2))

def KeyValue.s? : KeyValue → Option String
  | .s v => some v
  | _ => none

def KeyValue.n? : KeyValue → Option String
  | .n v => some v
  | _ => none

def KeyValue.b? : KeyValue → Option (List UInt8)
  | .b v => some v
  | _ => none

def tupleParams : KeyValue × Option KeyValue → Option (List Param)
  | (pk, some sk) => some [boundParam pk, boundParam sk]
  | (_, none) => none

/-- `none` where the code would panic: a key of another type, or no sort key. -/
def bindKeyList (shape : TableShape) (keys : List (KeyValue × Option KeyValue)) :
    Option KeyListParams :=
  match shape.sk, shape.pkType with
  | none, .s => ((keys.map Prod.fst).mapM KeyValue.s?).map .texts
  | none, .n => ((keys.map Prod.fst).mapM KeyValue.n?).map .texts
  | none, .b => ((keys.map Prod.fst).mapM KeyValue.b?).map .byteas
  | some _, _ => (keys.mapM tupleParams).map fun params => .each params.flatten

/-- An array is one parameter. -/
def KeyListParams.bindable : KeyListParams → Bool
  | .texts values => values.all noNul
  | .byteas _ => true
  | .each params => Rektifier.bindable params

def KeyListParams.bind (params : KeyListParams) : Except PgError Unit :=
  if params.bindable then .ok () else .error .unbindable

/-- All keys are cast before a row is looked at. -/
def KeyListSql.eval (bk : BaseKey) : KeyListSql → KeyListParams → Except PgError (List PgKey)
  | .any .s, .texts values => values.mapM fun v => .ok (.text v, none)
  | .any .n, .texts values => values.mapM fun v => do return (.numeric (← castNumeric v), none)
  | .any .b, .byteas values => values.mapM fun v => .ok (.bytea v, none)
  | .pairs tuples, .each params =>
    tuples.mapM fun e => (KeyPredicate.mk e.1 (some e.2)).eval bk params
  | _, _ => .error (.undefinedParameter 1)

/-- The order a statement comes upon the rows in. -/
structure RowOrder {bk : BaseKey} (t : PgTable bk) where
  keys : List PgKey
  nodup : keys.Nodup
  stored : ∀ k, k ∈ keys ↔ (t.rows k).isSome = true

def selectKeys {bk : BaseKey} {t : PgTable bk} (order : RowOrder t) (wanted : List PgKey) :
    List Json :=
  (order.keys.filter (· ∈ wanted)).filterMap fun k => (t.rows k).map PgRow.data

/-- What can go wrong outside the statement. -/
structure ReadFaults where
  client : Option PoolError
  query : Option PgError

section

variable (shape : TableShape) {t : PgTable shape.baseKey}

def batchGetRaw (order : RowOrder t) (faults : ReadFaults)
    (keys : List (KeyValue × Option KeyValue)) : Option (Except BackendError (List Json)) :=
  if keys.isEmpty then some (.ok [])
  else match keys.forM fun k => checkSkShape shape k.2 with
    | .error e => some (.error e)
    | .ok () => match faults.client with
      | some e => some (.error (classifyPoolError e))
      | none => (bindKeyList shape keys).map fun params => match faults.query with
        | some e => .error (mapPgErr shape.table e)
        | none => (do
            params.bind
            return selectKeys order (← (keyListSql shape keys.length).eval shape.baseKey params)
          ).mapError (mapPgErr shape.table)

/-- The VALUES rows of the upsert. -/
def putRowsSql (count : Nat) : List JsonbExpr := (List.range count).map fun i => .param (i + 1)

def putRowsRaw (t : PgTable shape.baseKey) (puts : List Json) :
    Except PgError (PgTable shape.baseKey) := do
  bindParams (puts.map .jsonb)
  let items ← (putRowsSql puts.length).mapM fun e => e.eval (puts.map .jsonb) .null
  putRows shape t items

def deleteKeysRaw (t : PgTable shape.baseKey) (deletes : List (KeyValue × Option KeyValue)) :
    Option (Except PgError (PgTable shape.baseKey)) :=
  (bindKeyList shape deletes).map fun params => do
    params.bind
    let keys ← (keyListSql shape deletes.length).eval shape.baseKey params
    return keys.foldl PgTable.deleteRow t

end

/-! ### The statements name the keys they were given -/

variable {shape : TableShape} {keys : List (KeyValue × Option KeyValue)}

def addressedKeys (keys : List (KeyValue × Option KeyValue)) : Except PgError (List PgKey) :=
  keys.mapM fun k => addressedKey k.1 k.2

def KeysFit (shape : TableShape) (keys : List (KeyValue × Option KeyValue)) : Prop :=
  ∀ k ∈ keys, KeyFits shape.baseKey k.1 k.2

theorem KeysFit.cons {k : KeyValue × Option KeyValue} (h : KeysFit shape (k :: keys)) :
    KeyFits shape.baseKey k.1 k.2 ∧ KeysFit shape keys := forall_mem_cons.mp h

theorem addressedKeys_cons (k : KeyValue × Option KeyValue)
    (keys : List (KeyValue × Option KeyValue)) : addressedKeys (k :: keys) = (do
      return (← addressedKey k.1 k.2) :: (← addressedKeys keys)) := mapM_cons

theorem any_eval {α : Type} {t : KeyType} {value? : KeyValue → Option α}
    {read : α → Except PgError PgKey} {binds : α → Bool}
    (hread : ∀ kv : KeyValue, kv.keyType = t → ∃ v, value? kv = some v ∧
      binds v = (boundParam kv).bindable ∧ read v = addressedKey kv none)
    (hkeys : ∀ k ∈ keys, k.1.keyType = t ∧ k.2 = none) :
    ∃ values, (keys.map Prod.fst).mapM value? = some values ∧
      values.all binds = (keys.all fun k => (keyParams k.1 k.2).all Param.bindable) ∧
      values.mapM read = addressedKeys keys := by
  induction keys with
  | nil => exact ⟨[], rfl, rfl, rfl⟩
  | cons k keys ih =>
    obtain ⟨pk, sk⟩ := k
    obtain ⟨hk, hrest⟩ := forall_mem_cons.mp hkeys
    obtain ⟨v, hv, hbinds, heval⟩ := hread pk hk.1
    obtain ⟨values, hvalues, hall, hevals⟩ := ih hrest
    obtain rfl : sk = none := hk.2
    refine ⟨v :: values, ?_, ?_, ?_⟩
    · rw [map_cons, mapM_cons, hv, hvalues]
      rfl
    · rw [all_cons, all_cons, hall, hbinds]
      simp [keyParams]
    · rw [mapM_cons, hevals, heval, addressedKeys_cons]

theorem hash_s_read (kv : KeyValue) (h : kv.keyType = .s) : ∃ v, kv.s? = some v ∧
    noNul v = (boundParam kv).bindable ∧
    (.ok (.text v, none) : Except PgError PgKey) = addressedKey kv none := by
  cases kv with
  | s v => exact ⟨v, rfl, rfl, rfl⟩
  | n v | b v => cases h

theorem hash_n_read (kv : KeyValue) (h : kv.keyType = .n) : ∃ v, kv.n? = some v ∧
    noNul v = (boundParam kv).bindable ∧
    (do return (.numeric (← castNumeric v), none) : Except PgError PgKey)
      = addressedKey kv none := by
  cases kv with
  | n v =>
    refine ⟨v, rfl, rfl, ?_⟩
    simp only [addressedKey, KeyValue.pg]
    cases castNumeric v <;> rfl
  | s v | b v => cases h

theorem hash_b_read (kv : KeyValue) (h : kv.keyType = .b) : ∃ v, kv.b? = some v ∧
    true = (boundParam kv).bindable ∧
    (.ok (.bytea v, none) : Except PgError PgKey) = addressedKey kv none := by
  cases kv with
  | b v => exact ⟨v, rfl, rfl, rfl⟩
  | s v | n v => cases h

def tuplesParams (keys : List (KeyValue × Option KeyValue)) : List Param :=
  keys.flatMap fun k => keyParams k.1 k.2

theorem sk_isSome_of_fits (hsk : shape.sk.isSome) {pk : KeyValue} {sk : Option KeyValue}
    (h : KeyFits shape.baseKey pk sk) : ∃ v, sk = some v := by
  have hmap : sk.map KeyValue.keyType = shape.sk.map Prod.snd := h.2
  have hsome := congrArg Option.isSome hmap
  rw [Option.isSome_map, Option.isSome_map, hsk] at hsome
  exact Option.isSome_iff_exists.mp hsome

theorem mapM_tupleParams (hsk : shape.sk.isSome) (hkeys : KeysFit shape keys) :
    keys.mapM tupleParams = some (keys.map fun k => keyParams k.1 k.2) := by
  induction keys with
  | nil => rfl
  | cons k keys ih =>
    obtain ⟨pk, sk⟩ := k
    obtain ⟨hk, hrest⟩ := hkeys.cons
    obtain ⟨v, rfl⟩ := sk_isSome_of_fits hsk hk
    rw [mapM_cons, ih hrest]
    rfl

theorem length_tuplesParams (hsk : shape.sk.isSome) (hkeys : KeysFit shape keys) :
    (tuplesParams keys).length = keys.length * 2 := by
  induction keys with
  | nil => rfl
  | cons k keys ih =>
    obtain ⟨pk, sk⟩ := k
    obtain ⟨hk, hrest⟩ := hkeys.cons
    obtain ⟨v, rfl⟩ := sk_isSome_of_fits hsk hk
    have hcons : tuplesParams ((pk, some v) :: keys)
        = boundParam pk :: boundParam v :: tuplesParams keys := rfl
    rw [hcons, length_cons, length_cons, ih hrest, length_cons]
    omega

/-- Each tuple comes upon the parameters bound for its key. -/
theorem tuples_eval (hsk : shape.sk.isSome) {pre : List (KeyValue × Option KeyValue)}
    (hpre : KeysFit shape pre) (hkeys : KeysFit shape keys) :
    ((List.range' pre.length keys.length).map fun i => (i * 2 + 1, i * 2 + 2)).mapM
      (fun e => (KeyPredicate.mk e.1 (some e.2)).eval shape.baseKey (tuplesParams (pre ++ keys)))
      = addressedKeys keys := by
  induction keys generalizing pre with
  | nil => rfl
  | cons k keys ih =>
    obtain ⟨pk, sk⟩ := k
    obtain ⟨hk, hrest⟩ := hkeys.cons
    obtain ⟨v, rfl⟩ := sk_isSome_of_fits hsk hk
    have hsplit : tuplesParams (pre ++ (pk, some v) :: keys)
        = tuplesParams pre ++ keyParams pk (some v) ++ tuplesParams keys := by
      rw [tuplesParams, flatMap_append, flatMap_cons, ← append_assoc]
      rfl
    have hfirst : (KeyPredicate.mk (pre.length * 2 + 1) (some (pre.length * 2 + 2))).eval
        shape.baseKey (tuplesParams (pre ++ (pk, some v) :: keys)) = addressedKey pk (some v) := by
      have heval := keyPredicate_eval hk (tuplesParams pre) (tuplesParams keys)
      rw [length_tuplesParams hsk hpre] at heval
      rw [hsplit]
      exact heval
    have hpre' : KeysFit shape (pre ++ [(pk, some v)]) := by
      refine forall_mem_append.mpr ⟨hpre, ?_⟩
      simpa using hk
    have hnext := ih hpre' hrest
    rw [length_append, length_singleton, append_assoc, singleton_append]
      at hnext
    rw [length_cons, List.range'_succ, map_cons, mapM_cons, hfirst, hnext,
      addressedKeys_cons]

/-- The statement names the row keys it was made for, in each form. -/
theorem keyList_eval (hkeys : KeysFit shape keys) :
    ∃ params, bindKeyList shape keys = some params ∧
      params.bindable = keysBindable shape keys ∧
      (keyListSql shape keys.length).eval shape.baseKey params = addressedKeys keys := by
  rcases hs : shape.sk with _ | sk
  · have hvalue : ∀ k ∈ keys, k.1.keyType = shape.pkType ∧ k.2 = none := by
      intro k hk
      obtain ⟨hpk, hsk⟩ := hkeys k hk
      have hsk : k.2.map KeyValue.keyType = shape.sk.map Prod.snd := hsk
      rw [hs] at hsk
      exact ⟨hpk, Option.map_eq_none_iff.mp hsk⟩
    have hbinds : keysBindable shape keys
        = keys.all fun k => (keyParams k.1 k.2).all Param.bindable := by
      simp [keysBindable, hs]
    rw [hbinds]
    unfold bindKeyList keyListSql
    rw [hs]
    cases ht : shape.pkType with
    | s =>
      rw [ht] at hvalue
      obtain ⟨values, hvalues, hall, heval⟩ := any_eval hash_s_read hvalue
      exact ⟨.texts values, by rw [hvalues]; rfl, hall, heval⟩
    | n =>
      rw [ht] at hvalue
      obtain ⟨values, hvalues, hall, heval⟩ := any_eval hash_n_read hvalue
      exact ⟨.texts values, by rw [hvalues]; rfl, hall, heval⟩
    | b =>
      rw [ht] at hvalue
      obtain ⟨values, hvalues, hall, heval⟩ := any_eval hash_b_read hvalue
      exact ⟨.byteas values, by rw [hvalues]; rfl, by rw [← hall]; simp [KeyListParams.bindable],
        heval⟩
  · have hsome : shape.sk.isSome = true := by rw [hs]; rfl
    refine ⟨.each (tuplesParams keys), ?_, ?_, ?_⟩
    · unfold bindKeyList
      rw [hs]
      simp only [mapM_tupleParams hsome hkeys]
      rfl
    · rw [KeyListParams.bindable, bindable, length_tuplesParams hsome hkeys, tuplesParams,
        all_flatMap, keysBindable, hs, Option.isNone_some, Bool.or_false]
    · have hnil : KeysFit shape [] := fun k hk => absurd hk not_mem_nil
      have heval := tuples_eval hsome hnil hkeys
      unfold keyListSql
      rw [hs, range_eq_range']
      exact heval

theorem KeyListParams.bind_eq {params : KeyListParams}
    (h : params.bindable = keysBindable shape keys) : params.bind = bindKeyValues shape keys := by
  rw [KeyListParams.bind, bindKeyValues, h]

/-- Each VALUES row comes upon the item bound for it. -/
theorem putRows_eval (pre puts : List Json) :
    ((List.range' pre.length puts.length).map fun i => JsonbExpr.param (i + 1)).mapM
      (fun e => e.eval ((pre ++ puts).map .jsonb) .null) = .ok puts := by
  induction puts generalizing pre with
  | nil => rfl
  | cons item puts ih =>
    have hfirst : (JsonbExpr.param (pre.length + 1)).eval ((pre ++ item :: puts).map .jsonb) .null
        = .ok item := by
      have harg := jsonbArg_append (pre.map .jsonb) (puts.map .jsonb) item
      rw [length_map] at harg
      rw [map_append, map_cons]
      exact harg
    have hnext := ih (pre ++ [item])
    rw [length_append, length_singleton, append_assoc, singleton_append]
      at hnext
    rw [length_cons, List.range'_succ, map_cons, mapM_cons, hfirst, hnext]
    rfl

theorem putRowsSql_eval (puts : List Json) :
    (putRowsSql puts.length).mapM (fun e => e.eval (puts.map .jsonb) .null) = .ok puts := by
  rw [putRowsSql, range_eq_range']
  exact putRows_eval [] puts

theorem putRowsRaw_eq (t : PgTable shape.baseKey) (puts : List Json) :
    putRowsRaw shape t puts = executePuts shape t puts := by
  rw [putRowsRaw, putRowsSql_eval]
  rfl

theorem executeDeletes_eq (t : PgTable shape.baseKey) (hkeys : KeysFit shape keys) :
    executeDeletes shape t keys = (do
      bindKeyValues shape keys
      return (← addressedKeys keys).foldl PgTable.deleteRow t) := by
  have hsame : ∀ l, KeysFit shape l →
      (l.mapM fun d => (shape.keyPredicate 1).eval shape.baseKey (keyParams d.1 d.2))
        = addressedKeys l := by
    intro l hl
    induction l with
    | nil => rfl
    | cons k l ih =>
      obtain ⟨hk, hrest⟩ := hl.cons
      rw [mapM_cons, ih hrest, keyPredicate_addressed hk, addressedKeys_cons]
  rw [executeDeletes, hsame keys hkeys]

theorem deleteKeysRaw_eq (t : PgTable shape.baseKey) (hkeys : KeysFit shape keys) :
    deleteKeysRaw shape t keys = some (executeDeletes shape t keys) := by
  obtain ⟨params, hbind, hbinds, heval⟩ := keyList_eval hkeys
  rw [deleteKeysRaw, hbind, Option.map_some, heval, executeDeletes_eq t hkeys,
    KeyListParams.bind_eq hbinds]

end Rektifier
