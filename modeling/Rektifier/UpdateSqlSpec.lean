import Rektifier.ConditionSqlCorrect
import Rektifier.UpdateItemSpec

namespace Rektifier

open Fallible List

variable {members : List (String × Json)} {cols : List DualWriteCol} {data : Json}
  {start : String → Option PgValue}

theorem textArg_append (xs ys : List Param) (s : String) :
    textArg (xs ++ .text s :: ys) (xs.length + 1) = .ok s := by
  simp [textArg, textParam_append]

theorem jsonbArg_append (xs ys : List Param) (v : Json) :
    jsonbArg (xs ++ .jsonb v :: ys) (xs.length + 1) = .ok v := by
  simp [jsonbArg, jsonbParam_append]

/-- Members are written in order, whatever parameters surround their own. -/
theorem setChain_eval (pre post : List Param) (row : Json) (sets : List (String × Json))
    {e : JsonbExpr} (he : e.eval (pre ++ setParams sets ++ post) row = .ok (.obj members)) :
    (setChain (pre.length + 1) sets.length e).eval (pre ++ setParams sets ++ post) row
      = .ok (.obj (Entries.insertAll members sets)) := by
  induction sets generalizing pre members e with
  | nil => exact he
  | cons entry sets ih =>
    obtain ⟨name, value⟩ := entry
    have hsplit : pre ++ setParams ((name, value) :: sets) ++ post
        = (pre ++ [.text name, .jsonb value]) ++ setParams sets ++ post := by
      simp [setParams]
    have hname := textArg_append pre ([.jsonb value] ++ setParams sets ++ post) name
    have hvalue := jsonbArg_append (pre ++ [.text name]) (setParams sets ++ post) value
    have hstep : (JsonbExpr.set e (pre.length + 1) (pre.length + 1 + 1)).eval
        ((pre ++ [.text name, .jsonb value]) ++ setParams sets ++ post) row
        = .ok (.obj (Entries.insert name value members)) := by
      rw [hsplit] at he
      simp only [append_assoc, cons_append, nil_append, length_append,
        length_cons, length_nil] at he hname hvalue ⊢
      simp only [JsonbExpr.eval, he, hname, hvalue]
      rfl
    have hrest := ih _ hstep
    rw [hsplit]
    simpa [setChain, Entries.insertAll] using hrest

theorem length_setParams (sets : List (String × Json)) :
    (setParams sets).length = 2 * sets.length := by
  induction sets with
  | nil => rfl
  | cons entry sets ih =>
    have hcons : setParams (entry :: sets) = .text entry.1 :: .jsonb entry.2 :: setParams sets := rfl
    rw [hcons, length_cons, length_cons, length_cons, ih]
    omega

theorem removeChain_eval {pre post : List Param} {row : Json} {removes : List String}
    {e : JsonbExpr}
    (he : e.eval (pre ++ removes.map Param.text ++ post) row = .ok (.obj members)) :
    (removeChain (pre.length + 1) removes.length e).eval (pre ++ removes.map Param.text ++ post) row
      = .ok (.obj (Entries.eraseAll members removes)) := by
  induction removes generalizing pre members e with
  | nil => exact he
  | cons name removes ih =>
    have hsplit : pre ++ (name :: removes).map Param.text ++ post
        = (pre ++ [.text name]) ++ removes.map Param.text ++ post := by
      simp
    have hname := textArg_append pre (removes.map Param.text ++ post) name
    have hstep : (JsonbExpr.remove e (pre.length + 1)).eval
        ((pre ++ [.text name]) ++ removes.map Param.text ++ post) row
        = .ok (.obj (Entries.erase name members)) := by
      rw [hsplit] at he
      simp only [append_assoc, cons_append, nil_append] at he hname ⊢
      simp only [JsonbExpr.eval, he, hname]
      rfl
    have hrest := ih hstep
    rw [hsplit]
    simpa [removeChain, Entries.eraseAll] using hrest

/-- Bound one by one, the SETs are numbered as in the counted chain. -/
theorem bindSets_eq (b : ParamBuilder) (e : JsonbExpr) (sets : List (String × Json)) :
    (bindSets b e sets).1 = setChain (b.params.length + 1) sets.length e ∧
    (bindSets b e sets).2.params = b.params ++ setParams sets := by
  induction sets generalizing b e with
  | nil => exact ⟨rfl, (append_nil _).symm⟩
  | cons entry sets ih =>
    obtain ⟨name, value⟩ := entry
    obtain ⟨h1, h2⟩ := ih ((b.bindText name).2.bindJsonb value).2
      (.set e (b.bindText name).1 ((b.bindText name).2.bindJsonb value).1)
    have hp : ((b.bindText name).2.bindJsonb value).2.params
        = b.params ++ [.text name, .jsonb value] := by
      simp [ParamBuilder.bindText, ParamBuilder.bindJsonb, ParamBuilder.push]
    have hj : ((b.bindText name).2.bindJsonb value).1 = b.params.length + 1 + 1 := by
      simp [ParamBuilder.bindText, ParamBuilder.bindJsonb, ParamBuilder.push]
    constructor
    · rw [bindSets, h1, hp, hj, length_append]
      rfl
    · rw [bindSets, h2, hp]
      simp [setParams]

theorem bindRemoves_eq (b : ParamBuilder) (e : JsonbExpr) (removes : List String) :
    (bindRemoves b e removes).1 = removeChain (b.params.length + 1) removes.length e ∧
    (bindRemoves b e removes).2.params = b.params ++ removes.map Param.text := by
  induction removes generalizing b e with
  | nil => exact ⟨rfl, (append_nil _).symm⟩
  | cons name removes ih =>
    obtain ⟨h1, h2⟩ := ih (b.bindText name).2 (.remove e (b.bindText name).1)
    have hp : (b.bindText name).2.params = b.params ++ [.text name] := rfl
    constructor
    · rw [bindRemoves, h1, hp, length_append]
      rfl
    · rw [bindRemoves, h2, hp]
      simp

def addressedKey (pk : KeyValue) (sk : Option KeyValue) : Except PgError PgKey := do
  let p ← pk.pg
  match sk with
  | none => return (p, none)
  | some sk =>
    let s ← sk.pg
    return (p, some s)

def KeyFits (bk : BaseKey) (pk : KeyValue) (sk : Option KeyValue) : Prop :=
  pk.keyType = bk.pkType ∧ sk.map KeyValue.keyType = bk.sk.map Prod.snd

theorem extractKey_spec {item : Item} {attr : String} {t : KeyType} {role : KeyRole} {kv : KeyValue}
    (h : extractKey item attr t role = .ok kv) :
    kv.keyType = t ∧ generatedNotNull attr t (Item.toValue item) = kv.pg := by
  unfold extractKey at h
  split at h
  next => cases h
  next av hav =>
    have htext : extractText (Item.toValue item) attr t.tag =
        if t.tag = av.typeName then av.payload.asStr else none := by
      rw [extractText_toValue, hav]
      rfl
    split at h
    next v =>
      cases h
      refine ⟨rfl, ?_⟩
      simp only [generatedNotNull, extractCol, htext]
      rfl
    next v =>
      cases h
      refine ⟨rfl, ?_⟩
      have hn : KeyType.n.tag = (AttributeValue.n v).typeName := rfl
      simp only [generatedNotNull, extractCol, htext, if_pos hn, AttributeValue.payload,
        Json.asStr_str, castKey, KeyValue.pg]
      cases castNumeric v <;> rfl
    next v =>
      cases h
      refine ⟨rfl, ?_⟩
      have hb : KeyType.b.tag = (AttributeValue.b v).typeName := rfl
      simp only [generatedNotNull, extractCol, htext, if_pos hb, AttributeValue.payload,
        Json.asStr_str, castKey, Base64.decode_encode]
      rfl
    next => cases h

/-- The key columns generated from an item are the key extracted from it. -/
theorem extractKeyPair_spec {item : Item} {schema : TableSchema} {pk : KeyValue}
    {sk : Option KeyValue} (h : extractKeyPair item schema = .ok (pk, sk)) :
    KeyFits schema.writeShape.baseKey pk sk ∧
      generatedKey schema.writeShape.baseKey (Item.toValue item) = addressedKey pk sk := by
  obtain ⟨p, hp, h⟩ := bind_ok h
  obtain ⟨hpt, hpg⟩ := extractKey_spec hp
  have hbk : schema.writeShape.baseKey = ⟨schema.pkAttr, schema.pkType, schema.sk, schema.rules⟩ :=
    rfl
  rw [hbk]
  rcases hs : schema.sk with _ | ⟨attr, t⟩
  · rw [hs] at h
    cases h
    refine ⟨⟨hpt, rfl⟩, ?_⟩
    simp only [generatedKey, hpg, addressedKey]
  · rw [hs] at h
    obtain ⟨s, hsk, h⟩ := bind_ok h
    cases h
    obtain ⟨hst, hsg⟩ := extractKey_spec hsk
    refine ⟨⟨hpt, by rw [Option.map_some, Option.map_some, hst]⟩, ?_⟩
    simp only [generatedKey, hpg, hsg, addressedKey]

theorem keyArg_bound {params : List Param} {kv : KeyValue} {t : KeyType} {i : Nat}
    (ht : kv.keyType = t) (hi : params[i - 1]? = some (boundParam kv)) :
    keyArg params t i = kv.pg := by
  subst ht
  cases kv with
  | s v => simp [keyArg, KeyValue.keyType, textArg, textParam, hi, boundParam, KeyValue.pg, Except.map]
  | n v =>
    simp only [keyArg, KeyValue.keyType, textArg, textParam, hi, boundParam, KeyValue.pg]
    cases h : castNumeric v <;> simp [h, bind, Except.bind, Except.map, pure, Except.pure]
  | b v => simp [keyArg, KeyValue.keyType, byteaArg, hi, boundParam, KeyValue.pg, Except.map]

/-- The key predicate selects the addressed row. -/
theorem keyPredicate_eval {bk : BaseKey} {pk : KeyValue} {sk : Option KeyValue}
    (hfit : KeyFits bk pk sk) (pre post : List Param) :
    (KeyPredicate.mk (pre.length + 1) (sk.map fun _ => pre.length + 2)).eval bk
        (pre ++ keyParams pk sk ++ post) = addressedKey pk sk := by
  rw [keyParams]
  obtain ⟨hpk, hsk⟩ := hfit
  have hp : keyArg (pre ++ boundParam pk :: (sk.map boundParam).toList ++ post) bk.pkType
      (pre.length + 1) = pk.pg := keyArg_bound hpk (by simp)
  rcases sk with _ | sk
  · have hnone : bk.sk = none := by
      rcases h : bk.sk with _ | x
      · rfl
      · rw [h] at hsk
        cases hsk
    simp only [KeyPredicate.eval, hp, hnone, addressedKey]
  · obtain ⟨⟨col, t⟩, hx, ht⟩ : ∃ x, bk.sk = some x ∧ x.2 = sk.keyType := by
      rcases h : bk.sk with _ | x
      · rw [h] at hsk
        cases hsk
      · rw [h] at hsk
        exact ⟨x, rfl, (Option.some.inj hsk).symm⟩
    have hs : keyArg (pre ++ boundParam pk :: ((some sk).map boundParam).toList ++ post) t
        (pre.length + 2) = sk.pg := keyArg_bound ht.symm (by simp)
    simp only [Option.map_some] at hp hs ⊢
    simp only [KeyPredicate.eval, hp, hs, hx, addressedKey]

theorem bindKeys_eq (pk : KeyValue) (sk : Option KeyValue) :
    (bindKeys pk sk).1 = ⟨1, sk.map fun _ => 2⟩ ∧
    (bindKeys pk sk).2.params = keyParams pk sk := by
  rcases sk with _ | sk
  · cases pk <;> exact ⟨rfl, rfl⟩
  · cases pk <;> cases sk <;> exact ⟨rfl, rfl⟩

/-- The numeral a DualWrite column of type `N` is filled from. -/
def colNumeral (item : Item) (c : DualWriteCol) : Option String :=
  match c.keyType, item.get c.attr with
  | .n, some (.n s) => some s
  | _, _ => none

theorem extractCol_ok_iff (item : Item) (c : DualWriteCol) :
    (∃ v, extractCol c.attr c.keyType (Item.toValue item) = .ok v)
      ↔ (colNumeral item c).all isNumeral := by
  obtain ⟨col, attr, t⟩ := c
  simp only [extractCol, extractText_toValue, colNumeral]
  rcases hv : item.get attr with _ | v
  · cases t <;> simp
  · cases t with
    | s => cases v <;> simp [KeyType.tag, AttributeValue.typeName, AttributeValue.payload, castKey,
        Except.map]
    | n =>
      cases v with
      | n s =>
        have hc := castNumeric_ok_iff s
        cases hcast : castNumeric s <;>
          simp_all [KeyType.tag, AttributeValue.typeName, AttributeValue.payload, castKey, Except.map]
      | _ => simp [KeyType.tag, AttributeValue.typeName]
    | b => cases v <;> simp [KeyType.tag, AttributeValue.typeName, AttributeValue.payload, castKey,
        Base64.decode_encode, Except.map]

/-- The DualWrite columns of a statement and the generated ones can be computed. -/
def fillable (bk : BaseKey) (cols : List DualWriteCol) (data : Json) : Bool :=
  (cols ++ bk.rules.generated).all fun c => (extractCol c.attr c.keyType data).toOption.isSome

/-- The columns are filled and the index rows fit. -/
def storable (bk : BaseKey) (cols : List DualWriteCol) (data : Json) : Bool :=
  fillable bk cols data && bk.rules.indexRowsFit data

def TableSchema.fillable (schema : TableSchema) (item : Item) : Bool :=
  Rektifier.fillable schema.writeShape.baseKey schema.dualWriteCols (Item.toValue item)

def TableSchema.storable (schema : TableSchema) (item : Item) : Bool :=
  Rektifier.storable schema.writeShape.baseKey schema.dualWriteCols (Item.toValue item)

/-- On an item: every `N` value a key column is computed from is a number. -/
theorem fillable_toValue (bk : BaseKey) (cols : List DualWriteCol) (item : Item) :
    fillable bk cols (Item.toValue item)
      = (cols ++ bk.rules.generated).all fun c => (colNumeral item c).all isNumeral := by
  have hcol : ∀ c : DualWriteCol, (extractCol c.attr c.keyType (Item.toValue item)).toOption.isSome
      = (colNumeral item c).all isNumeral := by
    intro c
    rw [Bool.eq_iff_iff, ← extractCol_ok_iff, Option.isSome_iff_exists]
    exact exists_congr fun v => toOption_eq_some_iff
  simp only [fillable, hcol]

theorem fillable_iff {bk : BaseKey} :
    fillable bk cols data ↔
      (∀ c ∈ cols, ∃ v, extractCol c.attr c.keyType data = .ok v) ∧
      ∀ c ∈ bk.rules.generated, ∃ v, extractCol c.attr c.keyType data = .ok v := by
  rw [fillable, all_eq_true, ← forall_mem_append]
  refine forall₂_congr fun c _ => ?_
  rw [Option.isSome_iff_exists]
  exact exists_congr fun v => toOption_eq_some_iff

theorem newVersion_ok_iff : (∃ row, newVersion cols data start = .ok row) ↔
      ∀ c ∈ cols, ∃ v, extractCol c.attr c.keyType data = .ok v := by
  rw [← fillCols_ok_iff cols data start]
  constructor
  · rintro ⟨row, h⟩
    obtain ⟨m, hm, _⟩ := bind_ok h
    exact ⟨m, hm⟩
  · rintro ⟨m, hm⟩
    exact ⟨_, bind_ok_iff.mpr ⟨m, hm, rfl⟩⟩

theorem newVersion_data
    {row : PgRow} (h : newVersion cols data start = .ok row) : row.data = data := by
  obtain ⟨m, _, h⟩ := bind_ok h
  cases h
  rfl

end Rektifier
