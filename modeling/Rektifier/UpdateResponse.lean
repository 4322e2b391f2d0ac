import Rektifier.UpdateItemSpec

namespace Rektifier

open List

mutual

/-- `serde_json::from_value`: one member, named by its type. -/
def AttributeValue.fromValue : Json → Option AttributeValue
  | .obj [(tag, payload)] => AttributeValue.fromPayload tag payload
  | _ => none

def AttributeValue.fromPayload (tag : String) : Json → Option AttributeValue
  | .str text =>
    match tag with
    | "S" => some (.s text)
    | "N" => some (.n text)
    | "B" => (Base64.decode text).map .b
    | _ => none
  | .bool flag =>
    match tag with
    | "BOOL" => some (.bool flag)
    | "NULL" => if flag then some .null else none
    | _ => none
  | .arr items =>
    match tag with
    | "L" => (AttributeValue.fromItems items).map .l
    | "SS" => (items.mapM Json.asStr).map .ss
    | "NS" => (items.mapM Json.asStr).map .ns
    | "BS" => ((items.mapM Json.asStr).bind fun texts => texts.mapM Base64.decode).map .bs
    | _ => none
  | .obj members =>
    match tag with
    | "M" => (AttributeValue.fromMembers members).map .m
    | _ => none
  | _ => none

def AttributeValue.fromItems : List Json → Option (List AttributeValue)
  | [] => some []
  | v :: rest => do
    let v ← AttributeValue.fromValue v
    let rest ← AttributeValue.fromItems rest
    return v :: rest

def AttributeValue.fromMembers : List (String × Json) → Option (List (String × AttributeValue))
  | [] => some []
  | (k, v) :: rest => do
    let v ← AttributeValue.fromValue v
    let rest ← AttributeValue.fromMembers rest
    return (k, v) :: rest

end

def Item.fromValue : Json → Option Item
  | .obj members => (AttributeValue.fromMembers members).map OrderedMap.ofList
  | _ => none

/-- The internal errors, but for what the decoder says. -/
inductive ResponseError where
  | storedItem (label : String)
  | notObject (label : String) (got : Json)
  | projection (label : String)

def touchedPaths (e : UpdateExpression) : List String :=
  (OrderedMap.ofList ((e.targets.filterMap Path.topName).map fun n => (n, ()))).keys

def projectAttributes (label : String) (source : Option Json) (touched : List String) :
    Except ResponseError (Option Item) :=
  match source with
  | none => .ok none
  | some v =>
    match v.asObject with
    | none => .error (.notObject label v)
    | some obj =>
      let projected := touched.foldl (fun projected name =>
        match Entries.get name obj with
        | some val => Entries.insert name val projected
        | none => projected) []
      if projected = [] then .ok none
      else match Item.fromValue (.obj projected) with
        | some item => .ok (some item)
        | none => .error (.projection label)

def responseItem (label : String) (v : Json) : Except ResponseError Item :=
  match Item.fromValue v with
  | some item => .ok item
  | none => .error (.storedItem label)

/-- The `Attributes` of the response. -/
def buildUpdateResponse (mode : ReturnValuesMode) (outcome : UpdateOutcome) (touched : List String) :
    Except ResponseError (Option Item) :=
  match mode with
  | .none => .ok none
  | .allNew => (responseItem "ReturnValues=ALL_NEW" outcome.newItem).map some
  | .allOld =>
    match outcome.oldItem with
    | some v => (responseItem "ReturnValues=ALL_OLD" v).map some
    | none => .ok none
  | .updatedNew => projectAttributes "ReturnValues=UPDATED_NEW" (some outcome.newItem) touched
  | .updatedOld => projectAttributes "ReturnValues=UPDATED_OLD" outcome.oldItem touched

theorem mapM_asStr (texts : List String) : (texts.map Json.str).mapM Json.asStr = some texts := by
  induction texts with
  | nil => rfl
  | cons text texts ih =>
    rw [map_cons, mapM_cons, ih]
    rfl

theorem mapM_decode (sets : List (List UInt8)) :
    (sets.map Base64.encode).mapM Base64.decode = some sets := by
  induction sets with
  | nil => rfl
  | cons bytes sets ih =>
    rw [map_cons, mapM_cons, Base64.decode_encode, ih]
    rfl

mutual

theorem fromPayload_payload : ∀ v : AttributeValue,
    AttributeValue.fromPayload v.typeName v.payload = some v
  | .s _ => rfl
  | .n _ => rfl
  | .b bytes => by
    show (Base64.decode (Base64.encode bytes)).map AttributeValue.b = _
    rw [Base64.decode_encode]
    rfl
  | .bool _ => rfl
  | .null => rfl
  | .l items => by
    show (AttributeValue.fromItems (AttributeValue.toValueItems items)).map AttributeValue.l = _
    rw [fromItems_toValueItems items]
    rfl
  | .m members => by
    show (AttributeValue.fromMembers (AttributeValue.toValueMembers members)).map AttributeValue.m = _
    rw [fromMembers_toValueMembers members]
    rfl
  | .ss texts => by
    show ((texts.map Json.str).mapM Json.asStr).map AttributeValue.ss = _
    rw [mapM_asStr]
    rfl
  | .ns texts => by
    show ((texts.map Json.str).mapM Json.asStr).map AttributeValue.ns = _
    rw [mapM_asStr]
    rfl
  | .bs sets => by
    show (((sets.map fun bytes => Json.str (Base64.encode bytes)).mapM Json.asStr).bind
      fun texts => texts.mapM Base64.decode).map AttributeValue.bs = _
    have htexts := mapM_asStr (sets.map Base64.encode)
    rw [map_map] at htexts
    rw [show (sets.map fun bytes => Json.str (Base64.encode bytes)).mapM Json.asStr = _ from htexts,
      Option.bind_some, mapM_decode]
    rfl

theorem fromItems_toValueItems : ∀ items : List AttributeValue,
    AttributeValue.fromItems (AttributeValue.toValueItems items) = some items
  | [] => rfl
  | v :: rest => by
    show (AttributeValue.fromPayload v.typeName v.payload).bind (fun v =>
      (AttributeValue.fromItems (AttributeValue.toValueItems rest)).bind fun rest => some (v :: rest)) = _
    rw [fromPayload_payload v, fromItems_toValueItems rest]
    rfl

theorem fromMembers_toValueMembers : ∀ members : List (String × AttributeValue),
    AttributeValue.fromMembers (AttributeValue.toValueMembers members) = some members
  | [] => rfl
  | (k, v) :: rest => by
    show (AttributeValue.fromPayload v.typeName v.payload).bind (fun v =>
      (AttributeValue.fromMembers (AttributeValue.toValueMembers rest)).bind fun rest =>
        some ((k, v) :: rest)) = _
    rw [fromPayload_payload v, fromMembers_toValueMembers rest]
    rfl

end

theorem mapVals_toValue (members : List (String × AttributeValue)) :
    Entries.mapVals AttributeValue.toValue members = AttributeValue.toValueMembers members := by
  induction members with
  | nil => rfl
  | cons kv members ih =>
    rw [AttributeValue.toValueMembers, ← ih]
    rfl

theorem Item.fromValue_toValue (item : Item) : Item.fromValue (Item.toValue item) = some item := by
  show (AttributeValue.fromMembers (Entries.mapVals AttributeValue.toValue item.entries)).map _ = _
  rw [mapVals_toValue, fromMembers_toValueMembers, Option.map_some,
    OrderedMap.ofList_of_perm (List.Perm.refl _)]

def Item.restrict (item : Item) (names : List String) : Item :=
  names.foldl (fun r name =>
    match item.get name with
    | some v => r.insert name v
    | none => r) OrderedMap.empty

theorem Item.get_restrict (item : Item) (names : List String) (n : String) :
    (item.restrict names).get n = if n ∈ names then item.get n else none := by
  have hfold : ∀ r : Item, (names.foldl (fun r name =>
      match item.get name with
      | some v => r.insert name v
      | none => r) r).get n = if n ∈ names then (item.get n).or (r.get n) else r.get n := by
    induction names with
    | nil => exact fun r => rfl
    | cons name names ih =>
      intro r
      rw [foldl_cons, ih]
      by_cases hn : n = name
      · subst hn
        rw [if_pos (mem_cons_self (l := names))]
        cases hget : item.get n with
        | none => simp
        | some v => simp
      · have hnext : (match item.get name with
            | some v => r.insert name v
            | none => r).get n = r.get n := by
          cases item.get name with
          | none => rfl
          | some v => exact OrderedMap.get_insert_of_ne r hn v
        rw [hnext]
        simp only [mem_cons, hn, false_or]
  have hempty : (OrderedMap.empty : Item).get n = none := rfl
  rw [Item.restrict, hfold, hempty, Option.or_none]

/-- The projection of an item is its restriction; an empty one is left out. -/
theorem projectAttributes_item (label : String) (item : Item) (touched : List String) :
    projectAttributes label (some (Item.toValue item)) touched =
      .ok (if (item.restrict touched).entries = [] then none else some (item.restrict touched)) := by
  have hfold : ∀ (names : List String) (r : Item),
      names.foldl (fun projected name =>
        match Entries.get name (Entries.mapVals AttributeValue.toValue item.entries) with
        | some val => Entries.insert name val projected
        | none => projected) (Entries.mapVals AttributeValue.toValue r.entries) =
      Entries.mapVals AttributeValue.toValue (names.foldl (fun r name =>
        match item.get name with
        | some v => r.insert name v
        | none => r) r).entries := by
    intro names
    induction names with
    | nil => exact fun r => rfl
    | cons name names ih =>
      intro r
      rw [foldl_cons, foldl_cons, ← ih, Entries.get_mapVals]
      show List.foldl _ (match (item.get name).map AttributeValue.toValue with
        | some val => Entries.insert name val _
        | none => _) names = _
      cases item.get name with
      | none => rfl
      | some v =>
        show List.foldl _ (Entries.insert name v.toValue _) names = _
        rw [← Entries.mapVals_insert]
        rfl
  have hprojected : touched.foldl (fun projected name =>
      match Entries.get name (Entries.mapVals AttributeValue.toValue item.entries) with
      | some val => Entries.insert name val projected
      | none => projected) [] =
      Entries.mapVals AttributeValue.toValue (item.restrict touched).entries :=
    hfold touched OrderedMap.empty
  have hread : Item.fromValue (.obj (Entries.mapVals AttributeValue.toValue
      (item.restrict touched).entries)) = some (item.restrict touched) :=
    Item.fromValue_toValue _
  dsimp only [projectAttributes, Json.asObject, Item.toValue]
  rw [hprojected, hread]
  by_cases hempty : (item.restrict touched).entries = []
  · rw [if_pos hempty, if_pos]
    rw [hempty]
    rfl
  · rw [if_neg hempty, if_neg]
    intro hnil
    exact hempty (map_eq_nil_iff.mp hnil)

end Rektifier
