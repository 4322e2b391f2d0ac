import Rektifier.UpdateResponse

namespace Rektifier

open Fallible List

variable {members : List (String × AttributeValue)}

/-- `invalidType` is the reader's own refusal. -/
inductive DecodeError where
  | custom (message : String)
  | unknownVariant (tag : String)
  | invalidType
deriving DecidableEq

def variants : List String := ["S", "N", "B", "BOOL", "NULL", "L", "M", "SS", "NS", "BS"]

def readString : Json → Except DecodeError String
  | .str s => .ok s
  | _ => .error .invalidType

def readBool : Json → Except DecodeError Bool
  | .bool b => .ok b
  | _ => .error .invalidType

def readStrings : Json → Except DecodeError (List String)
  | .arr items => items.mapM readString
  | _ => .error .invalidType

section

-- the base64 reader, with its own error texts
variable (decode : String → Except String (List UInt8))

def readBytes (tag text : String) : Except DecodeError (List UInt8) :=
  (decode text).mapError fun e => .custom ("invalid base64 in " ++ tag ++ ": " ++ e)

/-- The payload under a tag other than `L` and `M`. -/
def deserializeFlat (tag : String) (payload : Json) : Except DecodeError AttributeValue :=
  match tag with
  | "S" => (readString payload).map .s
  | "N" => (readString payload).map .n
  | "B" => do return .b (← readBytes decode "B" (← readString payload))
  | "BOOL" => (readBool payload).map .bool
  | "NULL" => do
    if ← readBool payload then return .null
    else throw (.custom "NULL AttributeValue must have value `true`")
  | "SS" => (readStrings payload).map .ss
  | "NS" => (readStrings payload).map .ns
  | "BS" => do return .bs (← (← readStrings payload).mapM (readBytes decode "BS"))
  | "L" | "M" => .error .invalidType
  | other => .error (.unknownVariant other)

mutual

/-- Members come in the order of the document, repeated keys included. -/
def deserialize : Json → Except DecodeError AttributeValue
  | .obj [] => .error (.custom "AttributeValue object is empty")
  | .obj ((tag, payload) :: rest) => do
    let av ← deserializePayload tag payload
    if rest.isEmpty then return av
    else throw (.custom "AttributeValue object had more than one type key")
  | _ => .error .invalidType

def deserializePayload (tag : String) : Json → Except DecodeError AttributeValue
  | .arr items =>
    if tag = "L" then (deserializeItems items).map .l else deserializeFlat decode tag (.arr items)
  | .obj members =>
    if tag = "M" then (deserializeMembers members).map fun vs => .m (OrderedMap.ofList vs).entries
    else deserializeFlat decode tag (.obj members)
  | payload => deserializeFlat decode tag payload

def deserializeItems : List Json → Except DecodeError (List AttributeValue)
  | [] => .ok []
  | j :: rest => do
    let v ← deserialize j
    let vs ← deserializeItems rest
    return v :: vs

def deserializeMembers : List (String × Json) → Except DecodeError (List (String × AttributeValue))
  | [] => .ok []
  | (k, j) :: rest => do
    let v ← deserialize j
    let vs ← deserializeMembers rest
    return (k, v) :: vs

end

end

mutual

/-- Every map inside is in key order, as a `BTreeMap` is. -/
def AttributeValue.ordered : AttributeValue → Bool
  | .l items => AttributeValue.orderedItems items
  | .m members => decide (Entries.Sorted members) && AttributeValue.orderedMembers members
  | _ => true

def AttributeValue.orderedItems : List AttributeValue → Bool
  | [] => true
  | v :: rest => v.ordered && AttributeValue.orderedItems rest

def AttributeValue.orderedMembers : List (String × AttributeValue) → Bool
  | [] => true
  | (_, v) :: rest => v.ordered && AttributeValue.orderedMembers rest

end

structure OrderedValue where
  value : AttributeValue
  ordered : value.ordered = true

mutual

/-- One known tag, also under `L` and `M`. -/
def Json.tagged : Json → Bool
  | .obj [(tag, payload)] => variants.contains tag && Json.taggedPayload tag payload
  | _ => false

def Json.taggedPayload (tag : String) : Json → Bool
  | .arr items => tag ≠ "M" && (tag ≠ "L" || Json.taggedItems items)
  | .obj members => tag ≠ "L" && (tag ≠ "M" || Json.taggedMembers members)
  | _ => tag ≠ "L" && tag ≠ "M"

def Json.taggedItems : List Json → Bool
  | [] => true
  | j :: rest => j.tagged && Json.taggedItems rest

def Json.taggedMembers : List (String × Json) → Bool
  | [] => true
  | (_, j) :: rest => j.tagged && Json.taggedMembers rest

end

variable {decode : String → Except String (List UInt8)}

/-! ### What is written is read -/

theorem mapM_readString (texts : List String) :
    (texts.map Json.str).mapM readString = .ok texts := by
  induction texts with
  | nil => rfl
  | cons text texts ih =>
    rw [map_cons, mapM_cons, ih]
    rfl

theorem mapM_readBytes (hdecode : ∀ bytes, decode (Base64.encode bytes) = .ok bytes) (tag : String)
    (sets : List (List UInt8)) :
    (sets.map Base64.encode).mapM (readBytes decode tag) = .ok sets := by
  induction sets with
  | nil => rfl
  | cons bytes sets ih =>
    rw [map_cons, mapM_cons, ih, readBytes, hdecode]
    rfl

theorem ofList_entries (h : Entries.Sorted members) :
    (OrderedMap.ofList members).entries = members := by
  have hperm : members.Perm (OrderedMap.mk members h).entries := List.Perm.refl _
  rw [OrderedMap.ofList_of_perm hperm]

theorem deserialize_single (tag : String) (payload : Json) :
    deserialize decode (.obj [(tag, payload)]) = deserializePayload decode tag payload := by
  show deserializePayload decode tag payload >>= (fun av => pure av) = _
  exact bind_pure _

mutual

theorem deserializePayload_payload (hdecode : ∀ bytes, decode (Base64.encode bytes) = .ok bytes) :
    ∀ v : AttributeValue, v.ordered →
      deserializePayload decode v.typeName v.payload = .ok v
  | .s _, _ => rfl
  | .n _, _ => rfl
  | .b bytes, _ => by
    show (readBytes decode "B" (Base64.encode bytes) >>= fun bytes =>
      pure (AttributeValue.b bytes)) = _
    rw [readBytes, hdecode]
    rfl
  | .bool _, _ => rfl
  | .null, _ => rfl
  | .l items, h => by
    show (deserializeItems decode (AttributeValue.toValueItems items)).map AttributeValue.l = _
    rw [deserializeItems_toValueItems hdecode items h]
    rfl
  | .m members, h => by
    obtain ⟨hsorted, hmembers⟩ := Bool.and_eq_true_iff.mp h
    show ((deserializeMembers decode (AttributeValue.toValueMembers members)).map
      fun vs => AttributeValue.m (OrderedMap.ofList vs).entries) = _
    rw [deserializeMembers_toValueMembers hdecode members hmembers]
    show Except.ok (AttributeValue.m (OrderedMap.ofList members).entries) = _
    rw [ofList_entries (of_decide_eq_true hsorted)]
  | .ss texts, _ => by
    show ((texts.map Json.str).mapM readString).map AttributeValue.ss = _
    rw [mapM_readString]
    rfl
  | .ns texts, _ => by
    show ((texts.map Json.str).mapM readString).map AttributeValue.ns = _
    rw [mapM_readString]
    rfl
  | .bs sets, _ => by
    have htexts := mapM_readString (sets.map Base64.encode)
    rw [map_map] at htexts
    have htexts : (sets.map fun bytes => Json.str (Base64.encode bytes)).mapM readString
        = .ok (sets.map Base64.encode) := htexts
    show ((sets.map fun bytes => Json.str (Base64.encode bytes)).mapM readString >>= fun texts =>
      texts.mapM (readBytes decode "BS") >>= fun sets => pure (AttributeValue.bs sets)) = _
    rw [htexts, ok_bind, mapM_readBytes hdecode]
    rfl

theorem deserializeItems_toValueItems
    (hdecode : ∀ bytes, decode (Base64.encode bytes) = .ok bytes) :
    ∀ items : List AttributeValue, AttributeValue.orderedItems items →
      deserializeItems decode (AttributeValue.toValueItems items) = .ok items
  | [], _ => rfl
  | v :: rest, h => by
    obtain ⟨hv, hrest⟩ := Bool.and_eq_true_iff.mp h
    show (deserialize decode (.obj [(v.typeName, v.payload)]) >>= fun v =>
      deserializeItems decode (AttributeValue.toValueItems rest) >>= fun vs => pure (v :: vs)) = _
    rw [deserialize_single, deserializePayload_payload hdecode v hv, ok_bind,
      deserializeItems_toValueItems hdecode rest hrest]
    rfl

theorem deserializeMembers_toValueMembers
    (hdecode : ∀ bytes, decode (Base64.encode bytes) = .ok bytes) :
    ∀ members : List (String × AttributeValue), AttributeValue.orderedMembers members →
      deserializeMembers decode (AttributeValue.toValueMembers members) = .ok members
  | [], _ => rfl
  | (k, v) :: rest, h => by
    obtain ⟨hv, hrest⟩ := Bool.and_eq_true_iff.mp h
    show (deserialize decode (.obj [(v.typeName, v.payload)]) >>= fun v =>
      deserializeMembers decode (AttributeValue.toValueMembers rest) >>= fun vs =>
        pure ((k, v) :: vs)) = _
    rw [deserialize_single, deserializePayload_payload hdecode v hv, ok_bind,
      deserializeMembers_toValueMembers hdecode rest hrest]
    rfl

end

theorem deserialize_toValue (hdecode : ∀ bytes, decode (Base64.encode bytes) = .ok bytes)
    {v : AttributeValue} (h : v.ordered) : deserialize decode v.toValue = .ok v :=
  (deserialize_single _ _).trans (deserializePayload_payload hdecode v h)

/-! ### What is read -/

theorem orderedMembers_iff :
    AttributeValue.orderedMembers members ↔ ∀ e ∈ members, e.2.ordered := by
  induction members with
  | nil => exact ⟨fun _ => nofun, fun _ => rfl⟩
  | cons e members ih =>
    rw [forall_mem_cons, ← ih]
    exact Bool.and_eq_true_iff

/-- A map is in key order, whatever the document's order. -/
theorem ordered_ofList
    (h : AttributeValue.orderedMembers members) :
    (AttributeValue.m (OrderedMap.ofList members).entries).ordered := by
  refine Bool.and_eq_true_iff.mpr ⟨decide_eq_true (OrderedMap.ofList members).sorted, ?_⟩
  refine orderedMembers_iff.mpr fun e he => ?_
  rw [OrderedMap.ofList, OrderedMap.entries_insertAll] at he
  rcases Entries.mem_insertAll he with hmem | hnil
  · exact orderedMembers_iff.mp h e hmem
  · cases hnil

theorem taggedPayload_of_flat {tag : String} (h : tag ≠ "L" ∧ tag ≠ "M") (payload : Json) :
    Json.taggedPayload tag payload := by
  cases payload <;> simp [Json.taggedPayload, h]

theorem deserializeFlat_sound {tag : String} {payload : Json} {v : AttributeValue}
    (h : deserializeFlat decode tag payload = .ok v) :
    variants.contains tag ∧ Json.taggedPayload tag payload ∧ v.ordered := by
  unfold deserializeFlat at h
  split at h
  case h_3 | h_8 =>
    obtain ⟨_, _, h⟩ := bind_ok h
    obtain ⟨_, _, h⟩ := bind_ok h
    cases h
    exact ⟨by decide, taggedPayload_of_flat (by decide) _, rfl⟩
  case h_5 =>
    obtain ⟨flag, _, h⟩ := bind_ok h
    cases flag with
    | false => cases h
    | true =>
      cases h
      exact ⟨by decide, taggedPayload_of_flat (by decide) _, rfl⟩
  case h_9 | h_10 | h_11 => cases h
  all_goals
    obtain ⟨_, _, rfl⟩ := map_ok_iff.mp h
    exact ⟨by decide, taggedPayload_of_flat (by decide) _, rfl⟩

mutual

/-- What is accepted is tagged, and what it is read as is in order. -/
theorem deserialize_sound : ∀ (j : Json) (v : AttributeValue), deserialize decode j = .ok v →
    j.tagged ∧ v.ordered
  | .obj [], _, h => nomatch h
  | .obj [(tag, payload)], v, h => by
    rw [deserialize_single] at h
    obtain ⟨htag, hpayload, hv⟩ := deserializePayload_sound tag payload v h
    exact ⟨Bool.and_eq_true_iff.mpr ⟨htag, hpayload⟩, hv⟩
  | .obj ((_, _) :: _ :: _), v, h => by
    obtain ⟨_, _, h⟩ := bind_ok h
    cases h
  | .null, _, h => nomatch h
  | .bool _, _, h => nomatch h
  | .num _, _, h => nomatch h
  | .str _, _, h => nomatch h
  | .arr _, _, h => nomatch h

theorem deserializePayload_sound (tag : String) : ∀ (payload : Json) (v : AttributeValue),
    deserializePayload decode tag payload = .ok v →
      variants.contains tag ∧ Json.taggedPayload tag payload ∧ v.ordered
  | .arr items, v, h => by
    by_cases hl : tag = "L"
    · subst hl
      obtain ⟨vs, hvs, rfl⟩ := map_ok_iff.mp h
      obtain ⟨hitems, hordered⟩ := deserializeItems_sound items vs hvs
      exact ⟨by decide, by simp [Json.taggedPayload, hitems], hordered⟩
    · rw [deserializePayload, if_neg hl] at h
      exact deserializeFlat_sound h
  | .obj members, v, h => by
    by_cases hm : tag = "M"
    · subst hm
      obtain ⟨vs, hvs, rfl⟩ := map_ok_iff.mp h
      obtain ⟨hmembers, hordered⟩ := deserializeMembers_sound members vs hvs
      exact ⟨by decide, by simp [Json.taggedPayload, hmembers], ordered_ofList hordered⟩
    · rw [deserializePayload, if_neg hm] at h
      exact deserializeFlat_sound h
  | .null, _, h => deserializeFlat_sound h
  | .bool _, _, h => deserializeFlat_sound h
  | .num _, _, h => deserializeFlat_sound h
  | .str _, _, h => deserializeFlat_sound h

theorem deserializeItems_sound : ∀ (items : List Json) (vs : List AttributeValue),
    deserializeItems decode items = .ok vs →
      Json.taggedItems items ∧ AttributeValue.orderedItems vs
  | [], vs, h => by
    cases h
    exact ⟨rfl, rfl⟩
  | j :: rest, vs, h => by
    obtain ⟨v, hv, h⟩ := bind_ok h
    obtain ⟨vs', hvs, h⟩ := bind_ok h
    cases h
    obtain ⟨hj, hvo⟩ := deserialize_sound j v hv
    obtain ⟨hrest, hvso⟩ := deserializeItems_sound rest vs' hvs
    exact ⟨Bool.and_eq_true_iff.mpr ⟨hj, hrest⟩, Bool.and_eq_true_iff.mpr ⟨hvo, hvso⟩⟩

theorem deserializeMembers_sound : ∀ (members : List (String × Json))
    (vs : List (String × AttributeValue)), deserializeMembers decode members = .ok vs →
      Json.taggedMembers members ∧ AttributeValue.orderedMembers vs
  | [], vs, h => by
    cases h
    exact ⟨rfl, rfl⟩
  | (k, j) :: rest, vs, h => by
    obtain ⟨v, hv, h⟩ := bind_ok h
    obtain ⟨vs', hvs, h⟩ := bind_ok h
    cases h
    obtain ⟨hj, hvo⟩ := deserialize_sound j v hv
    obtain ⟨hrest, hvso⟩ := deserializeMembers_sound rest vs' hvs
    exact ⟨Bool.and_eq_true_iff.mpr ⟨hj, hrest⟩, Bool.and_eq_true_iff.mpr ⟨hvo, hvso⟩⟩

end

/-- Both ways, with any base64 reader that reads back what was encoded. -/
theorem attribute_json_round_trip
    (hdecode : ∀ bytes, decode (Base64.encode bytes) = .ok bytes) :
    (∀ v : OrderedValue, deserialize decode v.value.toValue = .ok v.value) ∧
    ∀ j v, deserialize decode j = .ok v →
      j.tagged = true ∧ v.ordered = true ∧ deserialize decode v.toValue = .ok v := by
  refine ⟨fun v => deserialize_toValue hdecode v.ordered, fun j v h => ?_⟩
  obtain ⟨htagged, hordered⟩ := deserialize_sound j v h
  exact ⟨htagged, hordered, deserialize_toValue hdecode hordered⟩

def readBase64 (text : String) : Except String (List UInt8) :=
  match Base64.decode text with
  | some bytes => .ok bytes
  | none => .error "Invalid input"

theorem readBase64_encode (bytes : List UInt8) : readBase64 (Base64.encode bytes) = .ok bytes := by
  rw [readBase64, Base64.decode_encode]

/-- Stored values are read back as by this decoder. -/
theorem fromValue_eq_deserialize (v : OrderedValue) :
    AttributeValue.fromValue v.value.toValue =
      (deserialize readBase64 v.value.toValue).toOption := by
  rw [deserialize_toValue readBase64_encode v.ordered]
  exact fromPayload_payload v.value

/-- A key twice, and the keys out of order. -/
def nestedDocument : Json :=
  .obj [("M", .obj [("b", .obj [("L", .arr [.obj [("N", .str "1")]])]),
    ("a", .obj [("S", .str "x")]), ("a", .obj [("S", .str "y")])])]

def nestedValue : AttributeValue := .m [("a", .s "y"), ("b", .l [.n "1"])]

theorem attribute_json_round_trip_nested :
    nestedDocument.tagged = true ∧
      deserialize readBase64 nestedValue.toValue = .ok nestedValue := by
  have hread : deserialize readBase64 nestedDocument = .ok nestedValue := rfl
  obtain ⟨htagged, _, hagain⟩ := (attribute_json_round_trip readBase64_encode).2 _ _ hread
  exact ⟨htagged, hagain⟩

end Rektifier
