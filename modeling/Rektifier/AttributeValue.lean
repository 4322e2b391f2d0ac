import Rektifier.Base64
import Rektifier.Json

namespace Rektifier

inductive AttributeValue where
  | s (v : String)
  | n (v : String)
  | b (v : List UInt8)
  | bool (v : Bool)
  | null
  | l (v : List AttributeValue)
  | m (v : List (String × AttributeValue))
  | ss (v : List String)
  | ns (v : List String)
  | bs (v : List (List UInt8))

abbrev Item := OrderedMap String AttributeValue

namespace AttributeValue

def typeName : AttributeValue → String
  | s _ => "S"
  | n _ => "N"
  | b _ => "B"
  | bool _ => "BOOL"
  | null => "NULL"
  | l _ => "L"
  | m _ => "M"
  | ss _ => "SS"
  | ns _ => "NS"
  | bs _ => "BS"

mutual

/-- The payload under the type tag. -/
def payload : AttributeValue → Json
  | s v => .str v
  | n v => .str v
  | b v => .str (Base64.encode v)
  | bool v => .bool v
  | null => .bool true
  | l v => .arr (toValueItems v)
  | m v => .obj (toValueMembers v)
  | ss v => .arr (v.map Json.str)
  | ns v => .arr (v.map Json.str)
  | bs v => .arr (v.map fun bytes => .str (Base64.encode bytes))

def toValueItems : List AttributeValue → List Json
  | [] => []
  | v :: vs => .obj [(v.typeName, payload v)] :: toValueItems vs

def toValueMembers : List (String × AttributeValue) → List (String × Json)
  | [] => []
  | (k, v) :: vs => (k, .obj [(v.typeName, payload v)]) :: toValueMembers vs

end

/-- `serde_json::to_value`: one member, named by the type tag. -/
def toValue (v : AttributeValue) : Json := .obj [(v.typeName, v.payload)]

@[simp] theorem singleTagged_toValue (v : AttributeValue) :
    v.toValue.singleTagged = some (v.typeName, v.payload) := rfl

end AttributeValue

/-- `serde_json::to_value` of an item. -/
def Item.toValue (item : Item) : Json :=
  .obj (Entries.mapVals AttributeValue.toValue item.entries)

theorem Item.toValue_update (item : Item) (sets : List (String × AttributeValue))
    (removes : List String) : Item.toValue ((item.insertAll sets).eraseAll removes) =
      .obj (Entries.eraseAll (Entries.insertAll (Entries.mapVals AttributeValue.toValue item.entries)
        (Entries.mapVals AttributeValue.toValue sets)) removes) := by
  rw [Item.toValue, OrderedMap.entries_eraseAll, OrderedMap.entries_insertAll,
    Entries.mapVals_eraseAll, Entries.mapVals_insertAll]

@[simp] theorem Item.get_toValue (item : Item) (name : String) :
    (Item.toValue item).get name = (item.get name).map AttributeValue.toValue := by
  simp [Item.toValue, OrderedMap.get]

end Rektifier
