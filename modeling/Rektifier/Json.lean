import Rektifier.OrderedMap
import Mathlib.Data.String.Basic
import Mathlib.Data.Rat.Defs

namespace Rektifier

/-- An object lists its members in key order, as `BTreeMap` does. -/
inductive Json where
  | null
  | bool (b : Bool)
  | num (q : ℚ)
  | str (s : String)
  | arr (items : List Json)
  | obj (members : List (String × Json))

namespace Json

mutual

def decEq : (a b : Json) → Decidable (a = b)
  | .null, .null => isTrue rfl
  | .bool a, .bool b => decidable_of_iff (a = b) (by simp)
  | .num a, .num b => decidable_of_iff (a = b) (by simp)
  | .str a, .str b => decidable_of_iff (a = b) (by simp)
  | .arr a, .arr b => match decEqItems a b with
    | isTrue h => isTrue (by rw [h])
    | isFalse h => isFalse (by simpa using h)
  | .obj a, .obj b => match decEqMembers a b with
    | isTrue h => isTrue (by rw [h])
    | isFalse h => isFalse (by simpa using h)
  | .null, .bool _ | .null, .num _ | .null, .str _ | .null, .arr _ | .null, .obj _
  | .bool _, .null | .bool _, .num _ | .bool _, .str _ | .bool _, .arr _ | .bool _, .obj _
  | .num _, .null | .num _, .bool _ | .num _, .str _ | .num _, .arr _ | .num _, .obj _
  | .str _, .null | .str _, .bool _ | .str _, .num _ | .str _, .arr _ | .str _, .obj _
  | .arr _, .null | .arr _, .bool _ | .arr _, .num _ | .arr _, .str _ | .arr _, .obj _
  | .obj _, .null | .obj _, .bool _ | .obj _, .num _ | .obj _, .str _ | .obj _, .arr _ =>
    isFalse nofun

def decEqItems : (a b : List Json) → Decidable (a = b)
  | [], [] => isTrue rfl
  | [], _ :: _ | _ :: _, [] => isFalse nofun
  | a :: as, b :: bs => match decEq a b, decEqItems as bs with
    | isTrue h, isTrue hs => isTrue (by rw [h, hs])
    | isFalse h, _ => isFalse (by simp [h])
    | _, isFalse hs => isFalse (by simp [hs])

def decEqMembers : (a b : List (String × Json)) → Decidable (a = b)
  | [], [] => isTrue rfl
  | [], _ :: _ | _ :: _, [] => isFalse nofun
  | (k, a) :: as, (l, b) :: bs =>
    match (inferInstance : Decidable (k = l)), decEq a b, decEqMembers as bs with
    | isTrue hk, isTrue h, isTrue hs => isTrue (by rw [hk, h, hs])
    | isFalse hk, _, _ => isFalse (by simp [hk])
    | _, isFalse h, _ => isFalse (by simp [h])
    | _, _, isFalse hs => isFalse (by simp [hs])

end

instance : DecidableEq Json := decEq

mutual

/-- Every text and member name passes the test. -/
def allTexts (ok : String → Bool) : Json → Bool
  | .str s => ok s
  | .arr items => allTextsItems ok items
  | .obj members => allTextsMembers ok members
  | _ => true

def allTextsItems (ok : String → Bool) : List Json → Bool
  | [] => true
  | v :: vs => allTexts ok v && allTextsItems ok vs

def allTextsMembers (ok : String → Bool) : List (String × Json) → Bool
  | [] => true
  | (name, v) :: vs => ok name && allTexts ok v && allTextsMembers ok vs

end

/-- `Value::get`: `none` on what is not an object. -/
def get (v : Json) (name : String) : Option Json :=
  match v with
  | obj members => Entries.get name members
  | _ => none

def asObject : Json → Option (List (String × Json))
  | obj members => some members
  | _ => none

def asArray : Json → Option (List Json)
  | arr items => some items
  | _ => none

def asStr : Json → Option String
  | str s => some s
  | _ => none

/-- The tag and payload of an object with exactly one member. -/
def singleTagged : Json → Option (String × Json)
  | obj [(tag, inner)] => some (tag, inner)
  | _ => none

@[simp] theorem get_obj (members : List (String × Json)) (name : String) :
    (obj members).get name = Entries.get name members := rfl

@[simp] theorem asStr_str (s : String) : (str s).asStr = some s := rfl

example : obj [("a", arr [null, bool true])] ≠ obj [("a", arr [null, bool false])] := by decide

end Json

end Rektifier
