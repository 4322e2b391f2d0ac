import Rektifier.KeyCondition
import Rektifier.Decimal
import Rektifier.Fallible
import Mathlib.Data.List.Lex

namespace Rektifier

open Fallible

variable {attr : String}

def byteOrder (a b : List UInt8) : Ordering :=
  @compare (List Nat) LinearOrder.toOrd (a.map UInt8.toNat) (b.map UInt8.toNat)

/-- Texts by code point, which is the order of their UTF-8, numbers by value, binaries by byte. -/
def keyOrder : KeyValue → KeyValue → Option Ordering
  | .s a, .s b => some (compare a b)
  | .n a, .n b => (Decimal.parse a).bind fun d => (Decimal.parse b).map fun e =>
      compare d.value e.value
  | .b a, .b b => some (byteOrder a b)
  | _, _ => none

/-- Nothing holds of values without an ordering. -/
def ComparisonOp.meets (op : ComparisonOp) (ord : Option Ordering) : Bool :=
  match op, ord with
  | .eq, some .eq => true
  | .ne, some .lt | .ne, some .gt => true
  | .lt, some .lt => true
  | .le, some .lt | .le, some .eq => true
  | .gt, some .gt => true
  | .ge, some .gt | .ge, some .eq => true
  | _, _ => false

def AttributeValue.asKey : AttributeValue → Option KeyValue
  | .s v => some (.s v)
  | .n v => some (.n v)
  | .b v => some (.b v)
  | _ => none

def compareExactly (op : ComparisonOp) (a b : AttributeValue) : Bool :=
  match a.asKey, b.asKey with
  | some x, some y => op.meets (keyOrder x y)
  | _, _ => false

def AttributeValue.descend : List PathSegment → AttributeValue → Option AttributeValue
  | [], v => some v
  | .name member :: rest, .m members => (members.lookup member).bind (descend rest)
  | .index i :: rest, .l items => (items[i]?).bind (descend rest)
  | _ :: _, _ => none

/-- The element a path denotes, down to its last segment. -/
def Path.resolve (item : Item) (p : Path) : Option AttributeValue :=
  match p.segments with
  | .name n :: rest => (item.get n).bind (AttributeValue.descend rest)
  | _ => none

def Operand.resolve (item : Item) : Operand → Option AttributeValue
  | .path p => p.resolve item
  | .value v => some v

def comparesTo (item : Item) (op : ComparisonOp) (left right : Operand) : Bool :=
  match left.resolve item, right.resolve item with
  | some a, some b => compareExactly op a b
  | _, _ => false

def textBeginsWith : AttributeValue → AttributeValue → Bool
  | .s text, .s start => start.toList.isPrefixOf text.toList
  | _, _ => false

/-- A part of a text, or an element of a set or list. -/
def valueContains : AttributeValue → AttributeValue → Bool
  | .s text, .s part => decide (part.toList <:+: text.toList)
  | .ss elems, .s v => v ∈ elems
  | .ns elems, v => elems.any fun e => compareExactly .eq (.n e) v
  | .bs elems, .b v => v ∈ elems
  | .l elems, v => elems.any fun e => compareExactly .eq e v
  | _, _ => false

/-- Operands compared as they stand, paths followed to their end. -/
def Condition.holdsOn (item : Item) : Condition → Bool
  | .compare op left right => comparesTo item op left right
  | .attributeExists p => (p.resolve item).isSome
  | .attributeNotExists p => (p.resolve item).isNone
  | .beginsWith p o => (p.resolve item).any fun v => (o.resolve item).any (textBeginsWith v)
  | .contains p o => (p.resolve item).any fun v => (o.resolve item).any (valueContains v)
  | .between v lo hi => comparesTo item .ge v lo && comparesTo item .le v hi
  | .isIn v items => items.any (comparesTo item .eq v)
  | .attributeType p o => (p.resolve item).any fun v => (o.resolve item).any fun t =>
      textBeginsWith t (.s v.typeName) && textBeginsWith (.s v.typeName) t
  | .and a b => a.holdsOn item && b.holdsOn item
  | .or a b => a.holdsOn item || b.holdsOn item
  | .not inner => !inner.holdsOn item

def SkCondition.admits (v : KeyValue) : SkCondition → Bool
  | .eq w => ComparisonOp.eq.meets (keyOrder v w)
  | .lt w => ComparisonOp.lt.meets (keyOrder v w)
  | .le w => ComparisonOp.le.meets (keyOrder v w)
  | .gt w => ComparisonOp.gt.meets (keyOrder v w)
  | .ge w => ComparisonOp.ge.meets (keyOrder v w)
  | .between lo hi =>
    ComparisonOp.ge.meets (keyOrder v lo) && ComparisonOp.le.meets (keyOrder v hi)
  | .beginsWithS start => textBeginsWith (kvToAv v) (.s start)

def QueryKeyBounds.admits (bounds : QueryKeyBounds) (key : KeyValue × Option KeyValue) : Bool :=
  (SkCondition.eq bounds.pk).admits key.1 &&
    bounds.skCondition.all fun c => key.2.any c.admits

/-- A comparison with a key path, a range or a begin, and the bound read off it; the flag: the value
stands on the left. -/
inductive KeyTerm : Condition → Path → Bool → SkCondition → Prop
  | pathLeft {op : ComparisonOp} {p : Path} {v : KeyValue} {c : SkCondition} :
      skComparison op v = .ok c →
      KeyTerm (.compare op (.path p) (.value (kvToAv v))) p false c
  | valueLeft {op : ComparisonOp} {p : Path} {v : KeyValue} {c : SkCondition} :
      skComparison op v = .ok c →
      KeyTerm (.compare op (.value (kvToAv v)) (.path p)) p true c
  | between {p : Path} {lo hi : KeyValue} :
      KeyTerm (.between (.path p) (.value (kvToAv lo)) (.value (kvToAv hi))) p false (.between lo hi)
  | beginsWith {p : Path} {start : String} :
      KeyTerm (.beginsWith p (.value (.s start))) p false (.beginsWithS start)

theorem avToKeyvalue_ok {av : AttributeValue} {t : KeyType} {kv : KeyValue}
    (h : avToKeyvalue av t = .ok kv) : av = kvToAv kv ∧ kv.keyType = t := by
  unfold avToKeyvalue at h
  split at h
  all_goals cases h
  all_goals exact ⟨rfl, rfl⟩

theorem mapError_ok {ε ε' α : Type} {x : Except ε α} {f : ε → ε'} {a : α}
    (h : x.mapError f = .ok a) : x = .ok a := by
  cases x with
  | error e => cases h
  | ok b => exact congrArg _ (Except.ok.inj h)

theorem requireTopName_ok {reason name : String} {p : Path}
    (h : requireTopName reason p = .ok name) : p.topName = some name := by
  unfold requireTopName at h
  split at h
  · rename_i hname
    cases h
    exact hname
  · cases h

theorem pathAndValue_ok {left right : Operand} {av : AttributeValue}
    (h : pathAndValue left right = .ok (attr, av)) : ∃ p : Path, p.topName = some attr ∧
      (left = .path p ∧ right = .value av ∨ left = .value av ∧ right = .path p) := by
  unfold pathAndValue at h
  split at h
  · obtain ⟨name, hname, heq⟩ := map_ok_iff.mp h
    cases heq
    exact ⟨_, requireTopName_ok hname, .inl ⟨rfl, rfl⟩⟩
  · obtain ⟨name, hname, heq⟩ := map_ok_iff.mp h
    cases heq
    exact ⟨_, requireTopName_ok hname, .inr ⟨rfl, rfl⟩⟩
  · cases h
  · cases h

theorem checkPkAttr_ok {schema : TableSchema} {u : Unit}
    (h : checkPkAttr schema attr = .ok u) : attr = schema.pkAttr := by
  unfold checkPkAttr at h
  split at h
  · assumption
  · split at h <;> cases h

theorem checkSkAttr_ok {skAttr : String} {u : Unit} (h : checkSkAttr skAttr attr = .ok u) :
    attr = skAttr := by
  unfold checkSkAttr at h
  split at h
  · assumption
  · cases h

theorem matchPkEquality_ok {cond : Condition} {schema : TableSchema} {pk : KeyValue}
    (h : matchPkEquality cond schema = .ok pk) : ∃ p flag, KeyTerm cond p flag (.eq pk) ∧
      p.topName = some schema.pkAttr ∧ pk.keyType = schema.pkType := by
  unfold matchPkEquality at h
  split at h
  · obtain ⟨⟨attr, av⟩, hoperands, h⟩ := bind_ok h
    obtain ⟨_, hattr, h⟩ := bind_ok h
    obtain ⟨_, hop, h⟩ := bind_ok h
    obtain ⟨rfl, htype⟩ := avToKeyvalue_ok (mapError_ok h)
    obtain ⟨p, hname, hsides⟩ := pathAndValue_ok hoperands
    have heq := checkPkAttr_ok hattr
    rw [heq] at hname
    unfold checkPkOp at hop
    split at hop
    · rename_i hopeq
      rw [hopeq]
      rcases hsides with ⟨rfl, rfl⟩ | ⟨rfl, rfl⟩
      · exact ⟨p, false, .pathLeft rfl, hname, htype⟩
      · exact ⟨p, true, .valueLeft rfl, hname, htype⟩
    · cases hop
  all_goals cases h

def SkCondition.Typed (t : KeyType) : SkCondition → Prop
  | .eq v | .lt v | .le v | .gt v | .ge v => v.keyType = t
  | .between lo hi => lo.keyType = t ∧ hi.keyType = t
  | .beginsWithS _ => t = .s

theorem skComparison_typed {op : ComparisonOp} {v : KeyValue} {c : SkCondition}
    (h : skComparison op v = .ok c) : c.Typed v.keyType := by
  cases op <;> cases h <;> rfl

theorem matchSkTerm_ok {cond : Condition} {skAttr : String} {skType : KeyType} {c : SkCondition}
    (h : matchSkTerm skAttr skType cond = .ok c) : ∃ p flag, KeyTerm cond p flag c ∧
      p.topName = some skAttr ∧ c.Typed skType := by
  unfold matchSkTerm at h
  split at h
  · obtain ⟨⟨attr, av⟩, hoperands, h⟩ := bind_ok h
    obtain ⟨_, hattr, h⟩ := bind_ok h
    obtain ⟨kv, hkv, hbound⟩ := bind_ok h
    obtain ⟨hav, htype⟩ := avToKeyvalue_ok (mapError_ok hkv)
    have htyped := skComparison_typed hbound
    rw [htype] at htyped
    obtain ⟨p, hname, hsides⟩ := pathAndValue_ok hoperands
    rw [checkSkAttr_ok hattr] at hname
    rw [hav] at hsides
    rcases hsides with ⟨rfl, rfl⟩ | ⟨rfl, rfl⟩
    · exact ⟨p, false, .pathLeft hbound, hname, htyped⟩
    · exact ⟨p, true, .valueLeft hbound, hname, htyped⟩
  · rename_i target lo hi
    obtain ⟨attr, hpath, h⟩ := bind_ok h
    obtain ⟨_, hattr, h⟩ := bind_ok h
    obtain ⟨loAv, hlo, h⟩ := bind_ok h
    obtain ⟨hiAv, hhi, h⟩ := bind_ok h
    obtain ⟨loKv, hloKv, h⟩ := bind_ok h
    obtain ⟨hiKv, hhiKv, h⟩ := bind_ok h
    cases h
    obtain ⟨rfl, hloType⟩ := avToKeyvalue_ok (mapError_ok hloKv)
    obtain ⟨rfl, hhiType⟩ := avToKeyvalue_ok (mapError_ok hhiKv)
    rcases target with p | v
    · rcases lo with _ | _ <;> cases hlo
      rcases hi with _ | _ <;> cases hhi
      have hname := requireTopName_ok hpath
      rw [checkSkAttr_ok hattr] at hname
      exact ⟨p, false, .between, hname, hloType, hhiType⟩
    · cases hpath
  · rename_i p operand
    obtain ⟨attr, hpath, h⟩ := bind_ok h
    obtain ⟨_, hattr, h⟩ := bind_ok h
    obtain ⟨_, hstring, h⟩ := bind_ok h
    obtain ⟨av, hav, hbound⟩ := bind_ok h
    have hname := requireTopName_ok hpath
    rw [checkSkAttr_ok hattr] at hname
    have htype : skType = .s := by
      unfold checkStringSk at hstring
      split at hstring
      · assumption
      · cases hstring
    rcases operand with _ | _ <;> cases hav
    unfold beginsWithBound at hbound
    split at hbound <;> cases hbound
    exact ⟨p, false, .beginsWith, hname, htype⟩
  all_goals cases h

end Rektifier
