import Rektifier.KeyOrder

namespace Rektifier

open Fallible List

variable {schema : TableSchema} {cond : Condition} {bounds : QueryKeyBounds} {item : Item}
  {p : Path} {flag : Bool} {c : SkCondition} {attr : String} {v : KeyValue}

/-- An accepted expression: its terms, their attributes and bounds. -/
inductive KeyExpression (schema : TableSchema) : Condition → QueryKeyBounds → Prop
  | hash {cond : Condition} {p : Path} {flag : Bool} {pk : KeyValue} :
      KeyTerm cond p flag (.eq pk) → p.topName = some schema.pkAttr → pk.keyType = schema.pkType →
      KeyExpression schema cond ⟨pk, none⟩
  | ranged {a b : Condition} {p q : Path} {flag flag' : Bool} {pk : KeyValue} {c : SkCondition}
      {skAttr : String} {skType : KeyType} :
      KeyTerm a p flag (.eq pk) → p.topName = some schema.pkAttr → pk.keyType = schema.pkType →
      schema.sk = some (skAttr, skType) →
      KeyTerm b q flag' c → q.topName = some skAttr → c.Typed skType →
      KeyExpression schema (.and a b) ⟨pk, some c⟩

theorem extractKeyCondition_ok (h : extractKeyCondition cond schema = .ok bounds) :
    KeyExpression schema cond bounds := by
  unfold extractKeyCondition at h
  split at h
  · obtain ⟨pk, hpk, h⟩ := bind_ok h
    obtain ⟨sk, hsk, h⟩ := bind_ok h
    cases h
    obtain ⟨p, flag, hterm, hname, htype⟩ := matchPkEquality_ok hpk
    unfold matchSkPredicate at hsk
    split at hsk
    · rename_i skAttr skType hschema
      obtain ⟨q, flag', hterm', hname', htyped⟩ := matchSkTerm_ok hsk
      exact .ranged hterm hname htype hschema hterm' hname' htyped
    · cases hsk
  · obtain ⟨pk, hpk, h⟩ := bind_ok h
    cases h
    obtain ⟨p, flag, hterm, hname, htype⟩ := matchPkEquality_ok hpk
    exact .hash hterm hname htype

def SkCondition.flip : SkCondition → SkCondition
  | .lt w => .gt w
  | .le w => .ge w
  | .gt w => .lt w
  | .ge w => .le w
  | c => c

@[simp] theorem asKey_kvToAv (v : KeyValue) : (kvToAv v).asKey = some v := by
  cases v <;> rfl

theorem resolve_attr (item : Item) (attr : String) :
    (Path.attr attr).resolve item = item.get attr := by
  rcases hget : item.get attr with _ | v
  · simp [Path.resolve, Path.attr, hget]
  · simp [Path.resolve, Path.attr, hget, AttributeValue.descend]

theorem resolve_nested (hname : p.topName = some attr) (hnested : p.isTopLevel = false)
    (hget : item.get attr = some (kvToAv v)) : p.resolve item = none := by
  obtain ⟨segments⟩ := p
  rcases segments with _ | ⟨_ | i, rest⟩
  · cases hname
  · cases hname
    rcases rest with _ | ⟨seg, rest⟩
    · cases hnested
    · simp only [Path.resolve, hget, Option.bind_some]
      cases v <;> cases seg <;> rfl
  · cases hname

theorem skComparison_admits {op : ComparisonOp} {w : KeyValue} (h : skComparison op w = .ok c)
    (v : KeyValue) : c.admits v = op.meets (keyOrder v w) ∧
      c.flip.admits v = op.flip.meets (keyOrder v w) := by
  cases op <;> cases h <;> exact ⟨rfl, rfl⟩

/-- A term over a bare name says what its bound says, turned round where the value stands on the
left. -/
theorem KeyTerm.holdsOn_attr (h : KeyTerm cond (.attr attr) flag c)
    (hget : item.get attr = some (kvToAv v)) :
    cond.holdsOn item = if flag then c.flip.admits v else c.admits v := by
  have hresolve : (Path.attr attr).resolve item = some (kvToAv v) := by rw [resolve_attr, hget]
  cases h with
  | pathLeft hbound =>
    rw [(skComparison_admits hbound v).1]
    simp [Condition.holdsOn, comparesTo, Operand.resolve, hresolve, compareExactly]
  | valueLeft hbound =>
    rw [(skComparison_admits hbound v).2, ← meets_swap, ← keyOrder_swap]
    simp [Condition.holdsOn, comparesTo, Operand.resolve, hresolve, compareExactly]
  | between =>
    simp [Condition.holdsOn, comparesTo, Operand.resolve, hresolve, compareExactly,
      SkCondition.admits]
  | beginsWith =>
    simp [Condition.holdsOn, Operand.resolve, hresolve, SkCondition.admits]

theorem KeyTerm.holdsOn_nested (h : KeyTerm cond p flag c) (hname : p.topName = some attr)
    (hnested : p.isTopLevel = false) (hget : item.get attr = some (kvToAv v)) :
    cond.holdsOn item = false := by
  have hresolve := resolve_nested hname hnested hget
  cases h <;> simp [Condition.holdsOn, comparesTo, Operand.resolve, hresolve]

def Operand.literal : Operand → List AttributeValue
  | .value v => [v]
  | .path _ => []

def Condition.literals : Condition → List AttributeValue
  | .compare _ left right => left.literal ++ right.literal
  | .between _ lo hi => lo.literal ++ hi.literal
  | .beginsWith _ o => o.literal
  | .and a b => a.literals ++ b.literals
  | _ => []

/-- Every number compared with is a numeral. -/
def Condition.NumeralLiterals (cond : Condition) : Prop :=
  ∀ s, AttributeValue.n s ∈ cond.literals → (Decimal.parse s).isSome = true

def Condition.pathsOnLeft : Condition → Bool
  | .compare op (.value _) _ => op = .eq || op = .ne
  | .and a b => a.pathsOnLeft && b.pathsOnLeft
  | _ => true

/-- Below the empty text or binary, or bounds the wrong way round. -/
def Condition.emptyRange : Condition → Bool
  | .compare .lt (.path _) (.value w) | .compare .lt (.value w) (.path _) => w.isLeast
  | .between _ (.value lo) (.value hi) => compareExactly .gt lo hi
  | .and _ b => b.emptyRange
  | _ => false

namespace SkCondition

def hasOrder : SkCondition → Bool
  | .eq w | .lt w | .le w | .gt w | .ge w => w.hasOrder
  | .between lo hi => lo.hasOrder && hi.hasOrder
  | .beginsWithS _ => true

def emptyRange : SkCondition → Bool
  | .lt w => (kvToAv w).isLeast
  | .between lo hi => ComparisonOp.gt.meets (keyOrder lo hi)
  | _ => false

/-- A number that is no numeral admits nothing, turned round or not. -/
theorem admits_of_not_hasOrder (h : c.hasOrder = false) (v : KeyValue) :
    c.admits v = false ∧ c.flip.admits v = false := by
  cases c with
  | between lo hi =>
    have hnone : keyOrder v lo = none ∨ keyOrder v hi = none := by
      rcases Bool.and_eq_false_iff.mp h with hlo | hhi
      · exact .inl (keyOrder_of_not_hasOrder hlo v)
      · exact .inr (keyOrder_of_not_hasOrder hhi v)
    rcases hnone with hnone | hnone <;> simp [admits, flip, hnone]
  | beginsWithS start => cases h
  | _ w => simp [admits, flip, keyOrder_of_not_hasOrder h v]

theorem admits_of_emptyRange (h : c.emptyRange) (v : KeyValue) : c.admits v = false := by
  cases c with
  | lt w =>
    have hne := not_lt_of_isLeast h v
    rcases hord : keyOrder v w with _ | ord
    · simp [admits, hord]
    · cases ord
      · exact absurd hord hne
      · simp [admits, hord, ComparisonOp.meets]
      · simp [admits, hord, ComparisonOp.meets]
  | between lo hi =>
    have hgt : keyOrder lo hi = some .gt := by
      rcases hord : keyOrder lo hi with _ | ord
      · simp [emptyRange, hord] at h
      · cases ord <;> simp_all [emptyRange, ComparisonOp.meets]
    rcases hge : ComparisonOp.ge.meets (keyOrder v lo) with _ | _
    · simp [admits, hge]
    · simp [admits, hge, not_between_of_gt hgt hge]
  | _ => cases h

theorem exists_admitted {t : KeyType} (htyped : c.Typed t) (horder : c.hasOrder)
    (hrange : c.emptyRange = false) : ∃ v : KeyValue, v.keyType = t ∧ c.admits v := by
  cases c with
  | lt w =>
    obtain ⟨v, hv, hlt⟩ := exists_key_lt horder hrange
    exact ⟨v, hv.trans htyped, by simp [admits, hlt, ComparisonOp.meets]⟩
  | gt w =>
    obtain ⟨v, hv, _, hgt⟩ := exists_key_gt horder
    exact ⟨v, hv.trans htyped, by simp [admits, hgt, ComparisonOp.meets]⟩
  | eq w | le w | ge w =>
    exact ⟨w, htyped, by simp [admits, keyOrder_self horder, ComparisonOp.meets]⟩
  | between lo hi =>
    obtain ⟨hlo, hhi⟩ : lo.hasOrder ∧ hi.hasOrder := by
      simpa [hasOrder] using horder
    obtain ⟨ord, hord⟩ := keyOrder_isSome (htyped.1.trans htyped.2.symm) hlo hhi
    refine ⟨lo, htyped.1, ?_⟩
    cases ord <;> simp_all [admits, keyOrder_self, emptyRange, ComparisonOp.meets]
  | beginsWithS start =>
    refine ⟨.s start, htyped.symm, ?_⟩
    simp [admits, kvToAv, textBeginsWith, isPrefixOf_iff_prefix]

end SkCondition

theorem hasOrder_iff (w : KeyValue) : w.hasOrder ↔
    ∀ s, AttributeValue.n s = kvToAv w → (Decimal.parse s).isSome := by
  cases w <;> simp [KeyValue.hasOrder, kvToAv]

theorem skComparison_hasOrder {op : ComparisonOp} {w : KeyValue} (h : skComparison op w = .ok c) :
    c.hasOrder = w.hasOrder := by
  cases op <;> cases h <;> rfl

theorem KeyTerm.numeralLiterals_iff (h : KeyTerm cond p flag c) :
    cond.NumeralLiterals ↔ c.hasOrder := by
  cases h with
  | pathLeft hbound | valueLeft hbound =>
    rw [skComparison_hasOrder hbound, hasOrder_iff]
    simp [Condition.NumeralLiterals, Condition.literals, Operand.literal]
  | between =>
    simp only [SkCondition.hasOrder, Bool.and_eq_true, hasOrder_iff, Condition.NumeralLiterals,
      Condition.literals, Operand.literal, mem_append, mem_singleton]
    constructor
    · exact fun hall => ⟨fun s hs => hall s (.inl hs), fun s hs => hall s (.inr hs)⟩
    · rintro ⟨hlo, hhi⟩ s (hs | hs)
      · exact hlo s hs
      · exact hhi s hs
  | beginsWith => simp [Condition.NumeralLiterals, Condition.literals, Operand.literal,
      SkCondition.hasOrder]

theorem checkConditionPath_ok_iff : checkConditionPath p = .ok () ↔ p.isTopLevel := by
  unfold checkConditionPath
  split <;> simp_all

theorem KeyTerm.pathsTopLevel_iff (h : KeyTerm cond p flag c) :
    checkConditionPathsTopLevel cond = .ok () ↔ p.isTopLevel := by
  rw [← checkConditionPath_ok_iff]
  cases h <;> simp [checkConditionPathsTopLevel, checkConditionOperand, bind, Except.bind]
  all_goals split <;> simp_all

theorem KeyTerm.pathsOnLeft_iff (h : KeyTerm cond p flag c) :
    cond.pathsOnLeft ↔ flag = false ∨ c.flip = c := by
  cases h with
  | @valueLeft op _ w _ hbound =>
    cases op <;> cases hbound <;> simp [Condition.pathsOnLeft, SkCondition.flip]
  | _ => simp [Condition.pathsOnLeft]

theorem KeyTerm.emptyRange_eq (h : KeyTerm cond p flag c) : cond.emptyRange = c.emptyRange := by
  cases h with
  | @pathLeft op _ w _ hbound | @valueLeft op _ w _ hbound =>
    cases op <;> cases hbound <;> rfl
  | between => simp [Condition.emptyRange, compareExactly, SkCondition.emptyRange]
  | beginsWith => rfl

theorem extractKey_ok_iff {t : KeyType} {role : KeyRole} :
    extractKey item attr t role = .ok v ↔ item.get attr = some (kvToAv v) ∧ v.keyType = t := by
  unfold extractKey
  rcases hget : item.get attr with _ | av
  · simp
  · cases t <;> cases av <;> cases v <;> simp [kvToAv, KeyValue.keyType]

theorem extractKeyPair_ok_iff {key : KeyValue × Option KeyValue} :
    extractKeyPair item schema = .ok key ↔
      (item.get schema.pkAttr = some (kvToAv key.1) ∧ key.1.keyType = schema.pkType) ∧
      key.2.map KeyValue.keyType = schema.sk.map Prod.snd ∧
      ∀ sk ∈ schema.sk, item.get sk.1 = key.2.map kvToAv := by
  obtain ⟨pk, sk⟩ := key
  unfold extractKeyPair
  rw [bind_ok_iff]
  rcases hschema : schema.sk with _ | ⟨skAttr, skType⟩
  · rcases sk with _ | sk <;> simp [extractKey_ok_iff, pure, Except.pure]
  · simp only [bind_ok_iff, extractKey_ok_iff, pure, Except.pure, Except.ok.injEq,
      Prod.mk.injEq]
    rcases sk with _ | sk
    · simp
    · constructor
      · rintro ⟨_, hpk, _, ⟨hsk, htype⟩, rfl, heq⟩
        cases heq
        exact ⟨hpk, by simp [htype], by simp [hsk]⟩
      · rintro ⟨hpk, htype, hsk⟩
        exact ⟨pk, hpk, sk, ⟨by simpa using hsk, by simpa using htype⟩, rfl, rfl⟩

/-- The bounds mean what the expression says, on every item with a typed key. -/
def KeyConditionAgrees (schema : TableSchema) (cond : Condition) (bounds : QueryKeyBounds) : Prop :=
  ∀ item key, extractKeyPair item schema = .ok key → bounds.admits key = cond.holdsOn item

/-- Bare names, on the left of every ordering; or numbers that are none, or a range no value lies
in, where both sides are false. -/
def Condition.ReadsAsWritten (cond : Condition) : Prop :=
  (checkConditionPathsTopLevel cond = .ok () ∧ cond.pathsOnLeft = true) ∨
  ¬ cond.NumeralLiterals ∨
  (checkConditionPathsTopLevel cond ≠ .ok () ∧ cond.emptyRange = true)

/-- A term as an item with a typed value sees it. -/
theorem KeyTerm.holdsOn_cases (h : KeyTerm cond p flag c) (hname : p.topName = some attr)
    (hget : item.get attr = some (kvToAv v)) :
    (p.isTopLevel = false ∧ cond.holdsOn item = false) ∨
    (p.isTopLevel = true ∧ cond.holdsOn item = if flag then c.flip.admits v else c.admits v) := by
  rcases htop : p.isTopLevel with _ | _
  · exact .inl ⟨rfl, h.holdsOn_nested hname htop hget⟩
  · obtain ⟨n, rfl⟩ := Path.eq_attr_of_isTopLevel htop
    cases hname
    exact .inr ⟨rfl, h.holdsOn_attr hget⟩

theorem KeyTerm.agrees (h : KeyTerm cond p flag c) (hname : p.topName = some attr)
    (hget : item.get attr = some (kvToAv v)) (htop : p.isTopLevel)
    (hleft : cond.pathsOnLeft) : c.admits v = cond.holdsOn item := by
  rcases h.holdsOn_cases hname hget with ⟨hnested, _⟩ | ⟨_, hholds⟩
  · rw [htop] at hnested
    cases hnested
  · rw [hholds]
    rcases h.pathsOnLeft_iff.mp hleft with rfl | hflip
    · rfl
    · rw [hflip, ite_self]

theorem KeyTerm.false_of_not_numeral (h : KeyTerm cond p flag c) (hname : p.topName = some attr)
    (hget : item.get attr = some (kvToAv v)) (hnum : ¬ cond.NumeralLiterals) :
    c.admits v = false ∧ cond.holdsOn item = false := by
  have horder : c.hasOrder = false := by
    rw [h.numeralLiterals_iff] at hnum
    simpa using hnum
  obtain ⟨hadmits, hflip⟩ := SkCondition.admits_of_not_hasOrder horder v
  refine ⟨hadmits, ?_⟩
  rcases h.holdsOn_cases hname hget with ⟨_, hholds⟩ | ⟨_, hholds⟩
  · exact hholds
  · rw [hholds, hadmits, hflip, ite_self]

theorem numeralLiterals_and (a b : Condition) :
    (Condition.and a b).NumeralLiterals ↔ a.NumeralLiterals ∧ b.NumeralLiterals := by
  simp only [Condition.NumeralLiterals, Condition.literals, mem_append]
  constructor
  · exact fun h => ⟨fun s hs => h s (.inl hs), fun s hs => h s (.inr hs)⟩
  · rintro ⟨ha, hb⟩ s (hs | hs)
    · exact ha s hs
    · exact hb s hs

theorem pathsTopLevel_and (a b : Condition) : checkConditionPathsTopLevel (.and a b) = .ok () ↔
    checkConditionPathsTopLevel a = .ok () ∧ checkConditionPathsTopLevel b = .ok () := by
  rw [checkConditionPathsTopLevel, bind_ok_iff]
  exact ⟨fun ⟨_, ha, hb⟩ => ⟨ha, hb⟩, fun ⟨ha, hb⟩ => ⟨(), ha, hb⟩⟩

end Rektifier
