import Rektifier.EvalCondition
import Rektifier.Pg

namespace Rektifier

open ThreeValued List

variable {item : Item} {c : Condition}

/-- The condition as a formula over its leaves. -/
def Condition.skeleton : Condition → Formula Condition
  | .and a b => .conj a.skeleton b.skeleton
  | .or a b => .disj a.skeleton b.skeleton
  | .not a => .neg a.skeleton
  | leaf => .atom leaf

def operandAttr (item : Item) : Operand → Option AttributeValue
  | .path p => p.topName.bind item.get
  | .value v => some v

/-- A comparison with a missing operand, or an ordering of different types. -/
def readsUnknown (item : Item) : Condition → Bool
  | .compare op left right => match op with
    | .eq | .ne => (operandAttr item left).isNone || (operandAttr item right).isNone
    | .lt | .le | .gt | .ge => (operandAttr item left).map AttributeValue.typeName
        ≠ (operandAttr item right).map AttributeValue.typeName
  | _ => false

/-- The evaluator with the unknown comparisons under an odd number of NOTs read as true. -/
def evaluateUnknownAsTrueUnderNot (item : Item) (c : Condition) : Bool :=
  c.skeleton.polar (fun pos leaf =>
    evaluateCondition (some (Item.toValue item)) leaf || (!pos && readsUnknown item leaf)) true

/-- The evaluator orders only `N` with `N` and `S` with `S`. -/
def f64Order : AttributeValue → AttributeValue → Option Ordering
  | .n a, .n b => (Binary64.parse a).bind fun x => (Binary64.parse b).bind x.partialCmp
  | .s a, .s b => some (compare a b)
  | _, _ => none

/-- The same, with numbers as PostgreSQL's `numeric`. -/
def exactOrder : AttributeValue → AttributeValue → Option Ordering
  | .n a, .n b => (Numeric.parse a).bind fun d => (Numeric.parse b).map fun e =>
      compare d.value e.value
  | .s a, .s b => some (compare a b)
  | _, _ => none

def compareExact (item : Item) (op : ComparisonOp) (left right : Operand) : Bool :=
  match operandAttr item left, operandAttr item right with
  | some a, some b => applyOrd op (exactOrder a b)
  | _, _ => false

/-- The evaluator on a leaf, with numbers compared exactly. -/
def exactLeaf (item : Item) : Condition → Bool
  | .compare op left right => match op with
    | .eq | .ne => evaluateCondition (some (Item.toValue item)) (.compare op left right)
    | .lt | .le | .gt | .ge => compareExact item op left right
  | leaf => evaluateCondition (some (Item.toValue item)) leaf

/-- SQL's reading: exact numbers, and unknown comparisons never help. -/
def sqlReading (item : Item) (c : Condition) : Bool :=
  c.skeleton.polar (fun pos leaf => exactLeaf item leaf || (!pos && readsUnknown item leaf)) true

def leafTruth (item : Item) (c : Condition) : Truth :=
  if readsUnknown item c then none else some (exactLeaf item c)

def storedNumerals (item : Item) (p : Path) : List String :=
  match p.topName.bind item.get with
  | some (.n t) => [t]
  | _ => []

/-- The numerals an ordering against an `N` literal casts. -/
def orderingNumerals (item : Item) : Operand → Operand → List String
  | .path p, .value (.n s) => s :: storedNumerals item p
  | .value (.n s), .path p => s :: storedNumerals item p
  | _, _ => []

def Condition.numerals (item : Item) : Condition → List String
  | .compare op left right => match op with
    | .eq | .ne => []
    | .lt | .le | .gt | .ge => orderingNumerals item left right
  | .and a b => a.numerals item ++ b.numerals item
  | .or a b => a.numerals item ++ b.numerals item
  | .not a => a.numerals item
  | _ => []

/-- PostgreSQL casts it and `f64` holds it without rounding. -/
def ExactNumeral (s : String) : Prop :=
  ∃ d, Numeric.parse s = some (.finite d) ∧ Decimal.parse s = some d ∧ Binary64.Exact d.value

def ExactItem (item : Item) : Prop := ∀ name s, item.get name = some (.n s) → ExactNumeral s

def ExactOperand (o : Operand) : Prop := ∀ s, o = .value (.n s) → ExactNumeral s

def Condition.Exact : Condition → Prop
  | .compare _ left right => ExactOperand left ∧ ExactOperand right
  | .and a b => a.Exact ∧ b.Exact
  | .or a b => a.Exact ∧ b.Exact
  | .not a => a.Exact
  | _ => True

theorem conditionOperandValue_item (item : Item) (o : Operand) :
    conditionOperandValue (some (Item.toValue item)) o
      = (operandAttr item o).map AttributeValue.toValue := by
  cases o with
  | path p =>
    rcases hp : p.topName with _ | n
    · simp [conditionOperandValue, operandAttr, hp]
    · simp [conditionOperandValue, operandAttr, hp]
  | value v => rfl

theorem applyOrd_none (op : ComparisonOp) : applyOrd op none = false := by
  cases op <;> rfl

theorem compareOrdering_toValue (op : ComparisonOp) (a b : AttributeValue) :
    compareOrdering op a.toValue b.toValue = applyOrd op (f64Order a b) := by
  by_cases ht : a.typeName = b.typeName
  · cases a <;> cases b <;>
      simp_all [compareOrdering, f64Order, AttributeValue.typeName, AttributeValue.payload,
        applyOrd_none]
    next a b =>
      rcases Binary64.parse a with _ | x <;> rcases Binary64.parse b with _ | y <;>
        simp [applyOrd_none]
  · have : f64Order a b = none := by
      cases a <;> cases b <;> simp_all [f64Order, AttributeValue.typeName]
    simp [compareOrdering, ht, this, applyOrd_none]

theorem evaluateCondition_ordering {op : ComparisonOp} (hop : op ∉ [ComparisonOp.eq, .ne])
    (item : Item) (left right : Operand) :
    evaluateCondition (some (Item.toValue item)) (.compare op left right) =
      match operandAttr item left, operandAttr item right with
      | some a, some b => applyOrd op (f64Order a b)
      | _, _ => false := by
  simp only [evaluateCondition, evalCompare, conditionOperandValue_item]
  rcases operandAttr item left with _ | a <;> rcases operandAttr item right with _ | b <;> try rfl
  simp only [Option.map_some]
  rw [← compareOrdering_toValue]
  cases op <;> simp_all [compareValues]

theorem exactOrder_n {a b : String} {d e : Numeric} (ha : Numeric.parse a = some d)
    (hb : Numeric.parse b = some e) :
    exactOrder (.n a) (.n b) = some (compare d.value e.value) := by
  simp [exactOrder, ha, hb]

theorem exactOrder_swap (a b : AttributeValue) :
    exactOrder b a = (exactOrder a b).map Ordering.swap := by
  cases a <;> cases b <;> try rfl
  case s.s a b =>
    have hs : compare b a = (compare a b).swap := Std.OrientedCmp.eq_swap
    simp [exactOrder, hs]
  case n.n a b =>
    rcases ha : Numeric.parse a with _ | d <;> rcases hb : Numeric.parse b with _ | e <;>
      simp [exactOrder, ha, hb]
    exact Std.OrientedCmp.eq_swap

theorem f64Order_eq_exactOrder {a b : AttributeValue} (ha : ∀ s, a = .n s → ExactNumeral s)
    (hb : ∀ s, b = .n s → ExactNumeral s) : f64Order a b = exactOrder a b := by
  cases a <;> cases b <;> try rfl
  case n.n a b =>
    obtain ⟨d, hcast, hd, hde⟩ := ha _ rfl
    obtain ⟨e, hcast', he, hee⟩ := hb _ rfl
    rw [exactOrder_n hcast hcast', Numeric.value, Numeric.value, Numeric.compare_ofRat]
    simp only [f64Order, Binary64.parse_of_decimal hd, Binary64.parse_of_decimal he,
      Option.bind_some]
    rw [hde, hee, Binary64.partialCmp_finite]

theorem exactOrder_of_typeName_ne {a b : AttributeValue} (h : a.typeName ≠ b.typeName) :
    exactOrder a b = none := by
  cases a <;> cases b <;> simp_all [exactOrder, AttributeValue.typeName]

/-- An unknown comparison is false, with exact numbers too. -/
theorem exactLeaf_of_readsUnknown (h : readsUnknown item c) :
    exactLeaf item c = false := by
  cases c with
  | compare op left right =>
    have hord : (operandAttr item left).map AttributeValue.typeName
          ≠ (operandAttr item right).map AttributeValue.typeName →
        ∀ op, compareExact item op left right = false := by
      intro hne op
      unfold compareExact
      split
      next a b ha hb =>
        have : a.typeName ≠ b.typeName := by simpa [ha, hb] using hne
        rw [exactOrder_of_typeName_ne this, applyOrd_none]
      next => rfl
    have heq : (operandAttr item left).isNone || (operandAttr item right).isNone →
        ∀ op, evaluateCondition (some (Item.toValue item)) (.compare op left right) = false := by
      intro hnone op
      simp only [evaluateCondition, evalCompare, conditionOperandValue_item]
      rcases hl : operandAttr item left with _ | a <;> rcases hr : operandAttr item right with _ | b
        <;> simp_all
    cases op with
    | eq | ne => exact heq h _
    | _ => exact hord (by simpa [readsUnknown] using h) _
  | _ => simp [readsUnknown] at h

theorem kleene_leafTruth_iff (item : Item) (c : Condition) :
    c.skeleton.kleene (leafTruth item) = some true ↔ sqlReading item c := by
  rw [(Formula.kleene_iff_polar _ _).1, sqlReading]
  have hv : strict (leafTruth item) = fun pos leaf =>
      exactLeaf item leaf || (!pos && readsUnknown item leaf) := by
    funext pos leaf
    unfold strict leafTruth
    by_cases h : readsUnknown item leaf
    · simp [h, exactLeaf_of_readsUnknown h]
    · simp [h]
  rw [hv]

theorem operandAttr_exact {o : Operand} (hitem : ExactItem item)
    (ho : ExactOperand o) {v : AttributeValue} (h : operandAttr item o = some v) :
    ∀ s, v = .n s → ExactNumeral s := by
  rintro s rfl
  cases o with
  | path p =>
    obtain ⟨n, _, hn⟩ := Option.bind_eq_some_iff.mp h
    exact hitem n s hn
  | value v => exact ho s (by cases h; rfl)

/-- On exact numerals `f64` comparison is exact. -/
theorem exactLeaf_of_exact (hitem : ExactItem item) (hc : c.Exact) :
    exactLeaf item c = evaluateCondition (some (Item.toValue item)) c := by
  cases c with
  | compare op left right =>
    have hord : ∀ op, op ∉ [ComparisonOp.eq, .ne] → compareExact item op left right
        = evaluateCondition (some (Item.toValue item)) (.compare op left right) := by
      intro op hop
      rw [evaluateCondition_ordering hop, compareExact]
      rcases hl : operandAttr item left with _ | a <;>
        rcases hr : operandAttr item right with _ | b <;> try rfl
      simp only [f64Order_eq_exactOrder (operandAttr_exact hitem hc.1 hl)
        (operandAttr_exact hitem hc.2 hr)]
    cases op with
    | eq | ne => rfl
    | _ => exact hord _ (by decide)
  | _ => rfl

theorem Condition.Exact.atoms (h : c.Exact) :
    ∀ leaf ∈ c.skeleton.atoms, leaf.Exact := by
  induction c with
  | and a b iha ihb | or a b iha ihb =>
    intro leaf hl
    rcases mem_append.mp hl with hl | hl
    · exact iha h.1 leaf hl
    · exact ihb h.2 leaf hl
  | not a ih => exact ih h
  | _ =>
    intro leaf hl
    rw [mem_singleton.mp hl]
    exact h

theorem sqlReading_of_exact (hitem : ExactItem item) (hc : c.Exact) :
    sqlReading item c = evaluateUnknownAsTrueUnderNot item c := by
  apply Formula.polar_congr
  intro leaf hleaf pos
  rw [exactLeaf_of_exact hitem (hc.atoms leaf hleaf)]

theorem isNumeral_of_exact {s : String} (h : ExactNumeral s) : isNumeral s := by
  obtain ⟨d, hd, _⟩ := h
  rw [isNumeral, hd]
  rfl

theorem orderingNumerals_exact {left right : Operand} (hitem : ExactItem item)
    (hl : ExactOperand left) (hr : ExactOperand right) :
    ∀ s ∈ orderingNumerals item left right, ExactNumeral s := by
  have hstored : ∀ p, ∀ s ∈ storedNumerals item p, ExactNumeral s := by
    intro p s hs
    unfold storedNumerals at hs
    split at hs
    next t ht =>
      obtain ⟨n, _, hn⟩ := Option.bind_eq_some_iff.mp ht
      rw [mem_singleton.mp hs]
      exact hitem n t hn
    next => simp at hs
  intro s hs
  unfold orderingNumerals at hs
  split at hs
  next p t =>
    rcases mem_cons.mp hs with rfl | hs
    · exact hr _ rfl
    · exact hstored p s hs
  next t p =>
    rcases mem_cons.mp hs with rfl | hs
    · exact hl _ rfl
    · exact hstored p s hs
  next => simp at hs

theorem numerals_of_exact (hitem : ExactItem item) (hc : c.Exact) :
    (c.numerals item).all isNumeral := by
  induction c with
  | compare op left right =>
    have h := orderingNumerals_exact hitem hc.1 hc.2
    cases op with
    | eq | ne => rfl
    | _ => exact all_eq_true.mpr fun s hs => isNumeral_of_exact (h s hs)
  | and a b iha ihb | or a b iha ihb =>
    simp only [Condition.numerals, all_append, iha hc.1, ihb hc.2, Bool.and_self]
  | not a ih => exact ih hc
  | _ => rfl

theorem exactNumeral_of_int {s : String} {n : ℤ} (hcast : Numeric.parse s = some (.finite ⟨n, 0⟩))
    (h : Decimal.parse s = some ⟨n, 0⟩) (hn : |n| < 2 ^ 53) : ExactNumeral s := by
  refine ⟨_, hcast, h, ?_⟩
  have hv : (⟨n, 0⟩ : Decimal).value = n := by simp [Decimal.value]
  rw [hv]
  exact Binary64.exact_of_abs_lt hn

theorem exactItem_of_entries
    (h : ∀ e ∈ item.entries, ∀ s, e.2 = .n s → ExactNumeral s) : ExactItem item :=
  fun name s hs => h (name, .n s) (Entries.get_eq_some_mem hs) s rfl

end Rektifier
