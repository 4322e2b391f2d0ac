import Rektifier.EvalCondition

namespace Rektifier

variable {existing : Option Json} {left right : Operand} {lv rv : Json}

def holds (existing : Option Json) (op : ComparisonOp) (left right : Operand) : Bool :=
  evaluateCondition existing (.compare op left right)

def ExactlyOne (p q r : Prop) : Prop := (p ∧ ¬q ∧ ¬r) ∨ (¬p ∧ q ∧ ¬r) ∨ (¬p ∧ ¬q ∧ r)

/-- What the comparison operators owe each other. -/
structure ComparisonLaws (existing : Option Json) (left right : Operand) : Prop where
  trichotomy : ExactlyOne (holds existing .lt left right = true)
    (holds existing .eq left right = true) (holds existing .gt left right = true)
  antisymm : holds existing .eq left right = true ↔
    holds existing .le left right = true ∧ holds existing .ge left right = true
  ne : holds existing .ne left right = !holds existing .eq left right

/-- A decimal spelling of an integer that binary64 holds exactly. -/
def SpellsInteger (text : String) (n : ℤ) : Prop :=
  ∃ d, Decimal.parse text = some d ∧ d.value = n ∧ Binary64.Exact (n : ℚ)

/-- Two values of type S, or two integers of type N in any spelling. -/
inductive SameType : Json → Json → Prop
  | text (a b : String) : SameType (AttributeValue.s a).toValue (AttributeValue.s b).toValue
  | number {a b : String} {m n : ℤ} : SpellsInteger a m → SpellsInteger b n →
      SameType (AttributeValue.n a).toValue (AttributeValue.n b).toValue

def NumbersSpelledAlike (lv rv : Json) : Prop :=
  ∀ a b d e, lv = (AttributeValue.n a).toValue → rv = (AttributeValue.n b).toValue →
    Decimal.parse a = some d → Decimal.parse b = some e → d.value = e.value → a = b

theorem holds_eq (hl : conditionOperandValue existing left = some lv)
    (hr : conditionOperandValue existing right = some rv) (op : ComparisonOp) :
    holds existing op left right = compareValues op lv rv := by
  simp only [holds, evaluateCondition, evalCompare, hl, hr]

/-- The laws hold of ordered values exactly when the order calls equal what is equal. -/
theorem comparisonLaws_iff_of_ordering {o : Ordering}
    (hl : conditionOperandValue existing left = some lv)
    (hr : conditionOperandValue existing right = some rv)
    (hord : ∀ op, compareOrdering op lv rv = applyOrd op (some o)) :
    ComparisonLaws existing left right ↔ (lv = rv ↔ o = .eq) := by
  have heq : holds existing .eq left right ↔ lv = rv := by
    rw [holds_eq hl hr]
    exact decide_eq_true_iff
  have hne : holds existing .ne left right = !holds existing .eq left right := by
    rw [holds_eq hl hr, holds_eq hl hr]
    simp [compareValues]
  have hlt : holds existing .lt left right = applyOrd .lt (some o) :=
    (holds_eq hl hr _).trans (hord _)
  have hle : holds existing .le left right = applyOrd .le (some o) :=
    (holds_eq hl hr _).trans (hord _)
  have hgt : holds existing .gt left right = applyOrd .gt (some o) :=
    (holds_eq hl hr _).trans (hord _)
  have hge : holds existing .ge left right = applyOrd .ge (some o) :=
    (holds_eq hl hr _).trans (hord _)
  constructor
  · intro h
    have hanti := h.antisymm
    rw [heq, hle, hge] at hanti
    rw [hanti]
    cases o <;> simp [applyOrd]
  · intro h
    refine ⟨?_, ?_, hne⟩
    · rw [heq, hlt, hgt, h]
      cases o <;> simp [applyOrd, ExactlyOne]
    · rw [heq, hle, hge, h]
      cases o <;> simp [applyOrd]

theorem SpellsInteger.parse {text : String} {n : ℤ} (h : SpellsInteger text n) :
    Binary64.parse text = some (.finite n) := by
  obtain ⟨d, hd, hvalue, hexact⟩ := h
  rw [Binary64.parse_of_decimal hd, hvalue, hexact]

theorem toValue_n_inj {a b : String} :
    (AttributeValue.n a).toValue = (AttributeValue.n b).toValue ↔ a = b := by
  simp [AttributeValue.toValue, AttributeValue.typeName, AttributeValue.payload]

theorem toValue_s_inj {a b : String} :
    (AttributeValue.s a).toValue = (AttributeValue.s b).toValue ↔ a = b := by
  simp [AttributeValue.toValue, AttributeValue.typeName, AttributeValue.payload]

theorem toValue_s_ne_n {a b : String} :
    (AttributeValue.s a).toValue ≠ (AttributeValue.n b).toValue := by
  simp [AttributeValue.toValue, AttributeValue.typeName]

theorem between_eq_and (x lo hi : Operand) : evaluateCondition existing (.between x lo hi)
    = evaluateCondition existing (.and (.compare .ge x lo) (.compare .le x hi)) := by
  simp only [evaluateCondition, evalBetween, evalCompare]
  cases conditionOperandValue existing x with
  | none => rfl
  | some xv =>
    cases conditionOperandValue existing lo with
    | none => rfl
    | some lov =>
      cases conditionOperandValue existing hi with
      | none => simp
      | some hiv => rfl

theorem isIn_eq_any (x : Operand) (items : List Operand) :
    evaluateCondition existing (.isIn x items)
      = items.any fun v => evaluateCondition existing (.compare .eq x v) := by
  simp only [evaluateCondition, evalIn]
  cases hx : conditionOperandValue existing x with
  | none => simp [evalCompare, hx]
  | some xv =>
    have hone : ∀ v, decide (conditionOperandValue existing v = some xv)
        = evalCompare existing .eq x v := by
      intro v
      cases hv : conditionOperandValue existing v with
      | none => simp [evalCompare, hx, hv]
      | some vv => simp [evalCompare, hx, hv, compareValues, eq_comm]
    exact congrArg items.any (funext hone)

theorem SameType.laws_iff (hsame : SameType lv rv)
    (hl : conditionOperandValue existing left = some lv)
    (hr : conditionOperandValue existing right = some rv) :
    ComparisonLaws existing left right ↔ NumbersSpelledAlike lv rv := by
  cases hsame with
  | text a b =>
    have hord : ∀ op, compareOrdering op (AttributeValue.s a).toValue (AttributeValue.s b).toValue
        = applyOrd op (some (compare a b)) := fun _ => rfl
    rw [comparisonLaws_iff_of_ordering hl hr hord, toValue_s_inj]
    exact iff_of_true compare_eq_iff_eq.symm fun x y d e hx => absurd hx toValue_s_ne_n
  | @number a b m n ha hb =>
    have hord : ∀ op, compareOrdering op (AttributeValue.n a).toValue (AttributeValue.n b).toValue
        = applyOrd op (some (compare (m : ℚ) n)) := by
      intro op
      simp [compareOrdering, AttributeValue.typeName, AttributeValue.payload, Json.asStr, ha.parse,
        hb.parse]
    rw [comparisonLaws_iff_of_ordering hl hr hord, toValue_n_inj, compare_eq_iff_eq]
    obtain ⟨d, hd, hm, _⟩ := ha
    obtain ⟨e, he, hn, _⟩ := hb
    constructor
    · intro h x y d' e' hx hy hd' he' hvalue
      obtain rfl := toValue_n_inj.mp hx
      obtain rfl := toValue_n_inj.mp hy
      cases hd.symm.trans hd'
      cases he.symm.trans he'
      exact h.mpr (by rw [← hm, ← hn, hvalue])
    · intro h
      refine ⟨?_, fun heq => h a b d e rfl rfl hd he (by rw [hm, hn, heq])⟩
      rintro rfl
      cases hd.symm.trans he
      rw [← hm, ← hn]

/-- On two values of type S, or N as integers, the laws hold exactly when equal numbers are spelled
alike; BETWEEN and IN are always what they stand for. -/
theorem comparison_laws_iff (hl : conditionOperandValue existing left = some lv)
    (hr : conditionOperandValue existing right = some rv) (hsame : SameType lv rv) :
    (ComparisonLaws existing left right ∧
      (∀ x lo hi, evaluateCondition existing (.between x lo hi)
        = evaluateCondition existing (.and (.compare .ge x lo) (.compare .le x hi))) ∧
      (∀ x items, evaluateCondition existing (.isIn x items)
        = items.any fun v => evaluateCondition existing (.compare .eq x v))) ↔
    NumbersSpelledAlike lv rv := by
  rw [← hsame.laws_iff hl hr]
  exact ⟨And.left, fun h => ⟨h, between_eq_and, isIn_eq_any⟩⟩

def numberItem : Json := Item.toValue (OrderedMap.ofList [("n", .n "10"), ("s", .s "b")])

theorem comparison_laws_iff_text :
    ComparisonLaws (some numberItem) (.path (.attr "s")) (.value (.s "a")) ∧
      holds (some numberItem) .gt (.path (.attr "s")) (.value (.s "a")) = true := by
  have hsame : SameType (AttributeValue.s "b").toValue (AttributeValue.s "a").toValue := .text _ _
  refine ⟨((comparison_laws_iff rfl rfl hsame).mpr ?_).1, by decide⟩
  exact fun x y d e hx => absurd hx toValue_s_ne_n

theorem spellsInteger_ten : SpellsInteger "10" 10 := by
  refine ⟨⟨10, 0⟩, by decide, by norm_num [Decimal.value], ?_⟩
  exact Binary64.exact_of_abs_lt (by norm_num)

theorem spellsInteger_tenDotZero : SpellsInteger "10.0" 10 := by
  refine ⟨⟨100, 1⟩, by decide, by norm_num [Decimal.value], ?_⟩
  exact Binary64.exact_of_abs_lt (by norm_num)

/-- The stored 10 is neither less than, nor equal to, nor greater than 10.0. -/
theorem respelled_number_incomparable : ¬∀ existing left right lv rv,
    conditionOperandValue existing left = some lv →
    conditionOperandValue existing right = some rv → SameType lv rv →
      ComparisonLaws existing left right := by
  intro h
  have hsame : SameType (AttributeValue.n "10").toValue (AttributeValue.n "10.0").toValue :=
    .number spellsInteger_ten spellsInteger_tenDotZero
  have hlaws := h (some numberItem) (.path (.attr "n")) (.value (.n "10.0")) _ _ rfl rfl hsame
  have halike := (hsame.laws_iff rfl rfl).mp hlaws
  obtain ⟨d, hd, hten, _⟩ := spellsInteger_ten
  obtain ⟨e, he, hten', _⟩ := spellsInteger_tenDotZero
  exact absurd (halike "10" "10.0" d e rfl rfl hd he (by rw [hten, hten'])) (by decide)

end Rektifier
