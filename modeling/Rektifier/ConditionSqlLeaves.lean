import Rektifier.ConditionSql
import Rektifier.ConditionTruth

namespace Rektifier

open ThreeValued Fallible List

variable {data : Json} {l r : SqlCond} {casts casts' : Bool} {s t : Truth} {op : ComparisonOp}
  {item : Item} {b b' b₁ b₂ : ParamBuilder} {p : Path} {n : String} {left right : Operand}
  {sql : SqlCond} {v : AttributeValue}

theorem textParam_append (xs ys : List Param) (s : String) :
    textParam (xs ++ .text s :: ys) (xs.length + 1) = some s := by
  simp [textParam]

theorem jsonbParam_append (xs ys : List Param) (v : Json) :
    jsonbParam (xs ++ .jsonb v :: ys) (xs.length + 1) = some v := by
  simp [jsonbParam]

theorem textParam_pair (xs rest : List Param) (n s : String) :
    textParam (xs ++ [.text n] ++ [.text s] ++ rest) (xs.length + 1) = some n ∧
    textParam (xs ++ [.text n] ++ [.text s] ++ rest) ((xs ++ [Param.text n]).length + 1) = some s := by
  constructor
  · have := textParam_append xs (.text s :: rest) n
    simpa using this
  · have := textParam_append (xs ++ [.text n]) rest s
    simpa using this

theorem topAttr_ok (h : topAttr p = .ok n) : p.topName = some n := by
  unfold topAttr at h
  split at h
  next m hm => cases h; exact hm
  next => cases h

/-- A compiled operand reads what the evaluator reads. -/
theorem operandAsJsonb_eval {o : Operand} {j : SqlJsonb} (data : Json)
    (h : operandAsJsonb b o = .ok (j, b')) :
    ∃ ext, b'.params = b.params ++ ext ∧
      ∀ rest, j.eval (b'.params ++ rest) data = conditionOperandValue (some data) o := by
  cases o with
  | path p =>
    obtain ⟨n, hn, hout⟩ := bind_ok h
    cases hout
    refine ⟨[.text n], rfl, ?_⟩
    intro rest
    simp [SqlJsonb.eval, conditionOperandValue, topAttr_ok hn, textParam_append]
  | value v =>
    cases h
    refine ⟨[.jsonb v.toValue], rfl, ?_⟩
    intro rest
    simp [SqlJsonb.eval, conditionOperandValue, jsonbParam_append]

/-- Only appends parameters, and evaluates to `o` whatever follows them, if the numerals it may cast
are well-formed and texts are ordered bytewise. -/
def Emits (data : Json) (b b' : ParamBuilder) (sql : SqlCond) (casts : Bool) (o : Truth) : Prop :=
  ∃ ext, b'.params = b.params ++ ext ∧
    (casts = true → ∀ rest, sql.eval compare (b'.params ++ rest) data = .ok o)

theorem Emits.trans
    (hl : Emits data b b₁ l casts s) (hr : Emits data b₁ b₂ r casts' t) :
    ∃ ext, b₂.params = b.params ++ ext ∧ ((casts && casts') → ∀ rest,
      l.eval compare (b₂.params ++ rest) data = .ok s ∧
      r.eval compare (b₂.params ++ rest) data = .ok t) := by
  obtain ⟨ext₁, he₁, hl⟩ := hl
  obtain ⟨ext₂, he₂, hr⟩ := hr
  refine ⟨ext₁ ++ ext₂, by rw [he₂, he₁, append_assoc], ?_⟩
  intro hcasts rest
  rw [Bool.and_eq_true] at hcasts
  have hl' := hl hcasts.1 (ext₂ ++ rest)
  rw [← append_assoc, ← he₂] at hl'
  exact ⟨hl', hr hcasts.2 rest⟩

theorem Emits.and
    (hl : Emits data b b₁ l casts s) (hr : Emits data b₁ b₂ r casts' t) :
    Emits data b b₂ (.and l r) (casts && casts') (conj s t) := by
  obtain ⟨ext, he, hev⟩ := hl.trans hr
  refine ⟨ext, he, ?_⟩
  intro hcasts rest
  obtain ⟨hx, hy⟩ := hev hcasts rest
  rw [SqlCond.eval, hx, ok_bind, hy]
  -- a left side that stops the evaluation is the value of the conjunction
  rcases s with _ | _ | _ <;> rfl

theorem Emits.or
    (hl : Emits data b b₁ l casts s) (hr : Emits data b₁ b₂ r casts' t) :
    Emits data b b₂ (.or l r) (casts && casts') (disj s t) := by
  obtain ⟨ext, he, hev⟩ := hl.trans hr
  refine ⟨ext, he, ?_⟩
  intro hcasts rest
  obtain ⟨hx, hy⟩ := hev hcasts rest
  rw [SqlCond.eval, hx, ok_bind, hy]
  rcases s with _ | _ | _ <;> rfl

theorem Emits.not (h : Emits data b b' sql casts t) :
    Emits data b b' (.not sql) casts (neg t) := by
  obtain ⟨ext, he, hev⟩ := h
  refine ⟨ext, he, ?_⟩
  intro hcasts rest
  rw [SqlCond.eval, hev hcasts rest]
  rfl

theorem hasKey_emits {b : ParamBuilder} (data : Json) (h : p.topName = some n) :
    Emits data b (b.bindText n).2 (.hasKey (b.bindText n).1) true
      (some (evaluateCondition (some data) (.attributeExists p))) := by
  refine ⟨[.text n], rfl, ?_⟩
  intro _ rest
  have ht : textParam ((b.bindText n).2.params ++ rest) (b.bindText n).1 = some n := by
    simpa [ParamBuilder.bindText, ParamBuilder.push] using textParam_append b.params rest n
  simp [SqlCond.eval, ht, evaluateCondition, pathValue, h]

theorem compileEquality_emits {eq : Bool} (data : Json)
    (h : compileEquality b eq left right = .ok (sql, b')) :
    Emits data b b' sql true ((conditionOperandValue (some data) left).bind fun lv =>
      (conditionOperandValue (some data) right).map fun rv => (lv = rv) == eq) := by
  obtain ⟨⟨l, b₁⟩, hl, h⟩ := bind_ok h
  obtain ⟨⟨r, b₂⟩, hr, h⟩ := bind_ok h
  cases h
  obtain ⟨ext₁, he₁, hl⟩ := operandAsJsonb_eval data hl
  obtain ⟨ext₂, he₂, hr⟩ := operandAsJsonb_eval data hr
  refine ⟨ext₁ ++ ext₂, by rw [he₂, he₁, append_assoc], ?_⟩
  intro _ rest
  have hl' := hl (ext₂ ++ rest)
  rw [← append_assoc, ← he₂] at hl'
  simp only [SqlCond.eval, hl', hr]

theorem leafTruth_equality (item : Item) (left right : Operand) (eq : Bool) :
    leafTruth item (.compare (if eq then .eq else .ne) left right) =
      (conditionOperandValue (some (Item.toValue item)) left).bind fun lv =>
        (conditionOperandValue (some (Item.toValue item)) right).map fun rv => (lv = rv) == eq := by
  rcases hl : operandAttr item left with _ | a <;> rcases hr : operandAttr item right with _ | b <;>
    cases eq <;>
    simp [leafTruth, readsUnknown, exactLeaf, evaluateCondition, evalCompare,
      conditionOperandValue_item, hl, hr, compareValues]

/-- `#>>` finds a payload only under the value's own tag. -/
theorem extractText_toValue (item : Item) (name tag : String) :
    extractText (Item.toValue item) name tag = (item.get name).bind fun v =>
      if tag = v.typeName then v.payload.asStr else none := by
  rcases hv : item.get name with _ | v
  · simp [extractText, hv]
  · by_cases ht : tag = v.typeName <;>
      simp [extractText, hv, AttributeValue.toValue, Entries.get, ht]

theorem ordHolds_sqlOp (h : op ∉ [ComparisonOp.eq, .ne]) :
    ordHolds (sqlOp op false) = fun ord => applyOrd op (some ord) := by
  funext ord
  cases op <;> cases ord <;> simp_all [ordHolds, applyOrd, sqlOp]

theorem ordHolds_sqlOp_swap (h : op ∉ [ComparisonOp.eq, .ne]) :
    ordHolds (sqlOp op true) = fun ord => applyOrd op (some ord.swap) := by
  funext ord
  cases op <;> cases ord <;> simp_all [ordHolds, applyOrd, sqlOp]

theorem castNullable_ok {t : Option String} (h : t.toList.all isNumeral) :
    castNullable t = .ok (t.bind fun s => (Numeric.parse s).map Numeric.value) := by
  rcases t with _ | s
  · rfl
  · have hs : isNumeral s = true := by simpa using h
    obtain ⟨d, hd⟩ := Option.isSome_iff_exists.mp hs
    simp [castNullable, castNumeric, hd, Except.map]

theorem storedNumerals_eq (h : p.topName = some n) :
    storedNumerals item p = (extractText (Item.toValue item) n "N").toList := by
  rw [extractText_toValue, storedNumerals, h, Option.bind_some]
  split
  next t ht => simp [ht, AttributeValue.typeName, AttributeValue.payload]
  next hne =>
    rcases hv : item.get n with _ | v
    · rfl
    · cases v <;> first | rfl | exact absurd hv (hne _)

theorem exactOrder_extracted (item : Item) (n s : String) :
    ((item.get n).bind fun stored => exactOrder stored (.n s)) =
      (extractText (Item.toValue item) n "N").bind fun t => (Numeric.parse t).bind fun d =>
        (Numeric.parse s).map fun e => compare d.value e.value := by
  rw [extractText_toValue]
  rcases item.get n with _ | v
  · rfl
  · cases v <;> rfl

theorem numericOrd_eval {params : List Param} {i j : Nat} {n s : String} (hp : p.topName = some n)
    (hall : (s :: storedNumerals item p).all isNumeral) (hi : textParam params i = some n)
    (hj : textParam params j = some s) :
    (SqlCond.numericOrd op i j).eval compare params (Item.toValue item) =
      .ok (((item.get n).bind fun stored => exactOrder stored (.n s)).map (ordHolds op)) := by
  rw [storedNumerals_eq hp, all_cons, Bool.and_eq_true] at hall
  have hs : (some s).toList.all isNumeral = true := by simpa using hall.1
  simp only [SqlCond.eval, hi, hj, Option.bind_some]
  rw [castNullable_ok hall.2, ok_bind, castNullable_ok hs, exactOrder_extracted]
  generalize extractText (Item.toValue item) n "N" = stored
  rcases stored with _ | t
  · rfl
  · rcases ht : Numeric.parse t with _ | d <;> rcases hs : Numeric.parse s with _ | e <;>
      simp [ht, hs]

theorem textOrd_eval {params : List Param} {i j : Nat}
    {name s : String} (hi : textParam params i = some name) (hj : textParam params j = some s) :
    (SqlCond.textOrd op i j).eval compare params (Item.toValue item) =
      .ok (((item.get name).bind fun stored => exactOrder stored (.s s)).map (ordHolds op)) := by
  simp only [SqlCond.eval, hi, hj, Option.bind_some, extractText_toValue]
  rcases item.get name with _ | v
  · rfl
  · cases v <;> rfl

theorem compileExtraction_emits (item : Item) (h : compileExtraction b op p v = .ok (sql, b')) :
    ∃ n, p.topName = some n ∧ Emits (Item.toValue item) b b' sql
      ((orderingNumerals item (.path p) (.value v)).all isNumeral)
      (((item.get n).bind fun stored => exactOrder stored v).map (ordHolds op)) := by
  obtain ⟨n, hn, h⟩ := bind_ok h
  refine ⟨n, topAttr_ok hn, ?_⟩
  cases v with
  | n s =>
    cases h
    refine ⟨[.text n] ++ [.text s], (append_assoc _ _ _), ?_⟩
    intro hall rest
    obtain ⟨hi, hj⟩ := textParam_pair b.params rest n s
    exact numericOrd_eval (topAttr_ok hn) hall hi hj
  | s s =>
    cases h
    refine ⟨[.text n] ++ [.text s], (append_assoc _ _ _), ?_⟩
    intro _ rest
    obtain ⟨hi, hj⟩ := textParam_pair b.params rest n s
    exact textOrd_eval hi hj
  | _ => cases h

/-- Two scalars of the type of an `N` or `S` literal are ordered, numerals permitting. -/
theorem exactOrder_isSome {a b : AttributeValue} (ha : ∀ s, a = .n s → isNumeral s)
    (hb : ∀ s, b = .n s → isNumeral s) (hk : b.typeName ∈ ["N", "S"])
    (ht : a.typeName = b.typeName) : ∃ o, exactOrder a b = some o := by
  cases b <;> simp [AttributeValue.typeName] at hk <;>
    cases a <;> simp [AttributeValue.typeName] at ht
  case s.s a b => exact ⟨_, rfl⟩
  case n.n a b =>
    obtain ⟨d, hd⟩ := Option.isSome_iff_exists.mp (ha _ rfl)
    obtain ⟨e, he⟩ := Option.isSome_iff_exists.mp (hb _ rfl)
    exact ⟨_, exactOrder_n hd he⟩

theorem leafTruth_ordering {l r : Operand} (hop : op ∉ [ComparisonOp.eq, .ne]) :
    leafTruth item (.compare op l r) =
      if (operandAttr item l).map AttributeValue.typeName
        ≠ (operandAttr item r).map AttributeValue.typeName then none
      else some (compareExact item op l r) := by
  cases op <;> simp_all [leafTruth, readsUnknown, exactLeaf]

theorem leafTruth_of_values {l r : Operand}
    {a b : AttributeValue} (hop : op ∉ [ComparisonOp.eq, .ne]) (hl : operandAttr item l = some a)
    (hr : operandAttr item r = some b)
    (hsome : a.typeName = b.typeName → ∃ o, exactOrder a b = some o) :
    leafTruth item (.compare op l r) = (exactOrder a b).map fun o => applyOrd op (some o) := by
  rw [leafTruth_ordering hop]
  simp only [compareExact, hl, hr, Option.map_some, ne_eq, Option.some.injEq]
  by_cases ht : a.typeName = b.typeName
  · obtain ⟨o, ho⟩ := hsome ht
    simp [ht, ho]
  · simp [ht, exactOrder_of_typeName_ne ht]

theorem leafTruth_of_missing (hop : op ∉ [ComparisonOp.eq, .ne]) (hn : p.topName = some n)
    (hm : item.get n = none) : leafTruth item (.compare op (.path p) (.value v)) = none ∧
      leafTruth item (.compare op (.value v) (.path p)) = none := by
  simp [leafTruth_ordering hop, operandAttr, hn, hm]

/-- When an ordering casts, a stored value of the literal's type is ordered. -/
theorem exactOrder_of_all {v stored : AttributeValue}
    (hn : p.topName = some n) (hv : item.get n = some stored) (hk : v.typeName ∈ ["N", "S"])
    (hall : (orderingNumerals item (.path p) (.value v)).all isNumeral)
    (ht : stored.typeName = v.typeName) : ∃ o, exactOrder stored v = some o := by
  refine exactOrder_isSome ?_ ?_ hk ht
  · rintro s rfl
    cases v <;> simp [AttributeValue.typeName] at ht
    simp [orderingNumerals, storedNumerals, hn, hv] at hall
    exact hall.2
  · rintro s rfl
    simp [orderingNumerals] at hall
    exact hall.1

theorem orderingNumerals_comm (item : Item) (p : Path) (v : AttributeValue) :
    orderingNumerals item (.value v) (.path p) = orderingNumerals item (.path p) (.value v) := by
  cases v <;> rfl

theorem literal_typeName (h : orderingHasTypedExtraction (.path p) (.value v)) :
    v.typeName ∈ ["N", "S"] := by
  cases v <;> simp_all [orderingHasTypedExtraction, AttributeValue.typeName]

theorem orderingHasTypedExtraction_comm (p : Path) (v : AttributeValue) :
    orderingHasTypedExtraction (.value v) (.path p)
      = orderingHasTypedExtraction (.path p) (.value v) := by
  cases v <;> rfl

theorem Emits.congr (h : Emits data b b' sql casts s)
    (heq : casts → s = t) : Emits data b b' sql casts t := by
  obtain ⟨ext, he, hev⟩ := h
  exact ⟨ext, he, fun hcasts rest => heq hcasts ▸ hev hcasts rest⟩

theorem compileTypedOrdering_emits (hop : op ∉ [ComparisonOp.eq, .ne])
    (hfit : orderingHasTypedExtraction left right)
    (h : compileTypedOrdering b op left right = .ok (sql, b')) :
    Emits (Item.toValue item) b b' sql ((orderingNumerals item left right).all isNumeral)
      (leafTruth item (.compare op left right)) := by
  rcases left with p | v <;> rcases right with q | w
  · simp [orderingHasTypedExtraction] at hfit
  · obtain ⟨n, hn, hem⟩ := compileExtraction_emits item h
    refine hem.congr fun hall => ?_
    rcases hv : item.get n with _ | stored
    · rw [(leafTruth_of_missing hop hn hv).1]
      rfl
    · rw [leafTruth_of_values hop (a := stored) (b := w) (by simp [operandAttr, hn, hv]) rfl
        (exactOrder_of_all hn hv (literal_typeName hfit) hall), ordHolds_sqlOp hop]
      rfl
  · rw [orderingHasTypedExtraction_comm] at hfit
    rw [orderingNumerals_comm]
    obtain ⟨n, hn, hem⟩ := compileExtraction_emits item h
    refine hem.congr fun hall => ?_
    rcases hv : item.get n with _ | stored
    · rw [(leafTruth_of_missing hop hn hv).2]
      rfl
    · rw [leafTruth_of_values hop (a := v) (b := stored) rfl (by simp [operandAttr, hn, hv])
        ?_, exactOrder_swap stored v, ordHolds_sqlOp_swap hop, Option.map_map]
      · rfl
      · intro ht
        obtain ⟨o, ho⟩ := exactOrder_of_all hn hv (literal_typeName hfit) hall ht.symm
        exact ⟨o.swap, by rw [exactOrder_swap stored v, ho]; rfl⟩
  · simp [orderingHasTypedExtraction] at hfit

theorem compileCompare_emits (hfit : conditionFitsSql (.compare op left right))
    (h : compileCondition b (.compare op left right) = .ok (sql, b')) :
    Emits (Item.toValue item) b b' sql
      (((Condition.compare op left right).numerals item).all isNumeral)
      (leafTruth item (.compare op left right)) := by
  cases op with
  | eq =>
    have ht := leafTruth_equality item left right true
    simp only [if_true] at ht
    rw [ht]
    exact compileEquality_emits (Item.toValue item) h
  | ne =>
    have ht := leafTruth_equality item left right false
    simp only [Bool.false_eq_true, if_false] at ht
    rw [ht]
    exact compileEquality_emits (Item.toValue item) h
  | _ => exact compileTypedOrdering_emits (by decide) hfit h

theorem topAttr_of_checkConditionPath (h : checkConditionPath p = .ok ()) :
    ∃ n, topAttr p = .ok n := by
  unfold checkConditionPath at h
  split at h
  next ht =>
    obtain ⟨n, rfl⟩ := Path.eq_attr_of_isTopLevel ht
    exact ⟨n, rfl⟩
  next => cases h

theorem operandAsJsonb_ok {o : Operand} (h : checkConditionOperand o = .ok ())
    (b : ParamBuilder) : ∃ r, operandAsJsonb b o = .ok r := by
  cases o with
  | path p =>
    obtain ⟨n, hn⟩ := topAttr_of_checkConditionPath h
    exact ⟨_, bind_ok_iff.mpr ⟨n, hn, rfl⟩⟩
  | value v => exact ⟨_, rfl⟩

theorem compileEquality_ok (hl : checkConditionOperand left = .ok ())
    (hr : checkConditionOperand right = .ok ()) (b : ParamBuilder) (eq : Bool) :
    ∃ r, compileEquality b eq left right = .ok r := by
  obtain ⟨⟨l, b₁⟩, hl⟩ := operandAsJsonb_ok hl b
  obtain ⟨⟨r, b₂⟩, hr⟩ := operandAsJsonb_ok hr b₁
  exact ⟨_, bind_ok_iff.mpr ⟨_, hl, bind_ok_iff.mpr ⟨_, hr, rfl⟩⟩⟩

theorem compileExtraction_ok (hp : checkConditionPath p = .ok ())
    (hv : orderingHasTypedExtraction (.path p) (.value v)) (b : ParamBuilder)
    (op : ComparisonOp) : ∃ r, compileExtraction b op p v = .ok r := by
  obtain ⟨n, hn⟩ := topAttr_of_checkConditionPath hp
  cases v with
  | n s | s s => exact ⟨_, bind_ok_iff.mpr ⟨n, hn, rfl⟩⟩
  | _ => simp [orderingHasTypedExtraction] at hv

theorem compileTypedOrdering_ok (hl : checkConditionOperand left = .ok ())
    (hr : checkConditionOperand right = .ok ())
    (hfit : orderingHasTypedExtraction left right) (b : ParamBuilder) (op : ComparisonOp) :
    ∃ r, compileTypedOrdering b op left right = .ok r := by
  rcases left with p | v <;> rcases right with q | w
  · simp [orderingHasTypedExtraction] at hfit
  · exact compileExtraction_ok hl hfit b _
  · rw [orderingHasTypedExtraction_comm] at hfit
    exact compileExtraction_ok hr hfit b _
  · simp [orderingHasTypedExtraction] at hfit

end Rektifier
