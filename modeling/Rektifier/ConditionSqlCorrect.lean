import Rektifier.ConditionSqlLeaves

namespace Rektifier

open ThreeValued Fallible List

variable {c : Condition}

/-- The fragment computes the condition's Kleene value over its leaves. -/
theorem compileCondition_emits (item : Item) {b b' : ParamBuilder} {sql : SqlCond}
    (hfit : conditionFitsSql c) (h : compileCondition b c = .ok (sql, b')) :
    Emits (Item.toValue item) b b' sql ((c.numerals item).all isNumeral)
      (c.skeleton.kleene (leafTruth item)) := by
  induction c generalizing b b' sql with
  | compare op left right => exact compileCompare_emits hfit h
  | attributeExists p =>
    obtain ⟨n, hn, h⟩ := bind_ok h
    cases h
    exact hasKey_emits _ (topAttr_ok hn)
  | attributeNotExists p =>
    obtain ⟨n, hn, h⟩ := bind_ok h
    cases h
    have hn' := topAttr_ok hn
    have hval : (Condition.attributeNotExists p).skeleton.kleene (leafTruth item) = neg
        (some (evaluateCondition (some (Item.toValue item)) (.attributeExists p))) := by
      simp [Condition.skeleton, Formula.kleene, leafTruth, readsUnknown, exactLeaf,
        evaluateCondition, pathValue, hn', ThreeValued.neg]
    rw [hval]
    exact (hasKey_emits _ hn').not
  | and a c iha ihc =>
    simp only [conditionFitsSql, Bool.and_eq_true] at hfit
    obtain ⟨⟨l, b₁⟩, hl, h⟩ := bind_ok h
    obtain ⟨⟨r, b₂⟩, hr, h⟩ := bind_ok h
    cases h
    rw [Condition.numerals, all_append]
    exact (iha hfit.1 hl).and (ihc hfit.2 hr)
  | or a c iha ihc =>
    simp only [conditionFitsSql, Bool.and_eq_true] at hfit
    obtain ⟨⟨l, b₁⟩, hl, h⟩ := bind_ok h
    obtain ⟨⟨r, b₂⟩, hr, h⟩ := bind_ok h
    cases h
    rw [Condition.numerals, all_append]
    exact (iha hfit.1 hl).or (ihc hfit.2 hr)
  | not a ih =>
    obtain ⟨⟨s, b₁⟩, hs, h⟩ := bind_ok h
    cases h
    exact (ih hfit hs).not
  | _ => simp [conditionFitsSql] at hfit

/-- WHERE passes a row exactly on the SQL reading, where the numerals it casts are well-formed. -/
theorem compileCondition_satisfied {item : Item} {b b' : ParamBuilder}
    {sql : SqlCond} (hfit : conditionFitsSql c)
    (hall : (c.numerals item).all isNumeral) (h : compileCondition b c = .ok (sql, b'))
    (rest : List Param) :
    sql.satisfied compare (b'.params ++ rest) (Item.toValue item) = .ok (sqlReading item c) := by
  obtain ⟨_, _, hev⟩ := compileCondition_emits item hfit h
  rw [SqlCond.satisfied, hev hall rest]
  have hread : (c.skeleton.kleene (leafTruth item) == some true) = sqlReading item c := by
    rw [Bool.eq_iff_iff, ← kleene_leafTruth_iff]
    simp
  exact congrArg Except.ok hread

theorem conditionFitsSql_of_simpleSql {schema : TableSchema}
    (h : classifyCondition c schema = .simpleSql) : conditionFitsSql c = true := by
  unfold classifyCondition at h
  split at h
  · cases h
  · split at h
    next hfit => exact hfit
    next => cases h

theorem compileCondition_ok (hfit : conditionFitsSql c)
    (htop : checkConditionPathsTopLevel c = .ok ()) (b : ParamBuilder) :
    ∃ r, compileCondition b c = .ok r := by
  induction c generalizing b with
  | compare op left right =>
    obtain ⟨_, hl, hr⟩ := bind_ok htop
    cases op with
    | eq => exact compileEquality_ok hl hr b true
    | ne => exact compileEquality_ok hl hr b false
    | _ => exact compileTypedOrdering_ok hl hr hfit b _
  | attributeExists p | attributeNotExists p =>
    obtain ⟨n, hn⟩ := topAttr_of_checkConditionPath htop
    exact ⟨_, bind_ok_iff.mpr ⟨n, hn, rfl⟩⟩
  | and a c iha ihc | or a c iha ihc =>
    simp only [conditionFitsSql, Bool.and_eq_true] at hfit
    obtain ⟨_, ha, hc⟩ := bind_ok htop
    obtain ⟨⟨l, b₁⟩, hl⟩ := iha hfit.1 ha b
    obtain ⟨⟨r, b₂⟩, hr⟩ := ihc hfit.2 hc b₁
    exact ⟨_, bind_ok_iff.mpr ⟨_, hl, bind_ok_iff.mpr ⟨_, hr, rfl⟩⟩⟩
  | not a ih =>
    obtain ⟨⟨s, b₁⟩, hs⟩ := ih hfit htop b
    exact ⟨_, bind_ok_iff.mpr ⟨_, hs, rfl⟩⟩
  | _ => simp [conditionFitsSql] at hfit

/-- WHERE and the evaluator agree on a stored item exactly when reading the unknown comparisons
under an odd number of NOTs as true does not change the evaluator's answer. -/
theorem where_agrees_iff {schema : TableSchema} {item : Item} {c : Condition}
    {b b' : ParamBuilder} {sql : SqlCond} (hroute : classifyCondition c schema = .simpleSql)
    (hitem : ExactItem item) (hex : c.Exact) (h : compileCondition b c = .ok (sql, b')) :
    sql.satisfied compare b'.params (Item.toValue item)
        = .ok (evaluateCondition (some (Item.toValue item)) c)
      ↔ evaluateUnknownAsTrueUnderNot item c
        = evaluateCondition (some (Item.toValue item)) c := by
  have hsat := compileCondition_satisfied (conditionFitsSql_of_simpleSql hroute)
    (numerals_of_exact hitem hex) h []
  rw [append_nil, sqlReading_of_exact hitem hex] at hsat
  rw [hsat, Except.ok.injEq]

def sampleSchema : TableSchema :=
  ⟨"orders", "rekt_t_orders", "id", .s, none, "data", [], [], .plain⟩

def sampleItem : Item := OrderedMap.ofList [("id", .s "o1"), ("total", .n "7")]

/-- `NOT (total < 5 AND tag = x)`: the false left side decides. -/
def sampleCondition : Condition :=
  .not (.and (.compare .lt (.path (.attr "total")) (.value (.n "5")))
    (.compare .eq (.path (.attr "tag")) (.value (.s "x"))))

theorem sampleItem_exact : ExactItem sampleItem := by
  apply exactItem_of_entries
  have he : sampleItem.entries = [("id", .s "o1"), ("total", .n "7")] := rfl
  rw [he]
  intro e hmem s hs
  rcases mem_pair.mp hmem with rfl | rfl
  · cases hs
  · cases hs
    exact exactNumeral_of_int (n := 7) (by decide) (by decide) (by decide)

theorem sampleCondition_exact : sampleCondition.Exact := by
  refine ⟨⟨?_, ?_⟩, ?_, ?_⟩ <;> intro s hs <;> cases hs
  exact exactNumeral_of_int (n := 5) (by decide) (by decide) (by decide)

theorem sampleItem_not_below_five : evaluateCondition (some (Item.toValue sampleItem))
    (.compare .lt (.path (.attr "total")) (.value (.n "5"))) = false := by
  have hleaf : (Condition.compare .lt (.path (.attr "total")) (.value (.n "5"))).Exact :=
    sampleCondition_exact.1
  have hcmp : compare (⟨7, 0⟩ : Decimal).value (⟨5, 0⟩ : Decimal).value = .gt := by
    rw [compare_gt_iff_gt]
    norm_num [Decimal.value]
  have hord : exactOrder (.n "7") (.n "5") = some .gt := by
    rw [exactOrder_n (d := .finite ⟨7, 0⟩) (e := .finite ⟨5, 0⟩) (by decide) (by decide),
      Numeric.value, Numeric.value, Numeric.compare_ofRat, hcmp]
  rw [← exactLeaf_of_exact sampleItem_exact hleaf]
  change applyOrd .lt (exactOrder (.n "7") (.n "5")) = false
  rw [hord]
  rfl

theorem where_agrees_sample :
    SqlCond.satisfied compare
        [.text "total", .text "5", .text "tag", .jsonb (AttributeValue.toValue (.s "x"))]
        (Item.toValue sampleItem)
        (.not (.and (.numericOrd .lt 1 2) (.jsonbEq true (.dataField 3) (.param 4))))
      = .ok (evaluateCondition (some (Item.toValue sampleItem)) sampleCondition) := by
  have hcompile : compileCondition .new sampleCondition = .ok
      (.not (.and (.numericOrd .lt 1 2) (.jsonbEq true (.dataField 3) (.param 4))),
        ⟨[.text "total", .text "5", .text "tag", .jsonb (AttributeValue.toValue (.s "x"))],
          [.text, .text, .text, .jsonb]⟩) := rfl
  have hroute : classifyCondition sampleCondition sampleSchema = .simpleSql := rfl
  refine (where_agrees_iff hroute sampleItem_exact sampleCondition_exact hcompile).mpr ?_
  have hknown : readsUnknown sampleItem
      (.compare .lt (.path (.attr "total")) (.value (.n "5"))) = false := by decide
  have hfalse := sampleItem_not_below_five
  simp only [evaluateCondition] at hfalse
  simp [evaluateUnknownAsTrueUnderNot, sampleCondition, Condition.skeleton, Formula.polar,
    evaluateCondition, hfalse, hknown]

/-- `NOT (tag = x)` on an item without `tag`: NULL in SQL, true for the evaluator. -/
theorem where_disagrees_missing_under_not :
    classifyCondition (.not (.compare .eq (.path (.attr "tag")) (.value (.s "x")))) sampleSchema
        = .simpleSql ∧
    compileCondition .new (.not (.compare .eq (.path (.attr "tag")) (.value (.s "x"))))
        = .ok (.not (.jsonbEq true (.dataField 1) (.param 2)),
            ⟨[.text "tag", .jsonb (AttributeValue.toValue (.s "x"))], [.text, .jsonb]⟩) ∧
    SqlCond.satisfied compare [.text "tag", .jsonb (AttributeValue.toValue (.s "x"))]
        (Item.toValue sampleItem) (.not (.jsonbEq true (.dataField 1) (.param 2))) = .ok false ∧
    evaluateCondition (some (Item.toValue sampleItem))
        (.not (.compare .eq (.path (.attr "tag")) (.value (.s "x")))) = true := by
  refine ⟨rfl, rfl, rfl, ?_⟩
  decide

end Rektifier
