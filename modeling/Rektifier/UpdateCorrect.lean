import Rektifier.UpdateSlowPath

namespace Rektifier

open Fallible

variable {req : UpdateItemRequest} {schema : TableSchema} {plan : UpdateItemPlan} {k : PgKey}
  {t : schema.Table} {existing : Option Item}

/-- The check fails, or the row under `k` becomes `data` and no other changes. -/
def CheckedWrite {bk : BaseKey} (t : PgTable bk) (k : PgKey) (holds : Bool) (data : Json)
    (result : Except ApiError (PgTable bk × UpdateOutcome)) : Prop :=
  if holds = true then ∃ t' outcome, result = .ok (t', outcome) ∧ WroteItem t t' k data
  else result = .error (.backend .conditionalCheckFailed)

/-- UpdateItem does to the row under `k` what the two evaluators say. -/
def FollowsEvaluator (schema : TableSchema) (t : schema.Table) (req : UpdateItemRequest)
    (k : PgKey) : Prop :=
  let existing := (t.rows k).map PgRow.data
  if req.condition.all (evaluateCondition existing) = true then
    ∃ item, applyUpdateExpression existing req.expression req.key = .ok item ∧
      ∃ t' outcome, handleUpdateItem schema t req = .ok (t', outcome) ∧ WroteItem t t' k item
  else handleUpdateItem schema t req = .error (.backend .conditionalCheckFailed)

theorem handleUpdateItem_fast (h : translateUpdateItem req schema = .ok plan)
    (hfast : needsSlowPath plan = false) :
    handleUpdateItem schema t req = dispatchFastPath schema t plan req.key := by
  simp only [handleUpdateItem, translated, h, Except.mapError, bind, Except.bind, hfast]
  rfl

theorem translateCondition_some {c : Option Condition} {cp : ConditionPlan}
    (h : translateCondition schema c = .ok (some cp)) :
    c = some cp.condition ∧ cp.routing = classifyCondition cp.condition schema ∧
      checkConditionPathsTopLevel cp.condition = .ok () := by
  cases c with
  | none => cases h
  | some c =>
    obtain ⟨_, hcheck, h⟩ := bind_ok h
    cases h
    exact ⟨rfl, rfl, hcheck⟩

theorem translateCondition_none {c : Option Condition}
    (h : translateCondition schema c = .ok none) : c = none := by
  cases c with
  | none => rfl
  | some c =>
    obtain ⟨_, _, h⟩ := bind_ok h
    cases h

/-- For a simple expression and a row that holds an item. -/
theorem followsEvaluator_iff (hs : req.expression.isSimple)
    (hrow : (t.rows k).map PgRow.data = existing.map Item.toValue) :
    FollowsEvaluator schema t req k ↔
      CheckedWrite t k (req.condition.all (evaluateCondition (existing.map Item.toValue)))
        (Item.toValue (req.expression.simpleUpdate (existing.getD req.key)))
        (handleUpdateItem schema t req) := by
  simp only [FollowsEvaluator, CheckedWrite, hrow, applyUpdateExpression_simple hs]
  split
  · constructor
    · rintro ⟨item, hitem, hwrite⟩
      cases hitem
      exact hwrite
    · intro hwrite
      exact ⟨_, rfl, hwrite⟩
  · rfl

theorem WroteItem.data_unique {bk : BaseKey} {t t' : PgTable bk} {data data' : Json}
    (h : WroteItem t t' k data) (h' : WroteItem t t' k data') : data = data' := by
  have := h.row.symm.trans h'.row
  exact Option.some.inj this

section Outcome

variable {bk : BaseKey} {u u' : PgTable bk} {holds : Bool} {data data' : Json}
  {outcome : UpdateOutcome}

theorem checkedWrite_failed_iff :
    CheckedWrite u k holds data (stored (.error .conditionalCheckFailed)) ↔ holds = false := by
  cases holds with
  | false => exact ⟨fun _ => rfl, fun _ => rfl⟩
  | true =>
    refine iff_of_false ?_ (by simp)
    rintro ⟨u', outcome, hok, _⟩
    cases hok

theorem not_checkedWrite_pgError {e : PgError} :
    ¬ CheckedWrite u k holds data (stored (.error (.pgError e))) := by
  cases holds with
  | false =>
    intro hfail
    cases hfail
  | true =>
    rintro ⟨u', outcome, hok, _⟩
    cases hok

theorem checkedWrite_ok_iff (hwrote : WroteItem u u' k data') :
    CheckedWrite u k holds data (stored (.ok (u', outcome))) ↔ holds ∧ data' = data := by
  cases holds with
  | false =>
    refine iff_of_false ?_ (by simp)
    intro hfail
    cases hfail
  | true =>
    constructor
    · rintro ⟨u₁, o₁, hok, hwrote₁⟩
      cases hok
      exact ⟨rfl, hwrote.data_unique hwrote₁⟩
    · rintro ⟨_, rfl⟩
      exact ⟨u', outcome, rfl, hwrote⟩

end Outcome

/-- The unconditional upsert stores the evaluated item exactly when the row is there or no attribute
is both SET and REMOVEd, its parameters bind, and PostgreSQL computes the columns of the inserted
item and takes the row that is written. -/
theorem simple_update_follows_iff (h : translateUpdateItem req schema = .ok plan)
    (hcond : plan.condition = none) (hs : plan.expression.isSimple = true)
    (hk : addressedKey plan.pk plan.sk = .ok k)
    (hrow : (t.rows k).map PgRow.data = existing.map Item.toValue) :
    FollowsEvaluator schema t req k ↔
      (existing.isSome = true ∨
        ∀ n ∈ req.expression.removeNames, n ∉ req.expression.literals.map Prod.fst) ∧
      bindable (updateSimpleParams plan.pk plan.sk
        (Item.toValue (req.key.insertAll req.expression.literals))
        (Entries.mapVals AttributeValue.toValue req.expression.literals)
        req.expression.removeNames) = true ∧
      schema.fillable (req.key.insertAll req.expression.literals) = true ∧
      schema.storable ((existing.map req.expression.simpleUpdate).getD
        (req.key.insertAll req.expression.literals)) = true := by
  have ha := translateUpdateItem_accepted h
  have hs' : req.expression.isSimple = true := by rw [← ha.expression, hs]
  have hreq : req.condition = none := translateCondition_none (by rw [ha.condition, hcond])
  have hslow : needsSlowPath plan = false := by simp [needsSlowPath, hs, hcond]
  have hfast : handleUpdateItem schema t req = stored (updateSimpleRaw schema.writeShape t plan.pk
      plan.sk (Item.toValue (req.key.insertAll req.expression.literals))
      (Entries.mapVals AttributeValue.toValue req.expression.literals)
      req.expression.removeNames) := by
    rw [handleUpdateItem_fast h hslow, dispatchFastPath, hcond]
    simp only [materializeSimpleUpdate, hs, hcond, sets_eq ha, buildInsertItem_eq ha]
    rfl
  rw [followsEvaluator_iff hs' hrow, hreq, hfast]
  rw [Option.all_none]
  rcases updateSimpleRaw_cases ha hk hrow with ⟨htaken, t', outcome, hres, hwrote⟩ | ⟨hno, e, hres⟩
  · rw [hres, checkedWrite_ok_iff hwrote, and_iff_left htaken]
    rcases existing with _ | item
    · rw [Option.map_none, Option.getD_none, Option.getD_none, simpleUpdate_key_eq_iff ha]
      simp
    · simp
  · rw [hres]
    exact iff_of_false not_checkedWrite_pgError fun hall => hno hall.2

/-- `SET note = x REMOVE` the given attributes, on the order `o2`. -/
def noteRequest (removes : List String) (condition : Option Condition) : UpdateItemRequest where
  key := OrderedMap.ofList [("id", .s "o2")]
  expression := ⟨[⟨.attr "note", .operand (.value (.s "x"))⟩], removes.map Path.attr, [], []⟩
  condition := condition
  returnValues := none

def notePlan (removes : List String) (condition : Option ConditionPlan) : UpdateItemPlan where
  pk := .s "o2"
  sk := none
  expression := (noteRequest removes none).expression
  condition := condition
  returnValues := .none

theorem simple_update_follows_sample :
    FollowsEvaluator sampleSchema PgTable.empty (noteRequest ["tag"] none) (.text "o2", none) := by
  have hplan : translateUpdateItem (noteRequest ["tag"] none) sampleSchema
      = .ok (notePlan ["tag"] none) := rfl
  have hrow : ((PgTable.empty : sampleSchema.Table).rows (.text "o2", none)).map PgRow.data
      = (none : Option Item).map Item.toValue := rfl
  refine (simple_update_follows_iff hplan rfl rfl rfl hrow).mpr ⟨.inr ?_, ?_, ?_, ?_⟩
  · decide
  · decide
  · decide
  · decide

/-- `SET note REMOVE note` on an absent row: the INSERT branch stores `note`, which the evaluator
removes. -/
theorem simple_update_keeps_removed_attr :
    translateUpdateItem (noteRequest ["note"] none) sampleSchema = .ok (notePlan ["note"] none) ∧
    (handleUpdateItem sampleSchema PgTable.empty (noteRequest ["note"] none)).map
        (fun r => (r.1.rows (.text "o2", none)).map PgRow.data)
      = .ok (some (Item.toValue (OrderedMap.ofList [("id", .s "o2"), ("note", .s "x")]))) ∧
    applyUpdateExpression none (noteRequest ["note"] none).expression
        (noteRequest ["note"] none).key
      = .ok (Item.toValue (OrderedMap.ofList [("id", .s "o2")])) :=
  ⟨rfl, rfl, rfl⟩

/-- The inputs on which a conditional fast path does what the evaluators say. On the insert-only
path these are the conditions of the unconditional upsert, without its UPDATE branch. The UPDATE
needs a condition that is false without a row, and one that does not turn on an unknown comparison
under NOT with a row; a row it is to write must be one that PostgreSQL takes. -/
def ConditionalFastPathFits (schema : TableSchema) (req : UpdateItemRequest) (plan : UpdateItemPlan)
    (cp : ConditionPlan) (existing : Option Item) : Prop :=
  match cp.routing with
  | .insertOnlyOnPk =>
    let item := req.key.insertAll req.expression.literals
    (existing.isSome = true ∨
      ∀ n ∈ req.expression.removeNames, n ∉ req.expression.literals.map Prod.fst) ∧
    bindable [.jsonb (Item.toValue item)] = true ∧ schema.fillable item = true ∧
    (existing = none → schema.storable item = true)
  | .simpleSql =>
    bindable (conditionalParams plan req.expression cp.condition) = true ∧
    match existing with
    | none => evaluateCondition none cp.condition = false
    | some item =>
      evaluateUnknownAsTrueUnderNot item cp.condition
        = evaluateCondition (some (Item.toValue item)) cp.condition ∧
      (evaluateCondition (some (Item.toValue item)) cp.condition = true →
        schema.storable (req.expression.simpleUpdate item) = true)
  | .needsTx => True

theorem isNotExistsOnPk_of_routing {c : Condition}
    (h : classifyCondition c schema = .insertOnlyOnPk) :
    ∃ p, c = .attributeNotExists p ∧ p.topName = some schema.pkAttr := by
  unfold classifyCondition at h
  split at h
  next hpk =>
    unfold isNotExistsOnPk at hpk
    split at hpk
    next p => exact ⟨p, rfl, by simpa using hpk⟩
    next => cases hpk
  next =>
    split at h <;> cases h

theorem get_pk_of_generatedKey {bk : BaseKey} {data : Json} (h : generatedKey bk data = .ok k) :
    ∃ v, data.get bk.pkCol = some v := by
  obtain ⟨pk, hpk, _⟩ := bind_ok h
  obtain ⟨col, hcol, hsome⟩ := bind_ok hpk
  rcases hv : data.get bk.pkCol with _ | v
  · simp only [extractCol, extractText, hv, Option.bind_none, Except.ok.injEq] at hcol
    subst hcol
    cases hsome
  · exact ⟨v, rfl⟩

theorem evaluate_notExists_pk {p : Path} (hp : p.topName = some schema.pkAttr)
    (hrow : (t.rows k).map PgRow.data = existing.map Item.toValue) :
    evaluateCondition (existing.map Item.toValue) (.attributeNotExists p) = existing.isNone := by
  rcases existing with _ | item
  · simp [evaluateCondition, hp]
  · obtain ⟨row, hr, hd⟩ : ∃ row, t.rows k = some row ∧ row.data = Item.toValue item := by
      simpa using hrow
    obtain ⟨v, hv⟩ := get_pk_of_generatedKey (t.keyed k row hr)
    have hv' : (Item.toValue item).get schema.pkAttr = some v := by
      rw [← hd]
      exact hv
    simp only [evaluateCondition, hp, Option.map_some, Option.any_some, Option.bind_some, hv']
    rfl

section ConditionalPaths

variable {cp : ConditionPlan} (h : translateUpdateItem req schema = .ok plan)
  (hcond : plan.condition = some cp) (hs : plan.expression.isSimple)
  (hk : addressedKey plan.pk plan.sk = .ok k)
  (hrow : (t.rows k).map PgRow.data = existing.map Item.toValue)

include h hcond hs hk hrow

theorem insertOnly_follows_iff (hroute : cp.routing = .insertOnlyOnPk) :
    FollowsEvaluator schema t req k ↔ ConditionalFastPathFits schema req plan cp existing := by
  have ha := translateUpdateItem_accepted h
  have hs' : req.expression.isSimple = true := by rw [← ha.expression, hs]
  obtain ⟨hreq, hclass, _⟩ := translateCondition_some (by rw [ha.condition, hcond])
  obtain ⟨p, hc, hp⟩ := isNotExistsOnPk_of_routing (hclass.symm.trans hroute)
  have hslow : needsSlowPath plan = false := by simp [needsSlowPath, hs, hcond, hroute]
  have hfast : handleUpdateItem schema t req = stored (updateInsertOnlyRaw schema.writeShape t
      (Item.toValue (req.key.insertAll req.expression.literals))) := by
    rw [handleUpdateItem_fast h hslow, dispatchFastPath, hcond]
    simp only [hroute, materializeInsertOnlyUpdate, hs, hcond, buildInsertItem_eq ha]
    rfl
  simp only [ConditionalFastPathFits, hroute]
  rw [followsEvaluator_iff hs' hrow, hreq, hc, Option.all_some, evaluate_notExists_pk hp hrow, hfast]
  have hrows : t.rows k = none ↔ existing = none := by
    rcases existing with _ | item <;> rcases hr : t.rows k with _ | row <;> simp_all
  rw [← hrows]
  rcases updateInsertOnlyRaw_cases ha hk t with
    ⟨hno, e, he⟩ | ⟨htaken, hr, he⟩ | ⟨htaken, hr, t', outcome, he, hwrote⟩
  · rw [he]
    exact iff_of_false not_checkedWrite_pgError fun hall => hno hall.2
  · obtain ⟨item, rfl⟩ := Option.ne_none_iff_exists'.mp (mt hrows.mpr hr)
    rw [he, checkedWrite_failed_iff, and_iff_left htaken]
    simp
  · obtain rfl := hrows.mp hr
    rw [he, checkedWrite_ok_iff hwrote, Option.getD_none, simpleUpdate_key_eq_iff ha,
      and_iff_left htaken]
    simp

theorem simpleSql_follows_iff (hroute : cp.routing = .simpleSql)
    (hcollate : schema.rules.collate = compare) (hexact : cp.condition.Exact)
    (hitem : ∀ item, existing = some item → ExactItem item) :
    FollowsEvaluator schema t req k ↔ ConditionalFastPathFits schema req plan cp existing := by
  have ha := translateUpdateItem_accepted h
  have hs' : req.expression.isSimple = true := by rw [← ha.expression, hs]
  obtain ⟨hreq, hclass, htop⟩ := translateCondition_some (by rw [ha.condition, hcond])
  have hfits := conditionFitsSql_of_simpleSql (hclass.symm.trans hroute)
  have hslow : needsSlowPath plan = false := by simp [needsSlowPath, hs, hcond, hroute]
  have hfast : handleUpdateItem schema t req = stored (updateWithSimpleConditionRaw
      schema.writeShape t plan.pk plan.sk
      (Entries.mapVals AttributeValue.toValue req.expression.literals) req.expression.removeNames
      cp.condition) := by
    rw [handleUpdateItem_fast h hslow, dispatchFastPath, hcond]
    simp only [hroute, materializeSimpleSqlUpdate, hs, hcond, sets_eq ha]
    rfl
  simp only [ConditionalFastPathFits, hroute]
  rw [followsEvaluator_iff hs' hrow, hreq, Option.all_some, hfast]
  have hcases := updateWithSimpleConditionRaw_cases ha hfits htop hcollate hk hrow
    fun item hsome => numerals_of_exact (hitem item hsome) hexact
  generalize updateWithSimpleConditionRaw _ _ _ _ _ _ _ = result at hcases ⊢
  by_cases hbind : bindable (conditionalParams plan req.expression cp.condition)
  swap
  · rw [if_neg hbind] at hcases
    obtain ⟨e, rfl⟩ := hcases
    exact iff_of_false not_checkedWrite_pgError fun hall => hbind hall.1
  rw [if_pos hbind] at hcases
  rw [and_iff_right hbind]
  rcases existing with _ | item
  · obtain rfl : result = _ := hcases.1 rfl
    exact checkedWrite_failed_iff
  · have hcases := hcases.2 item rfl
    rw [sqlReading_of_exact (hitem item rfl) hexact] at hcases
    simp only [Option.map_some, Option.getD_some] at hcases ⊢
    by_cases hsql : evaluateUnknownAsTrueUnderNot item cp.condition
    swap
    · rw [if_neg hsql] at hcases
      subst hcases
      rw [checkedWrite_failed_iff, Bool.eq_false_of_not_eq_true hsql]
      exact ⟨fun hev => ⟨hev.symm, fun hyes => by rw [hev] at hyes; cases hyes⟩,
        fun hall => hall.1.symm⟩
    rw [if_pos hsql] at hcases
    rw [hsql]
    rcases hcases with ⟨hst, t', outcome, rfl, hwrote⟩ | ⟨hst, e, rfl⟩
    · rw [checkedWrite_ok_iff hwrote]
      exact ⟨fun hev => ⟨hev.1.symm, fun _ => hst⟩, fun hall => ⟨hall.1.symm, rfl⟩⟩
    · refine iff_of_false not_checkedWrite_pgError fun hall => ?_
      rw [hall.2 hall.1.symm] at hst
      cases hst

end ConditionalPaths

def orderTwo : Item := OrderedMap.ofList [("id", .s "o2")]

def orderTwoTable : sampleSchema.Table :=
  .ofRows [((.text "o2", none), ⟨Item.toValue orderTwo, nullCols⟩)] (by
    intro e he
    rw [List.mem_singleton.mp he]
    rfl)

/-- `NOT (id = o1 AND tag = x)`: the missing `tag` is decided by the false left side. -/
def notOrderOne : Condition :=
  .not (.and (.compare .eq (.path (.attr "id")) (.value (.s "o1")))
    (.compare .eq (.path (.attr "tag")) (.value (.s "x"))))

end Rektifier
