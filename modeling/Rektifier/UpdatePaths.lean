import Rektifier.UpdateStatements

namespace Rektifier

open List

variable {k : PgKey} {req : UpdateItemRequest} {schema : TableSchema} {plan : UpdateItemPlan}
variable {shape : TableShape} {pk : KeyValue} {sk : Option KeyValue}

theorem isKeyAttr_pk (schema : TableSchema) : schema.isKeyAttr schema.pkAttr := by
  simp [TableSchema.isKeyAttr]

theorem isKeyAttr_sk {schema : TableSchema} {col : String} {t : KeyType}
    (h : schema.sk = some (col, t)) : schema.isKeyAttr col := by
  simp [TableSchema.isKeyAttr, h]

theorem generatedKey_of_key_attrs {item item' : Item}
    (h : ∀ n, schema.isKeyAttr n → item.get n = item'.get n) :
    generatedKey schema.writeShape.baseKey (Item.toValue item)
      = generatedKey schema.writeShape.baseKey (Item.toValue item') := by
  apply generatedKey_congr
  · rw [Item.get_toValue, Item.get_toValue]
    exact congrArg _ (h _ (isKeyAttr_pk schema))
  · intro col t hs
    rw [Item.get_toValue, Item.get_toValue]
    exact congrArg _ (h col (isKeyAttr_sk hs))

theorem insertAll_key_attrs (ha : AcceptedUpdate req schema plan) (item : Item) {n : String}
    (hn : schema.isKeyAttr n) :
    (item.insertAll req.expression.literals).get n = item.get n := by
  apply OrderedMap.get_insertAll_of_not_mem
  intro hmem
  rw [literals_not_key ha.checked n hmem] at hn
  cases hn

theorem simpleUpdate_key_attrs (ha : AcceptedUpdate req schema plan) (item : Item) {n : String}
    (hn : schema.isKeyAttr n = true) : (req.expression.simpleUpdate item).get n = item.get n := by
  rw [UpdateExpression.simpleUpdate, OrderedMap.get_eraseAll_of_not_mem,
    insertAll_key_attrs ha item hn]
  intro hmem
  rw [removeNames_not_key ha.checked n hmem] at hn
  cases hn

theorem generatedKey_insertItem (ha : AcceptedUpdate req schema plan) :
    generatedKey schema.writeShape.baseKey
      (Item.toValue (req.key.insertAll req.expression.literals)) = addressedKey plan.pk plan.sk := by
  rw [← (extractKeyPair_spec ha.key).2]
  exact generatedKey_of_key_attrs fun n hn => insertAll_key_attrs ha req.key hn

theorem generatedKey_simpleUpdate (ha : AcceptedUpdate req schema plan) {item : Item}
    (hk : generatedKey schema.writeShape.baseKey (Item.toValue item) = .ok k) :
    generatedKey schema.writeShape.baseKey (Item.toValue (req.expression.simpleUpdate item))
      = .ok k := by
  rw [← hk]
  exact generatedKey_of_key_attrs fun n hn => simpleUpdate_key_attrs ha item hn

theorem buildInsertItem_eq (ha : AcceptedUpdate req schema plan) :
    buildInsertItem plan req.key
      = Item.toValue (req.key.insertAll req.expression.literals) := by
  rw [buildInsertItem, ha.expression, Item.toValue, OrderedMap.entries_insertAll,
    Entries.mapVals_insertAll]

/-- REMOVE changes nothing on the inserted item exactly when no removed attribute is set. -/
theorem simpleUpdate_key_eq_iff (ha : AcceptedUpdate req schema plan) :
    Item.toValue (req.key.insertAll req.expression.literals)
        = Item.toValue (req.expression.simpleUpdate req.key)
      ↔ ∀ n ∈ req.expression.removeNames, n ∉ req.expression.literals.map Prod.fst := by
  constructor
  · intro h n hn hset
    obtain ⟨v, hv⟩ := Entries.get_insertAll_of_mem hset req.key.entries
    have hl : (Item.toValue (req.key.insertAll req.expression.literals)).get n
        = some v.toValue := by
      rw [Item.get_toValue, OrderedMap.get, OrderedMap.entries_insertAll, hv]
      rfl
    have hr : (Item.toValue (req.expression.simpleUpdate req.key)).get n = none := by
      rw [Item.get_toValue, OrderedMap.get, UpdateExpression.simpleUpdate,
        OrderedMap.entries_eraseAll, Entries.get_eraseAll_of_mem hn]
      rfl
    rw [h, hr] at hl
    cases hl
  · intro h
    have hkeys : ∀ n ∈ req.expression.removeNames, n ∉ req.key.keys := by
      intro n hn hmem
      have := ha.onlyKeys n hmem
      rw [removeNames_not_key ha.checked n hn] at this
      cases this
    rw [UpdateExpression.simpleUpdate, OrderedMap.eraseAll_insertAll_of_disjoint hkeys h]

theorem sets_eq (ha : AcceptedUpdate req schema plan) : buildSetsRemoves plan =
    (Entries.mapVals AttributeValue.toValue req.expression.literals, req.expression.removeNames) := by
  rw [buildSetsRemoves, ha.expression]

theorem checkSkShape_ok
    (hfit : KeyFits shape.baseKey pk sk) : checkSkShape shape sk = .ok () := by
  have h := hfit.2
  simp only [TableShape.baseKey] at h
  unfold checkSkShape
  split <;> simp_all

theorem keyPredicate_eq (hfit : KeyFits shape.baseKey pk sk) (first : Nat) :
    shape.keyPredicate first = ⟨first, sk.map fun _ => first + 1⟩ := by
  have h := hfit.2
  simp only [TableShape.baseKey] at h
  rcases hs : shape.sk with _ | x <;> rcases sk with _ | y <;>
    simp_all [TableShape.keyPredicate]

theorem insertParamIdx_eq (hfit : KeyFits shape.baseKey pk sk) :
    shape.insertParamIdx = (keyParams pk sk).length + 1 := by
  have h := hfit.2
  simp only [TableShape.baseKey] at h
  rcases hs : shape.sk with _ | x <;> rcases sk with _ | y <;>
    simp_all [TableShape.insertParamIdx, keyParams]

/-- The upsert with its placeholders counted from the bound parameters. -/
theorem buildUpdateSql_eq
    (hfit : KeyFits shape.baseKey pk sk) (nSets nRemoves : Nat) (item : Json) :
    buildUpdateSql shape nSets nRemoves =
      { prev := ⟨1, sk.map fun _ => 2⟩
        insert := .param ((keyParams pk sk).length + 1)
        doUpdate := removeChain ((keyParams pk sk ++ [Param.jsonb item]).length + 1 + 2 * nSets) nRemoves
          (setChain ((keyParams pk sk ++ [Param.jsonb item]).length + 1) nSets .data)
        cols := shape.dualWriteCols } := by
  rw [buildUpdateSql, insertParamIdx_eq hfit, keyPredicate_eq hfit, length_append]
  rfl

/-- The `jsonb_set` / `-` chain writes the SETs and takes the REMOVEs out. -/
theorem chain_eval_obj (sets : List (String × Json)) (removes : List String)
    (members : List (String × Json)) (pre post : List Param) :
    (removeChain (pre.length + 1 + 2 * sets.length) removes.length
        (setChain (pre.length + 1) sets.length .data)).eval
      (pre ++ setParams sets ++ removes.map Param.text ++ post) (.obj members)
      = .ok (.obj (Entries.eraseAll (Entries.insertAll members sets) removes)) := by
  have hset := setChain_eval pre (removes.map Param.text ++ post) (.obj members) sets (e := .data) rfl
  rw [← append_assoc] at hset
  have hremove := removeChain_eval hset
  rw [length_append, length_setParams, Nat.add_right_comm] at hremove
  exact hremove

/-- The chain over an item is the simple update of the item. -/
theorem chain_eval (e : UpdateExpression) (item : Item) (pre post : List Param) :
    (removeChain (pre.length + 1 + 2 * e.literals.length) e.removeNames.length
        (setChain (pre.length + 1) e.literals.length .data)).eval
      (pre ++ setParams (Entries.mapVals AttributeValue.toValue e.literals)
        ++ e.removeNames.map Param.text ++ post) (Item.toValue item)
      = .ok (Item.toValue (e.simpleUpdate item)) := by
  have hlen : (Entries.mapVals AttributeValue.toValue e.literals).length = e.literals.length := by
    simp [Entries.mapVals]
  have hchain := chain_eval_obj (Entries.mapVals AttributeValue.toValue e.literals) e.removeNames
    (Entries.mapVals AttributeValue.toValue item.entries) pre post
  rw [hlen] at hchain
  rw [UpdateExpression.simpleUpdate, Item.toValue_update]
  exact hchain

/-- A missing row gets the key with the SET values, a stored item its simple update. Parameters that
do not bind, an inserted item whose columns cannot be computed and a row that cannot be stored fail
the statement. -/
theorem updateSimpleRaw_cases (ha : AcceptedUpdate req schema plan)
    (hk : addressedKey plan.pk plan.sk = .ok k) {t : schema.Table} {existing : Option Item}
    (hrow : (t.rows k).map PgRow.data = existing.map Item.toValue) :
    let item := req.key.insertAll req.expression.literals
    let target := (existing.map req.expression.simpleUpdate).getD item
    let sets := Entries.mapVals AttributeValue.toValue req.expression.literals
    let result := updateSimpleRaw schema.writeShape t plan.pk plan.sk (Item.toValue item) sets
      req.expression.removeNames
    let taken := bindable (updateSimpleParams plan.pk plan.sk (Item.toValue item) sets
      req.expression.removeNames) ∧ schema.fillable item ∧ schema.storable target
    (taken ∧ ∃ t' outcome, result = .ok (t', outcome) ∧ WroteItem t t' k (Item.toValue target)) ∨
    (¬ taken ∧ ∃ e, result = .error (.pgError e)) := by
  intro item target sets result taken
  obtain ⟨hfit, _⟩ := extractKeyPair_spec ha.key
  have hgen := generatedKey_insertItem ha
  rw [hk] at hgen
  let pre := keyParams plan.pk plan.sk ++ [.jsonb (Item.toValue item)]
  let tail := setParams (Entries.mapVals AttributeValue.toValue req.expression.literals)
    ++ req.expression.removeNames.map Param.text
  obtain ⟨stmt, hstmt⟩ : ∃ stmt, buildUpdateSql schema.writeShape req.expression.literals.length
    req.expression.removeNames.length = stmt := ⟨_, rfl⟩
  have hparts := hstmt.symm.trans (buildUpdateSql_eq hfit _ _ (Item.toValue item))
  have hprev : stmt.prev.eval schema.writeShape.baseKey (pre ++ tail) = .ok k := by
    have h := keyPredicate_eval hfit [] ([.jsonb (Item.toValue item)] ++ tail)
    rw [hk, nil_append, ← append_assoc] at h
    rw [hparts]
    exact h
  have hinsert : stmt.insert.eval (pre ++ tail) .null = .ok (Item.toValue item) := by
    have h := jsonbArg_append (keyParams plan.pk plan.sk) tail (Item.toValue item)
    rw [← singleton_append, ← append_assoc] at h
    rw [hparts]
    exact h
  have hnew : t.rows k = none → Item.toValue target = Item.toValue item := by
    intro hnone
    rw [hnone, Option.map_none] at hrow
    rw [show target = item by simp only [target, Option.map_eq_none_iff.mp hrow.symm]; rfl]
  have hupdate : ∀ row, t.rows k = some row →
      stmt.doUpdate.eval (pre ++ tail) row.data = .ok (Item.toValue target) ∧
      generatedKey schema.writeShape.baseKey (Item.toValue target) = .ok k := by
    intro row hr
    obtain ⟨stored, rfl, hd⟩ : ∃ stored, existing = some stored ∧ Item.toValue stored = row.data := by
      rw [hr, Option.map_some] at hrow
      exact Option.map_eq_some_iff.mp hrow.symm
    have hstored := t.keyed k row hr
    rw [← hd] at hstored
    refine ⟨?_, generatedKey_simpleUpdate ha hstored⟩
    have h := chain_eval req.expression stored pre []
    rw [append_nil, append_assoc] at h
    rw [hparts, ← hd]
    exact h
  have hparams : updateSimpleParams plan.pk plan.sk (Item.toValue item) sets
      req.expression.removeNames = pre ++ tail := append_assoc ..
  have hcols : stmt.cols = schema.dualWriteCols := by
    rw [hparts]
    rfl
  have hlen : sets.length = req.expression.literals.length := by simp [sets, Entries.mapVals]
  by_cases hbind : bindable (updateSimpleParams plan.pk plan.sk (Item.toValue item) sets
      req.expression.removeNames)
  · have hok : bindParams (pre ++ tail) = .ok () := by rw [← hparams, bindParams, if_pos hbind]
    have hresult : result = (pgResult (stmt.exec (pre ++ tail) t)).map
        fun r => (r.1, ⟨r.2.1, r.2.2⟩) := by
      simp only [result, updateSimpleRaw, checkSkShape_ok hfit, hlen, hstmt, hparams, hok]
      cases stmt.exec (pre ++ tail) t <;> rfl
    rcases upsertSql_exec hprev hinsert hgen hnew hupdate with
      ⟨hs, hu, t', r, hexec, hwrote⟩ | ⟨hno, e, hexec⟩
    · rw [hcols] at hs hu
      refine .inl ⟨⟨hbind, hs, hu⟩, t', ⟨r.1, r.2⟩, ?_, hwrote⟩
      rw [hresult, hexec]
      rfl
    · rw [hcols] at hno
      refine .inr ⟨fun htaken => hno htaken.2, e, ?_⟩
      rw [hresult, hexec]
      rfl
  · refine .inr ⟨fun htaken => hbind htaken.1, .unbindable, ?_⟩
    simp only [result, updateSimpleRaw, checkSkShape_ok hfit, bindParams, hbind]
    rfl

/-- What is bound before the condition is compiled. -/
theorem bindUpdate_eq (pk : KeyValue) (sk : Option KeyValue) (sets : List (String × Json))
    (removes : List String) :
    (bindUpdate pk sk sets removes).1 = removeChain ((keyParams pk sk).length + 1 + 2 * sets.length)
        removes.length (setChain ((keyParams pk sk).length + 1) sets.length .data) ∧
    (bindUpdate pk sk sets removes).2.params
      = keyParams pk sk ++ setParams sets ++ removes.map Param.text := by
  obtain ⟨_, hkeys⟩ := bindKeys_eq pk sk
  obtain ⟨hset, hsetp⟩ := bindSets_eq (bindKeys pk sk).2 .data sets
  obtain ⟨hrem, hremp⟩ := bindRemoves_eq (bindSets (bindKeys pk sk).2 .data sets).2
    (bindSets (bindKeys pk sk).2 .data sets).1 removes
  constructor
  · rw [bindUpdate, hrem, hset, hsetp, hkeys, length_append, length_setParams,
      Nat.add_right_comm]
  · rw [bindUpdate, hremp, hsetp, hkeys]

/-- Those of the compiled condition come last. -/
def conditionalParams (plan : UpdateItemPlan) (e : UpdateExpression) (c : Condition) : List Param :=
  match compileCondition (bindUpdate plan.pk plan.sk
      (Entries.mapVals AttributeValue.toValue e.literals) e.removeNames).2 c with
  | .ok (_, b) => b.params
  | .error _ => []

/-- A missing row, and a stored item by the SQL reading of the condition, where texts are ordered
bytewise and the numerals it casts are well-formed. -/
theorem updateWithSimpleConditionRaw_cases (ha : AcceptedUpdate req schema plan) {c : Condition}
    (hfit : conditionFitsSql c) (htop : checkConditionPathsTopLevel c = .ok ())
    (hcollate : schema.rules.collate = compare)
    (hk : addressedKey plan.pk plan.sk = .ok k) {t : schema.Table} {existing : Option Item}
    (hrow : (t.rows k).map PgRow.data = existing.map Item.toValue)
    (hnum : ∀ item, existing = some item → (c.numerals item).all isNumeral) :
    let result := updateWithSimpleConditionRaw schema.writeShape t plan.pk plan.sk
      (Entries.mapVals AttributeValue.toValue req.expression.literals) req.expression.removeNames c
    if bindable (conditionalParams plan req.expression c) then
      (existing = none → result = .error .conditionalCheckFailed) ∧
      ∀ item, existing = some item →
        if sqlReading item c then
          (schema.storable (req.expression.simpleUpdate item) = true ∧
            ∃ t' outcome, result = .ok (t', outcome) ∧
              WroteItem t t' k (Item.toValue (req.expression.simpleUpdate item))) ∨
          (schema.storable (req.expression.simpleUpdate item) = false ∧
            ∃ e, result = .error (.pgError e))
        else result = .error .conditionalCheckFailed
    else ∃ e, result = .error (.pgError e) := by
  intro result
  obtain ⟨hkeys, _⟩ := extractKeyPair_spec ha.key
  have hlen : (Entries.mapVals AttributeValue.toValue req.expression.literals).length
      = req.expression.literals.length := by
    simp [Entries.mapVals]
  obtain ⟨hexpr, hparams⟩ := bindUpdate_eq plan.pk plan.sk
    (Entries.mapVals AttributeValue.toValue req.expression.literals) req.expression.removeNames
  rw [hlen] at hexpr
  obtain ⟨⟨cond, b⟩, hcompile⟩ := compileCondition_ok hfit htop (bindUpdate plan.pk plan.sk
    (Entries.mapVals AttributeValue.toValue req.expression.literals) req.expression.removeNames).2
  obtain ⟨ext, hext, _⟩ := compileCondition_emits OrderedMap.empty hfit hcompile
  rw [hparams] at hext
  have hbound : conditionalParams plan req.expression c = b.params := by
    rw [conditionalParams, hcompile]
  let stmt : UpdateWhereSql := ⟨⟨1, plan.sk.map fun _ => 2⟩, removeChain
    ((keyParams plan.pk plan.sk).length + 1 + 2 * req.expression.literals.length)
    req.expression.removeNames.length (setChain ((keyParams plan.pk plan.sk).length + 1)
      req.expression.literals.length .data), some cond, schema.dualWriteCols⟩
  have hresult : result = pgResult (bindParams b.params) >>= fun _ =>
      pgResult (stmt.exec b.params t) >>= updatedOrFailed := by
    simp only [result, updateWithSimpleConditionRaw, checkSkShape_ok hkeys, hcompile, hexpr,
      (bindKeys_eq plan.pk plan.sk).1]
    rfl
  have hkey : stmt.key.eval schema.writeShape.baseKey b.params = .ok k := by
    have h := keyPredicate_eval hkeys [] (setParams (Entries.mapVals AttributeValue.toValue
      req.expression.literals) ++ req.expression.removeNames.map Param.text ++ ext)
    rw [hk, nil_append] at h
    rw [hext, append_assoc, append_assoc, ← append_assoc (setParams _)]
    exact h
  rw [hbound]
  by_cases hbind : bindable b.params
  swap
  · rw [if_neg hbind]
    refine ⟨.unbindable, ?_⟩
    rw [hresult, bindParams, if_neg hbind]
    rfl
  rw [if_pos hbind]
  have hrun : result = pgResult (stmt.exec b.params t) >>= updatedOrFailed := by
    rw [hresult, bindParams, if_pos hbind]
    rfl
  refine ⟨?_, ?_⟩
  · rintro rfl
    have hnone : t.rows k = none := by simpa using hrow
    rw [hrun, updateWhereSql_exec_missing hkey hnone]
    rfl
  · rintro item rfl
    obtain ⟨row, hr, hd⟩ : ∃ row, t.rows k = some row ∧ row.data = Item.toValue item := by
      simpa using hrow
    have hstored := t.keyed k row hr
    rw [hd] at hstored
    have hset : stmt.set.eval b.params row.data
        = .ok (Item.toValue (req.expression.simpleUpdate item)) := by
      rw [hext, hd]
      exact chain_eval req.expression item (keyParams plan.pk plan.sk) ext
    have hsat := compileCondition_satisfied hfit (hnum item rfl) hcompile []
    rw [append_nil, ← hcollate, ← hd] at hsat
    have hpass : stmt.passes schema.writeShape.baseKey.rules.collate b.params row.data
        = .ok (sqlReading item c) := hsat
    have hexec := updateWhereSql_exec hkey hr hset (generatedKey_simpleUpdate ha hstored)
    rw [hpass] at hexec
    cases hread : sqlReading item c with
    | false =>
      rw [hread] at hexec
      have hskipped : stmt.exec b.params t = .ok none := hexec
      show result = .error .conditionalCheckFailed
      rw [hrun, hskipped]
      rfl
    | true =>
      rw [hread] at hexec
      rcases hexec with ⟨hu, t', r, hexec, hwrote⟩ | ⟨hu, e, hexec⟩
      · refine .inl ⟨hu, t', ⟨r.1, some r.2⟩, ?_, hwrote⟩
        rw [hrun, hexec]
        rfl
      · refine .inr ⟨hu, e, ?_⟩
        rw [hrun, hexec]
        rfl

/-- INSERT … DO NOTHING of the key with the SET values. -/
theorem updateInsertOnlyRaw_cases (ha : AcceptedUpdate req schema plan)
    (hk : addressedKey plan.pk plan.sk = .ok k) (t : schema.Table) :
    let item := req.key.insertAll req.expression.literals
    let result := updateInsertOnlyRaw schema.writeShape t (Item.toValue item)
    let taken := bindable [.jsonb (Item.toValue item)] ∧ schema.fillable item ∧
      (t.rows k = none → schema.storable item)
    (¬ taken ∧ ∃ e, result = .error (.pgError e)) ∨
    (taken ∧ t.rows k ≠ none ∧ result = .error .conditionalCheckFailed) ∨
    (taken ∧ t.rows k = none ∧
      ∃ t' outcome, result = .ok (t', outcome) ∧ WroteItem t t' k (Item.toValue item)) := by
  intro item result taken
  have hgen := generatedKey_insertItem ha
  rw [hk] at hgen
  by_cases hbind : bindable [.jsonb (Item.toValue item)]
  swap
  · refine .inl ⟨fun htaken => hbind htaken.1, .unbindable, ?_⟩
    simp only [result, updateInsertOnlyRaw, bindParams, if_neg hbind]
    rfl
  have hresult : result = pgResult ((buildInsertOnlySql schema.writeShape).exec
      [.jsonb (Item.toValue item)] t) >>= insertedOrFailed := by
    simp only [result, updateInsertOnlyRaw, bindParams, if_pos hbind]
    rfl
  have hinsert : (buildInsertOnlySql schema.writeShape).insert.eval [.jsonb (Item.toValue item)] .null
      = .ok (Item.toValue item) := rfl
  rcases insertOnlySql_exec hinsert hgen t with ⟨hs, e, he⟩ | ⟨hs, hr, he⟩ | ⟨hs, hr, t', he, hwrote⟩
  · refine .inl ⟨?_, e, by rw [hresult, he]; rfl⟩
    rintro ⟨_, hfill, hstore⟩
    rcases hs with hs | ⟨hr, hs⟩
    · cases hfill.symm.trans hs
    · cases (hstore hr).symm.trans hs
  · exact .inr (.inl ⟨⟨hbind, hs, fun hnone => absurd hnone hr⟩, hr, by rw [hresult, he]; rfl⟩)
  · have hfill : schema.fillable item := (Bool.and_eq_true_iff.mp hs).1
    exact .inr (.inr ⟨⟨hbind, hfill, fun _ => hs⟩, hr, t', ⟨Item.toValue item, none⟩,
      by rw [hresult, he]; rfl, hwrote⟩)

end Rektifier
