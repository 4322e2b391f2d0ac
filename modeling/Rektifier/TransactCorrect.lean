import Rektifier.TransactSteps

namespace Rektifier

variable {expression : UpdateExpression} {m : SchemaMap} {p : TransactWritePlanItem}
  {op : TransactWriteOp} {k : PgKey}

theorem generatedKey_of_get {schema : TableSchema} {data data' : Json}
    (h : ∀ n, schema.isKeyAttr n → data.get n = data'.get n) :
    generatedKey schema.writeShape.baseKey data = generatedKey schema.writeShape.baseKey data' :=
  generatedKey_congr (h _ (isKeyAttr_pk schema)) fun _ _ hs => h _ (isKeyAttr_sk hs)

/-- An accepted expression keeps the row's key. -/
theorem generatedKey_applyUpdate {schema : TableSchema} {key : Item}
    {new : Json} (hchecked : checkExpression schema expression = .ok ())
    (hgen : generatedKey schema.writeShape.baseKey (Item.toValue key) = .ok k) (t : schema.Table)
    (happly : applyUpdateExpression (t.items k) expression key = .ok new) :
    generatedKey schema.writeShape.baseKey new = .ok k := by
  rw [generatedKey_of_get fun n hn => applyUpdateExpression_get hchecked happly hn]
  rcases hrow : t.rows k with _ | row
  · rw [PgTable.items, hrow]
    exact hgen
  · rw [PgTable.items, hrow]
    exact t.keyed k row hrow

/-- What an operation is to leave under its key, `none` when it is refused. -/
def TransactWritePlanItem.leftover (p : TransactWritePlanItem) (schema : TableSchema)
    (existing : Option Json) : Option (Option Json) :=
  (p.result existing).filter (p.fits schema)

section

variable {schema : TableSchema} {existing : Option Json}

theorem leftover_put {item : Item} (hkind : p.kind = .put item) : p.leftover schema existing =
    if p.holds existing && storable schema.writeShape.baseKey schema.dualWriteCols (Item.toValue item)
      then some (some (Item.toValue item)) else none := by
  simp only [TransactWritePlanItem.leftover, TransactWritePlanItem.result, hkind]
  cases p.holds existing <;>
    simp [Option.filter, TransactWritePlanItem.fits, hkind, TransactWriteKind.writes]

theorem leftover_delete (hkind : p.kind = .delete) : p.leftover schema existing =
    if p.holds existing then some none else none := by
  simp only [TransactWritePlanItem.leftover, TransactWritePlanItem.result, hkind]
  cases p.holds existing <;>
    simp [Option.filter, TransactWritePlanItem.fits, hkind, TransactWriteKind.writes]

theorem leftover_conditionCheck (hkind : p.kind = .conditionCheck) : p.leftover schema existing =
    if p.holds existing then some existing else none := by
  simp only [TransactWritePlanItem.leftover, TransactWritePlanItem.result, hkind]
  cases p.holds existing <;>
    simp [Option.filter, TransactWritePlanItem.fits, hkind, TransactWriteKind.writes]

theorem leftover_update {key : Item} {new : Json}
    (hkind : p.kind = .update expression key) (hholds : p.holds existing)
    (happly : applyUpdateExpression existing expression key = .ok new) :
    p.leftover schema existing =
      if storable schema.writeShape.baseKey schema.dualWriteCols new then some (some new) else none := by
  simp [TransactWritePlanItem.leftover, TransactWritePlanItem.result, TransactWritePlanItem.fits,
    hkind, TransactWriteKind.writes, hholds, happly, Except.toOption, Option.filter]

theorem leftover_not_holds (hholds : p.holds existing = false) :
    p.leftover schema existing = none := by
  simp [TransactWritePlanItem.leftover, TransactWritePlanItem.result, hholds]

end

section

variable (ha : AcceptedOp m p) (hk : addressedKey p.pk p.sk = .ok k)
  (t : (m.schema p.tableName).Table)

include ha hk

theorem AcceptedOp.put_leaves {item : Item} (hkind : p.kind = .put item) :
    Leaves t k (p.leftover (m.schema p.tableName) (t.items k))
      (TransactAction.run (m.schema p.tableName).writeShape t p.pk p.sk
        (.put (Item.toValue item) (p.condition.map conditionFn))) := by
  have hgen := (ha.put item hkind).trans hk
  rw [leftover_put hkind, TransactWritePlanItem.holds]
  rcases p.condition with _ | cond
  · exact putItemInsideTx_leaves ha.fits t hk hgen
  · exact putWithConditionInsideTx_leaves ha.fits t hk hgen (conditionFn cond)

theorem AcceptedOp.delete_leaves (hkind : p.kind = .delete) :
    Leaves t k (p.leftover (m.schema p.tableName) (t.items k))
      (TransactAction.run (m.schema p.tableName).writeShape t p.pk p.sk
        (.delete (p.condition.map conditionFn))) := by
  rw [leftover_delete hkind, TransactWritePlanItem.holds]
  rcases p.condition with _ | cond
  · exact deleteItemInsideTx_leaves ha.fits t hk
  · exact deleteWithConditionInsideTx_leaves ha.fits t hk (conditionFn cond)

theorem AcceptedOp.update_leaves {key : Item}
    (hkind : p.kind = .update expression key) :
    Leaves t k (p.leftover (m.schema p.tableName) (t.items k))
      (TransactAction.run (m.schema p.tableName).writeShape t p.pk p.sk
        (.update (updateFn p.condition expression key))) := by
  have hany : (p.condition.any fun c => !conditionFn c (t.items k)) = !p.holds (t.items k) := by
    rw [TransactWritePlanItem.holds]
    cases p.condition <;> rfl
  cases hholds : p.holds (t.items k) with
  | false =>
    rw [leftover_not_holds hholds]
    refine updateGeneralRmwInsideTx_refused ha.fits t hk ?_
    intro new h
    rw [updateFn, hany, hholds] at h
    cases h
  | true =>
    rcases happly : applyUpdateExpression (t.items k) expression key with e | new
    · have hnone : p.leftover (m.schema p.tableName) (t.items k) = none := by
        simp [TransactWritePlanItem.leftover, TransactWritePlanItem.result, hkind, hholds, happly,
          Except.toOption]
      rw [hnone]
      refine updateGeneralRmwInsideTx_refused ha.fits t hk ?_
      intro new h
      rw [updateFn, hany, hholds, happly] at h
      cases h
    · have hdecide : updateFn p.condition expression key (t.items k) = .ok (.apply new) := by
        rw [updateFn, hany, hholds, happly]
        rfl
      rw [leftover_update hkind hholds happly]
      obtain ⟨hgen, hchecked⟩ := ha.update expression key hkind
      exact updateGeneralRmwInsideTx_leaves ha.fits t hk hdecide
        (generatedKey_applyUpdate hchecked (hgen.trans hk) t happly)

/-- The handler's action leaves what the operation makes of the item. -/
theorem AcceptedOp.run_leaves (hop : p.op? = some op) :
    Leaves t k (p.leftover (m.schema p.tableName) (t.items k))
      (op.action.run (m.schema p.tableName).writeShape t p.pk p.sk) := by
  unfold TransactWritePlanItem.op? at hop
  split at hop
  next item hkind =>
    cases hop
    exact ha.put_leaves hk t hkind
  next hkind =>
    cases hop
    exact ha.delete_leaves hk t hkind
  next hkind =>
    obtain ⟨cond, hcond, hop⟩ := Option.map_eq_some_iff.mp hop
    obtain ⟨plan, hplan, rfl⟩ := Option.map_eq_some_iff.mp hcond
    cases hop
    rw [leftover_conditionCheck hkind, TransactWritePlanItem.holds, hplan]
    exact conditionCheckInsideTx_leaves ha.fits t hk (conditionFn plan)
  next expression key hkind =>
    cases hop
    exact ha.update_leaves hk t hkind

end

theorem apply_eq_leftover (σ : Items) (hk : addressedKey p.pk p.sk = .ok k) :
    p.apply m σ = (p.leftover (m.schema p.tableName) (σ p.tableName k)).map
      (σ.set p.tableName k) := by
  simp only [TransactWritePlanItem.apply, hk, Except.toOption, TransactWritePlanItem.leftover,
    Option.bind_eq_bind, Option.bind_some]
  rcases p.result (σ p.tableName k) with _ | v
  · rfl
  · simp only [Option.bind_some, Option.filter]
    split <;> rfl

theorem items_update (db : Database m) {name : String} {t : (m.schema name).Table}
    {v : Option Json} (h : t.items = Function.update (db name).items k v) :
    Database.items (Function.update db name t) = db.items.set name k v := by
  funext name'
  by_cases hname : name' = name
  · subst hname
    rw [Database.items, Items.set, Function.update_self, Function.update_self, h]
    rfl
  · rw [Database.items, Items.set, Function.update_of_ne hname, Function.update_of_ne hname]
    rfl

theorem AcceptedOp.run_apply (ha : AcceptedOp m p) (hop : p.op? = some op) (db : Database m) :
    (∃ db', op.run db none = .ok db' ∧ p.apply m db.items = some (Database.items db')) ∨
    (∃ e, op.run db none = .error e ∧ p.apply m db.items = none) := by
  have htarget : op.tableName = p.tableName ∧ op.pk = p.pk ∧ op.sk = p.sk := by
    unfold TransactWritePlanItem.op? at hop
    split at hop
    case h_3 =>
      obtain ⟨cond, _, hop⟩ := Option.map_eq_some_iff.mp hop
      cases hop
      exact ⟨rfl, rfl, rfl⟩
    all_goals
      cases hop
      exact ⟨rfl, rfl, rfl⟩
  obtain ⟨tableName, pk, sk, action⟩ := op
  obtain ⟨rfl, rfl, rfl⟩ := htarget
  simp only [TransactWriteOp.run]
  rcases hk : addressedKey p.pk p.sk with e | k
  · right
    obtain ⟨err, herr⟩ := run_refused ha.fits (db p.tableName) hk action
    refine ⟨err, by rw [herr]; rfl, ?_⟩
    simp [TransactWritePlanItem.apply, hk, Except.toOption]
  · have hleaves := ha.run_leaves hk (db p.tableName) hop
    rw [apply_eq_leftover db.items hk]
    change Leaves _ k (p.leftover _ (db.items p.tableName k)) _ at hleaves
    rcases hleft : p.leftover (m.schema p.tableName) (db.items p.tableName k) with _ | v
    · rw [hleft] at hleaves
      obtain ⟨e, he⟩ := hleaves
      exact .inr ⟨e, by rw [he]; rfl, rfl⟩
    · rw [hleft] at hleaves
      obtain ⟨t', ht, hitems⟩ := hleaves
      refine .inl ⟨Function.update db p.tableName t', by rw [ht]; rfl, ?_⟩
      rw [items_update db hitems]
      rfl

end Rektifier
