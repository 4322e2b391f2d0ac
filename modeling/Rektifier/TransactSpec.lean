import Rektifier.TransactWrite
import Rektifier.UpdateEffect
import Rektifier.UpdateSlowPath

namespace Rektifier

open Fallible Function

variable {ps : List TransactWritePlanItem}

abbrev Items := String → PgKey → Option Json

def PgTable.items {bk : BaseKey} (t : PgTable bk) (k : PgKey) : Option Json :=
  (t.rows k).map PgRow.data

def Database.items {m : SchemaMap} (db : Database m) : Items := fun name => (db name).items

def Items.set (σ : Items) (name : String) (k : PgKey) (v : Option Json) : Items :=
  update σ name (update (σ name) k v)

def TransactWritePlanItem.holds (p : TransactWritePlanItem) (existing : Option Json) : Bool :=
  p.condition.all fun c => conditionFn c existing

/-- `none` when the condition does not hold or the expression does not evaluate. -/
def TransactWritePlanItem.result (p : TransactWritePlanItem) (existing : Option Json) :
    Option (Option Json) :=
  if p.holds existing then
    match p.kind with
    | .put item => some (some (Item.toValue item))
    | .delete => some none
    | .conditionCheck => some existing
    | .update expression key => (applyUpdateExpression existing expression key).toOption.map some
  else none

def TransactWriteKind.writes : TransactWriteKind → Bool
  | .put _ | .update _ _ => true
  | .delete | .conditionCheck => false

def TransactWritePlanItem.fits (p : TransactWritePlanItem) (schema : TableSchema)
    (v : Option Json) : Bool :=
  !p.kind.writes || v.all (storable schema.writeShape.baseKey schema.dualWriteCols)

/-- One operation on the items; `none` when it is refused. -/
def TransactWritePlanItem.apply (m : SchemaMap) (p : TransactWritePlanItem) (σ : Items) :
    Option Items := do
  let k ← (addressedKey p.pk p.sk).toOption
  let v ← p.result (σ p.tableName k)
  if p.fits (m.schema p.tableName) v then some (σ.set p.tableName k v) else none

def applyAll (m : SchemaMap) (σ : Items) (ps : List TransactWritePlanItem) : Option Items :=
  ps.foldlM (fun σ p => p.apply m σ) σ

/-- What translation has established about one operation. -/
structure AcceptedOp (m : SchemaMap) (p : TransactWritePlanItem) : Prop where
  fits : KeyFits (m.schema p.tableName).writeShape.baseKey p.pk p.sk
  put : ∀ item, p.kind = .put item →
    generatedKey (m.schema p.tableName).writeShape.baseKey (Item.toValue item)
      = addressedKey p.pk p.sk
  check : p.kind = .conditionCheck → p.condition.isSome = true
  update : ∀ expression key, p.kind = .update expression key →
    generatedKey (m.schema p.tableName).writeShape.baseKey (Item.toValue key)
      = addressedKey p.pk p.sk ∧
    checkExpression (m.schema p.tableName) expression = .ok ()

variable {m : SchemaMap} {seen : List TransactTarget} {p : TransactWritePlanItem}

theorem SchemaMap.get_ok {name : String} {schema : TableSchema} (h : m.get name = .ok schema) :
    schema = m.schema name := by
  unfold SchemaMap.get at h
  split at h
  next => cases h; rfl
  next => cases h

/-- What translation has established about an operation on an item. -/
structure TranslatedOp (m : SchemaMap) (seen : List TransactTarget) (name : String) (item : Item)
    (p : TransactWritePlanItem) : Prop where
  accepted : AcceptedOp m p
  table : p.tableName = name
  key : extractKeyPair item (m.schema name) = .ok (p.pk, p.sk)
  fresh : checkNewTarget seen (name, p.pk, p.sk) = .ok ()
  condition : ∃ schema cond, translateCondition schema cond = .ok p.condition

theorem translateTransactPut_ok {put : TransactPut}
    (h : translateTransactPut m seen put = .ok p) :
    TranslatedOp m seen put.tableName put.item p := by
  obtain ⟨schema, hschema, h⟩ := bind_ok h
  obtain ⟨⟨pk, sk⟩, hkey, h⟩ := bind_ok h
  obtain ⟨_, hnew, h⟩ := bind_ok h
  obtain ⟨cond, hcond, h⟩ := bind_ok h
  obtain ⟨ret, _, h⟩ := bind_ok h
  cases h
  cases SchemaMap.get_ok hschema
  obtain ⟨hfit, hgen⟩ := extractKeyPair_spec hkey
  refine ⟨⟨hfit, ?_, nofun, nofun⟩, rfl, hkey, hnew, _, _, hcond⟩
  intro item hitem
  cases hitem
  exact hgen

theorem translateTransactDelete_ok {del : TransactDelete}
    (h : translateTransactDelete m seen del = .ok p) :
    TranslatedOp m seen del.tableName del.key p := by
  obtain ⟨schema, hschema, h⟩ := bind_ok h
  obtain ⟨⟨pk, sk⟩, hkey, h⟩ := bind_ok h
  obtain ⟨_, _, h⟩ := bind_ok h
  obtain ⟨_, hnew, h⟩ := bind_ok h
  obtain ⟨cond, hcond, h⟩ := bind_ok h
  obtain ⟨ret, _, h⟩ := bind_ok h
  cases h
  cases SchemaMap.get_ok hschema
  exact ⟨⟨(extractKeyPair_spec hkey).1, nofun, nofun, nofun⟩, rfl, hkey, hnew, _, _, hcond⟩

theorem translateTransactConditionCheck_ok {check : TransactConditionCheck}
    (h : translateTransactConditionCheck m seen check = .ok p) :
    TranslatedOp m seen check.tableName check.key p := by
  obtain ⟨schema, hschema, h⟩ := bind_ok h
  obtain ⟨⟨pk, sk⟩, hkey, h⟩ := bind_ok h
  obtain ⟨_, _, h⟩ := bind_ok h
  obtain ⟨_, hnew, h⟩ := bind_ok h
  obtain ⟨cond, hcond, h⟩ := bind_ok h
  obtain ⟨required, hrequired, h⟩ := bind_ok h
  obtain ⟨ret, _, h⟩ := bind_ok h
  cases h
  cases SchemaMap.get_ok hschema
  have hfit := (extractKeyPair_spec hkey).1
  cases cond with
  | none => cases hrequired
  | some c =>
    cases hrequired
    exact ⟨⟨hfit, nofun, fun _ => rfl, nofun⟩, rfl, hkey, hnew, _, _, hcond⟩

theorem translateTransactUpdate_ok {upd : TransactUpdate}
    (h : translateTransactUpdate m seen upd = .ok p) :
    TranslatedOp m seen upd.tableName upd.key p := by
  obtain ⟨schema, hschema, h⟩ := bind_ok h
  obtain ⟨⟨pk, sk⟩, hkey, h⟩ := bind_ok h
  obtain ⟨_, _, h⟩ := bind_ok h
  obtain ⟨_, hnew, h⟩ := bind_ok h
  obtain ⟨_, hexpr, h⟩ := bind_ok h
  obtain ⟨cond, hcond, h⟩ := bind_ok h
  obtain ⟨ret, _, h⟩ := bind_ok h
  cases h
  cases SchemaMap.get_ok hschema
  obtain ⟨hfit, hgen⟩ := extractKeyPair_spec hkey
  refine ⟨⟨hfit, nofun, nofun, ?_⟩, rfl, hkey, hnew, _, _, hcond⟩
  intro expression key hkind
  cases hkind
  exact ⟨hgen, hexpr⟩

/-- The table and the item with the key, of the one operation there. -/
def TransactWriteItem.keyed (ti : TransactWriteItem) : Option (String × Item) :=
  (ti.put.map fun p => (p.tableName, p.item)).or
    ((ti.delete.map fun d => (d.tableName, d.key)).or
      ((ti.update.map fun u => (u.tableName, u.key)).or
        (ti.conditionCheck.map fun c => (c.tableName, c.key))))

theorem translateTransactItem_ok {ti : TransactWriteItem}
    (h : translateTransactItem m seen ti = .ok p) :
    ∃ name item, ti.keyed = some (name, item) ∧ TranslatedOp m seen name item p := by
  unfold translateTransactItem at h
  unfold TransactWriteItem.keyed
  split at h
  next hp _ _ _ => exact ⟨_, _, by simp [hp], translateTransactPut_ok h⟩
  next hp hd _ _ => exact ⟨_, _, by simp [hp, hd], translateTransactDelete_ok h⟩
  next hp hd hu _ => exact ⟨_, _, by simp [hp, hd, hu], translateTransactUpdate_ok h⟩
  next hp hd hu hc =>
    exact ⟨_, _, by simp [hp, hd, hu, hc], translateTransactConditionCheck_ok h⟩
  next => cases h

theorem translateTransactItems_accepted {items : List TransactWriteItem}
    (h : translateTransactItems m seen items = .ok ps) :
    ps.length = items.length ∧
      ∀ p ∈ ps, AcceptedOp m p ∧ ∃ schema cond, translateCondition schema cond = .ok p.condition := by
  induction items generalizing seen ps with
  | nil =>
    cases h
    exact ⟨rfl, nofun⟩
  | cons ti items ih =>
    obtain ⟨p, hp, h⟩ := bind_ok h
    obtain ⟨rest, hrest, h⟩ := bind_ok h
    cases h
    obtain ⟨hlen, hacc⟩ := ih hrest
    obtain ⟨_, _, _, hop⟩ := translateTransactItem_ok hp
    refine ⟨by rw [List.length_cons, List.length_cons, hlen], ?_⟩
    exact List.forall_mem_cons.mpr ⟨⟨hop.accepted, hop.condition⟩, hacc⟩

theorem translateTransactWriteItems_accepted {req : TransactWriteItemsRequest} {maxItems : Nat}
    (h : translateTransactWriteItems req m maxItems = .ok ps) :
    ps.length = req.transactItems.length ∧
      ∀ p ∈ ps, AcceptedOp m p ∧ ∃ schema cond, translateCondition schema cond = .ok p.condition := by
  obtain ⟨_, _, h⟩ := bind_ok h
  obtain ⟨_, _, h⟩ := bind_ok h
  exact translateTransactItems_accepted h

end Rektifier
