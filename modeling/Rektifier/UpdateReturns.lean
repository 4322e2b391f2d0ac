import Rektifier.UpdateEffect
import Rektifier.UpdateResponse
import Rektifier.OrderedSets

namespace Rektifier

open Fallible List

def IsValue (v : Json) : Prop := ∃ a : AttributeValue, a.toValue = v

def IsItemObject (obj : List (String × Json)) : Prop :=
  ∃ item : Item, Entries.mapVals AttributeValue.toValue item.entries = obj

section Objects

variable {obj : List (String × Json)} {n : String} {v : Json}

theorem IsItemObject.insert (h : IsItemObject obj) (n : String) (hv : IsValue v) :
    IsItemObject (Entries.insert n v obj) := by
  obtain ⟨item, rfl⟩ := h
  obtain ⟨a, rfl⟩ := hv
  exact ⟨item.insert n a, Entries.mapVals_insert _ _ _ _⟩

theorem IsItemObject.erase (h : IsItemObject obj) (n : String) :
    IsItemObject (Entries.erase n obj) := by
  obtain ⟨item, rfl⟩ := h
  exact ⟨item.erase n, Entries.mapVals_erase _ _ _⟩

theorem IsItemObject.insertAll {es : List (String × Json)} (h : IsItemObject obj)
    (hes : ∀ entry ∈ es, IsValue entry.2) : IsItemObject (Entries.insertAll obj es) := by
  induction es generalizing obj with
  | nil => exact h
  | cons entry es ih =>
    obtain ⟨hentry, hrest⟩ := forall_mem_cons.mp hes
    exact ih (h.insert entry.1 hentry) hrest

theorem IsItemObject.eraseAll (h : IsItemObject obj) (names : List String) :
    IsItemObject (Entries.eraseAll obj names) := by
  induction names generalizing obj with
  | nil => exact h
  | cons name names ih => exact ih (h.erase name)

theorem IsItemObject.get (h : IsItemObject obj) (hget : Entries.get n obj = some v) :
    IsValue v := by
  obtain ⟨item, rfl⟩ := h
  rw [Entries.get_mapVals] at hget
  obtain ⟨a, _, ha⟩ := Option.map_eq_some_iff.mp hget
  exact ⟨a, ha⟩

end Objects

section Values

variable {existing : Option Item} {v : Json}

theorem toValueItems_append (xs ys : List AttributeValue) :
    AttributeValue.toValueItems (xs ++ ys) =
      AttributeValue.toValueItems xs ++ AttributeValue.toValueItems ys := by
  induction xs with
  | nil => rfl
  | cons x xs ih =>
    rw [cons_append, AttributeValue.toValueItems, ih]
    rfl

theorem ddbList_isValue (hv : IsValue v) {items : List Json} (h : ddbList v = .ok items) :
    ∃ xs, items = AttributeValue.toValueItems xs := by
  obtain ⟨a, rfl⟩ := hv
  cases a with
  | l xs =>
    cases h
    exact ⟨xs, rfl⟩
  | _ => cases h

theorem readAttr_isValue {p : Path} (h : readAttr (existing.map Item.toValue) p = .ok v) :
    IsValue v := by
  obtain ⟨attr, _, h⟩ := bind_ok h
  cases existing with
  | none => cases h
  | some item =>
    simp only [Option.map_some, Option.bind_some, Item.get_toValue] at h
    cases hget : item.get attr with
    | none =>
      rw [hget] at h
      cases h
    | some a =>
      rw [hget] at h
      cases h
      exact ⟨a, rfl⟩

theorem operandValue_isValue {o : Operand}
    (h : operandValue (existing.map Item.toValue) o = .ok v) : IsValue v := by
  cases o with
  | value a =>
    cases h
    exact ⟨a, rfl⟩
  | path p => exact readAttr_isValue h

theorem arith_isValue {existing : Option Json} {a b : Operand} {plus : Bool}
    (h : arith existing a b plus = .ok v) : IsValue v := by
  simp only [arith, bind_ok_iff] at h
  obtain ⟨_, _, _, _, _, _, _, _, _, _, _, _, h⟩ := h
  cases h
  exact ⟨.n _, rfl⟩

/-- What SET writes on a row of items is a value. -/
theorem computeSetRhs_isValue (rhs : SetRhs) :
    ∀ {v}, computeSetRhs (existing.map Item.toValue) rhs = .ok v → IsValue v := by
  induction rhs with
  | operand o => exact operandValue_isValue
  | plus a b | minus a b => exact arith_isValue
  | ifNotExists p fallback ih =>
    intro v h
    obtain ⟨attr, hattr, h⟩ := bind_ok h
    split at h
    next w hget =>
      cases h
      have hread : readAttr (existing.map Item.toValue) p = .ok v := by
        unfold readAttr
        rw [hattr, ok_bind, hget]
        rfl
      exact readAttr_isValue hread
    next => exact ih h
  | listAppend a b iha ihb =>
    intro v h
    obtain ⟨av, ha, h⟩ := bind_ok h
    obtain ⟨bv, hb, h⟩ := bind_ok h
    obtain ⟨xs, hxs, h⟩ := bind_ok h
    obtain ⟨ys, hys, h⟩ := bind_ok h
    cases h
    obtain ⟨xs, rfl⟩ := ddbList_isValue (iha ha) hxs
    obtain ⟨ys, rfl⟩ := ddbList_isValue (ihb hb) hys
    refine ⟨.l (xs ++ ys), ?_⟩
    rw [← toValueItems_append]
    rfl

/-- Those of a binary set are encoded. -/
def SetTexts (tag : String) (texts : List String) : Prop :=
  tag ∈ ["SS", "NS", "BS"] ∧ (tag = "BS" → ∀ s ∈ texts, ∃ bytes, Base64.encode bytes = s)

theorem SetTexts.isValue {tag : String} {texts : List String} (h : SetTexts tag texts) :
    IsValue (setValue tag texts) := by
  obtain ⟨htag, hencoded⟩ := h
  rcases mem_cons.mp htag with rfl | htag
  · exact ⟨.ss texts, rfl⟩
  rcases mem_cons.mp htag with rfl | htag
  · exact ⟨.ns texts, rfl⟩
  cases mem_singleton.mp htag
  have hsets : ∃ sets : List (List UInt8), sets.map Base64.encode = texts := by
    have hall := hencoded rfl
    clear hencoded
    induction texts with
    | nil => exact ⟨[], rfl⟩
    | cons s texts ih =>
      obtain ⟨hs, hrest⟩ := forall_mem_cons.mp hall
      obtain ⟨bytes, rfl⟩ := hs
      obtain ⟨sets, rfl⟩ := ih hrest
      exact ⟨bytes :: sets, rfl⟩
  obtain ⟨sets, rfl⟩ := hsets
  refine ⟨.bs sets, ?_⟩
  simp only [AttributeValue.toValue, AttributeValue.typeName, AttributeValue.payload, setValue,
    map_map]
  rfl

theorem stringItems_str (texts : List String) : stringItems (texts.map Json.str) = texts := by
  rw [stringItems, filterMap_map]
  exact filterMap_some

theorem setTexts_of_stored (hv : IsValue v) {tag : String} {payload : Json}
    (htag : v.singleTagged = some (tag, payload)) (hset : tag ∈ ["SS", "NS", "BS"]) :
    ∃ items, payload.asArray = some items ∧ SetTexts tag (stringItems items) := by
  obtain ⟨a, rfl⟩ := hv
  rw [AttributeValue.singleTagged_toValue] at htag
  cases htag
  cases a with
  | ss texts | ns texts => exact ⟨_, rfl, hset, fun h => by simp [AttributeValue.typeName] at h⟩
  | bs sets =>
    refine ⟨_, rfl, hset, fun _ s hs => ?_⟩
    have hencoded := stringItems_str (sets.map Base64.encode)
    rw [map_map] at hencoded
    rw [show stringItems (sets.map fun bytes => Json.str (Base64.encode bytes)) = _ from hencoded] at hs
    obtain ⟨bytes, _, rfl⟩ := mem_map.mp hs
    exact ⟨bytes, rfl⟩
  | _ => simp [AttributeValue.typeName] at hset

theorem setUnion_isValue {existing : Option Json} {tag : String} {addend : List String}
    (hexisting : ∀ old, existing = some old → IsValue old) (hadd : SetTexts tag addend)
    (h : setUnion existing tag addend = .ok v) : IsValue v := by
  have hunion : ∀ start, SetTexts tag start →
      IsValue (setValue tag (addend.foldl (fun acc s => if s ∈ acc then acc else acc ++ [s]) start)) := by
    intro start hstart
    refine SetTexts.isValue ⟨hadd.1, fun hbs s hs => ?_⟩
    rcases OrderedSets.mem_union.mp hs with hs | hs
    · exact hstart.2 hbs s hs
    · exact hadd.2 hbs s hs
  have hnone : SetTexts tag [] := ⟨hadd.1, fun _ _ hs => absurd hs not_mem_nil⟩
  unfold setUnion at h
  split at h
  · cases h
    exact hunion [] hnone
  · next old =>
    split at h
    · next oldTag payload htag =>
      split at h
      · next hsame =>
        cases h
        obtain ⟨items, hitems, hstored⟩ :=
          setTexts_of_stored (hexisting old rfl) htag (hsame ▸ hadd.1)
        rw [hitems]
        exact hunion _ (hsame ▸ hstored)
      · cases h
    · cases h
      exact hunion [] hnone

theorem applyAdd_isValue {existing : Option Json} {a : AttributeValue}
    (hexisting : ∀ old, existing = some old → IsValue old) (h : applyAdd existing a = .ok v) :
    IsValue v := by
  cases a with
  | n text =>
    obtain ⟨_, _, h⟩ := bind_ok h
    obtain ⟨_, _, h⟩ := bind_ok h
    cases h
    exact ⟨.n _, rfl⟩
  | ss texts | ns texts =>
    exact setUnion_isValue hexisting ⟨by decide, fun h => absurd h (by decide)⟩ h
  | bs sets =>
    refine setUnion_isValue hexisting ⟨by decide, fun _ s hs => ?_⟩ h
    obtain ⟨bytes, _, rfl⟩ := mem_map.mp hs
    exact ⟨bytes, rfl⟩
  | _ => cases h

theorem applyDelete_isValue {old : Json} {a : AttributeValue} (hold : IsValue old)
    (h : applyDelete old a = .ok (some v)) : IsValue v := by
  obtain ⟨⟨tag, toRemove⟩, hsubset, h⟩ := bind_ok h
  have hset : tag ∈ ["SS", "NS", "BS"] := by
    cases a <;> cases hsubset <;> decide
  dsimp only at h
  split at h
  · cases h
  · next oldTag payload htag =>
    split at h
    · cases h
    · next hsame =>
      obtain rfl : oldTag = tag := not_not.mp hsame
      obtain ⟨items, hitems, hstored⟩ := setTexts_of_stored hold htag hset
      rw [hitems] at h
      have hleft := Except.ok.inj h
      split at hleft
      · cases hleft
      · cases hleft
        exact SetTexts.isValue ⟨hset, fun hbs s hs => hstored.2 hbs s (mem_of_mem_filter hs)⟩

end Values

section Update

variable {existing : Option Item} {e : UpdateExpression} {key : Item} {new : Json}

theorem original_object (existing : Option Item) (key : Item) :
    ((existing.map Item.toValue).getD (Item.toValue key)) = Item.toValue (existing.getD key) := by
  cases existing <;> rfl

theorem addStep_isItemObject {obj obj' : List (String × Json)} {a : AddAction}
    (h : addStep obj a = .ok obj') (hobj : IsItemObject obj) : IsItemObject obj' := by
  obtain ⟨attr, _, h⟩ := bind_ok h
  obtain ⟨value, hvalue, h⟩ := bind_ok h
  cases h
  exact hobj.insert attr (applyAdd_isValue (fun _ hold => hobj.get hold) hvalue)

theorem deleteStep_isItemObject {obj obj' : List (String × Json)} {a : DeleteAction}
    (h : deleteStep obj a = .ok obj') (hobj : IsItemObject obj) : IsItemObject obj' := by
  obtain ⟨attr, _, h⟩ := bind_ok h
  split at h
  · cases h
    exact hobj
  · next old hold =>
    obtain ⟨left, hleft, h⟩ := bind_ok h
    rcases left with _ | value
    · cases h
      exact hobj.erase attr
    · cases h
      exact hobj.insert attr (applyDelete_isValue (hobj.get hold) hleft)

theorem applyUpdateExpression_item
    (h : applyUpdateExpression (existing.map Item.toValue) e key = .ok new) :
    ∃ item, new = Item.toValue item := by
  obtain ⟨staged, obj, removed, added, final, hstaged, hobj, hremoved, hadded, hfinal, rfl⟩ :=
    applyUpdateExpression_ok_iff.mp h
  rw [original_object] at hobj
  cases hobj
  have hvalues : ∀ entry ∈ staged, IsValue entry.2 := by
    intro entry hentry
    obtain ⟨c, _, hc⟩ := mem_of_mapM_ok hstaged entry hentry
    exact computeSetRhs_isValue c.value (stageSet_ok hc).2
  have hset : IsItemObject (Entries.insertAll
      (Entries.mapVals AttributeValue.toValue (existing.getD key).entries) staged) :=
    IsItemObject.insertAll ⟨existing.getD key, rfl⟩ hvalues
  have hadd := foldlM_ok_preserves IsItemObject (fun _ _ _ _ hstep => addStep_isItemObject hstep)
    hadded (hset.eraseAll removed)
  obtain ⟨item, hitem⟩ := foldlM_ok_preserves IsItemObject
    (fun _ _ _ _ hstep => deleteStep_isItemObject hstep) hfinal hadd
  exact ⟨item, by rw [Item.toValue, hitem]⟩

/-- SETs of distinct attributes can be written in any order. -/
theorem applyUpdateExpression_perm {set' : List SetClause} (hperm : set'.Perm e.set)
    (hnodup : (e.set.map fun c => c.path.topName).Nodup)
    (h : applyUpdateExpression (existing.map Item.toValue) e key = .ok new) :
    applyUpdateExpression (existing.map Item.toValue) { e with set := set' } key = .ok new := by
  obtain ⟨staged, obj, removed, added, final, hstaged, hobj, hremoved, hadded, hfinal, rfl⟩ :=
    applyUpdateExpression_ok_iff.mp h
  obtain ⟨staged', hstaged', hsame⟩ := mapM_ok_of_perm hperm hstaged
  have hnames : (staged'.map Prod.fst).Nodup := by
    rw [(hsame.map Prod.fst).nodup_iff]
    have htargets := map_eq_of_mapM_ok hstaged (p := fun entry => some entry.1)
      (q := fun c => c.path.topName) fun c entry hc => (stageSet_ok hc).1.symm
    rw [← htargets] at hnodup
    refine List.Nodup.of_map some ?_
    rwa [map_map]
  refine applyUpdateExpression_ok_iff.mpr
    ⟨staged', obj, removed, added, final, hstaged', hobj, hremoved, ?_, hfinal, rfl⟩
  rw [original_object] at hobj
  cases hobj
  have hmap := OrderedMap.insertAll_perm
    ((existing.getD key : Item).mapVals AttributeValue.toValue) hsame hnames
  have hentries := congrArg OrderedMap.entries hmap
  rw [OrderedMap.entries_insertAll, OrderedMap.entries_insertAll] at hentries
  exact (congrArg (fun obj => e.add.foldlM addStep (Entries.eraseAll obj removed)) hentries).trans hadded

end Update

/-- `SET a = b, b = a`. -/
def swapExpression (a b : String) : UpdateExpression :=
  ⟨[⟨.attr a, .operand (.path (.attr b))⟩, ⟨.attr b, .operand (.path (.attr a))⟩], [], [], []⟩

/-- What an update leaves of a row, or of the key of a row that was not there. -/
structure UpdateEffects (schema : TableSchema) (existing : Option Item) (e : UpdateExpression)
    (key item : Item) : Prop where
  attrs : ∀ n, (item.get n).map AttributeValue.toValue = attrAfter (existing.map Item.toValue) e n
    (((existing.getD key).get n).map AttributeValue.toValue)
  untouched : ∀ n ∉ touchedPaths e, item.get n = (existing.getD key).get n
  keys : ∀ n, schema.isKeyAttr n = true → item.get n = (existing.getD key).get n
  permuted : ∀ set' : List SetClause, set'.Perm e.set →
    (e.set.map fun c => c.path.topName).Nodup →
    applyUpdateExpression (existing.map Item.toValue) { e with set := set' } key
      = .ok (Item.toValue item)
  swapped : ∀ a b, a ≠ b → e = swapExpression a b →
    item.get a = existing.bind (·.get b) ∧ item.get b = existing.bind (·.get a)
  updatedNew : ∃ attrs, buildUpdateResponse .updatedNew
      ⟨Item.toValue item, existing.map Item.toValue⟩ (touchedPaths e) = .ok attrs ∧
    ∀ n, attrs.bind (·.get n) = if n ∈ touchedPaths e then item.get n else none
  updatedOld : ∃ attrs, buildUpdateResponse .updatedOld
      ⟨Item.toValue item, existing.map Item.toValue⟩ (touchedPaths e) = .ok attrs ∧
    ∀ n, attrs.bind (·.get n) = if n ∈ touchedPaths e then existing.bind (·.get n) else none

theorem toValue_injective : Function.Injective AttributeValue.toValue := by
  intro a b h
  have hread : ∀ v : AttributeValue, AttributeValue.fromValue v.toValue = some v :=
    fromPayload_payload
  exact Option.some.inj ((hread a).symm.trans ((congrArg _ h).trans (hread b)))

theorem mem_touchedPaths {e : UpdateExpression} {p : Path} {n : String} (hp : p ∈ e.targets)
    (hn : p.topName = some n) : n ∈ touchedPaths e := by
  have hkey : n ∈ ((e.targets.filterMap Path.topName).map fun n => (n, ())).map Prod.fst := by
    rw [map_map]
    exact mem_map.mpr ⟨n, mem_filterMap.mpr ⟨p, hp, hn⟩, rfl⟩
  obtain ⟨v, _, hget⟩ := OrderedMap.get_insertAll_of_mem OrderedMap.empty hkey
  exact OrderedMap.mem_keys_of_get hget

theorem readAttr_attr (existing : Option Json) (n : String) :
    (readAttr existing (.attr n)).toOption = existing.bind fun v => v.get n := by
  have htop : topNameOrUnreachable (.attr n) = .ok n := rfl
  rw [readAttr, htop]
  cases hget : existing.bind fun v => v.get n with
  | none =>
    simp only [Fallible.ok_bind, hget]
    rfl
  | some v =>
    simp only [Fallible.ok_bind, hget]
    rfl

theorem attrAfter_swap {a b : String} (hab : a ≠ b) (existing : Option Json) (v : Option Json) :
    attrAfter existing (swapExpression a b) a v = (existing.bind fun w => w.get b) ∧
      attrAfter existing (swapExpression a b) b v = existing.bind fun w => w.get a := by
  have hset : ∀ n, attrAfter existing (swapExpression a b) n v =
      if b = n then existing.bind fun w => w.get a
      else if a = n then existing.bind fun w => w.get b else v := by
    intro n
    show onAttr _ _ n [_, _] v = _
    rw [onAttr_cons, onAttr_cons]
    simp only [Path.topName_attr, Option.some.injEq, computeSetRhs, operandValue, readAttr_attr]
    rfl
  rw [hset, hset, if_neg hab.symm, if_pos rfl, if_pos rfl]
  exact ⟨rfl, rfl⟩

theorem projectAttributes_get (label : String) (item : Option Item) (touched : List String) :
    ∃ attrs, projectAttributes label (item.map Item.toValue) touched = .ok attrs ∧
      ∀ n, attrs.bind (·.get n) = if n ∈ touched then item.bind (·.get n) else none := by
  cases item with
  | none => exact ⟨none, rfl, fun n => by simp⟩
  | some item =>
    refine ⟨_, projectAttributes_item label item touched, fun n => ?_⟩
    rw [Option.bind_some, ← Item.get_restrict]
    split
    · next hempty => rw [OrderedMap.get, hempty]; rfl
    · rfl

/-- The effects of every update that is accepted and succeeds. -/
theorem accepted_update_effects {req : UpdateItemRequest} {schema : TableSchema}
    {plan : UpdateItemPlan} (hplan : translateUpdateItem req schema = .ok plan)
    {existing : Option Item} {key : Item} {new : Json}
    (h : applyUpdateExpression (existing.map Item.toValue) plan.expression key = .ok new) :
    ∃ item, new = Item.toValue item ∧ UpdateEffects schema existing plan.expression key item := by
  have haccepted := translateUpdateItem_accepted hplan
  have hchecked : checkExpression schema plan.expression = .ok () :=
    haccepted.expression ▸ haccepted.checked
  obtain ⟨item, rfl⟩ := applyUpdateExpression_item h
  have horiginal : ∀ n, ((existing.map Item.toValue).getD (Item.toValue key)).get n =
      ((existing.getD key).get n).map AttributeValue.toValue := by
    intro n
    rw [original_object, Item.get_toValue]
  have hsame : ∀ n, (Item.toValue item).get n =
      ((existing.map Item.toValue).getD (Item.toValue key)).get n →
      item.get n = (existing.getD key).get n := by
    intro n heq
    rw [horiginal, Item.get_toValue] at heq
    exact Option.map_injective toValue_injective heq
  have hattrs : ∀ n, (item.get n).map AttributeValue.toValue =
      attrAfter (existing.map Item.toValue) plan.expression n
        (((existing.getD key).get n).map AttributeValue.toValue) := by
    intro n
    rw [← Item.get_toValue, applyUpdateExpression_attr h, horiginal]
  refine ⟨item, rfl, hattrs, ?_, ?_, ?_, ?_, ?_, ?_⟩
  · intro n hn
    exact hsame n (applyUpdateExpression_untouched h fun p hp hname => hn (mem_touchedPaths hp hname))
  · intro n hn
    exact hsame n (applyUpdateExpression_get hchecked h hn)
  · intro set' hperm hnodup
    exact applyUpdateExpression_perm hperm hnodup h
  · intro a b hab he
    have hget : ∀ n m, attrAfter (existing.map Item.toValue) plan.expression n
        (((existing.getD key).get n).map AttributeValue.toValue) =
          ((existing.map Item.toValue).bind fun w => w.get m) →
        item.get n = existing.bind (·.get m) := by
      intro n m heq
      apply Option.map_injective toValue_injective
      show (item.get n).map _ = _
      rw [hattrs, heq]
      cases existing with
      | none => rfl
      | some old => exact Item.get_toValue old m
    rw [he] at hget
    exact ⟨hget a b (attrAfter_swap hab _ _).1, hget b a (attrAfter_swap hab _ _).2⟩
  · exact projectAttributes_get _ (some item) _
  · exact projectAttributes_get _ existing _

def idSchema : TableSchema := ⟨"orders", "rekt_t_orders", "id", .s, none, "data", [], [], .plain⟩

def swapRequest : UpdateItemRequest :=
  ⟨OrderedMap.ofList [("id", .s "o1")], swapExpression "a" "b", none, none⟩

def swapPlan : UpdateItemPlan := ⟨.s "o1", none, swapExpression "a" "b", none, .none⟩

theorem accepted_update_effects_swap : ∃ item,
    UpdateEffects idSchema (some (OrderedMap.ofList [("a", .s "x"), ("b", .s "y"), ("id", .s "o1")]))
      (swapExpression "a" "b") swapRequest.key item ∧ item.get "a" = some (.s "y") := by
  have hplan : translateUpdateItem swapRequest idSchema = .ok swapPlan := rfl
  have hnew : applyUpdateExpression
      ((some (OrderedMap.ofList [("a", .s "x"), ("b", .s "y"), ("id", .s "o1")])).map Item.toValue)
      swapPlan.expression swapRequest.key =
        .ok (Item.toValue (OrderedMap.ofList [("a", .s "y"), ("b", .s "x"), ("id", .s "o1")])) := rfl
  obtain ⟨item, _, heffects⟩ := accepted_update_effects hplan hnew
  exact ⟨item, heffects, (heffects.swapped "a" "b" (by decide) rfl).1⟩

end Rektifier
