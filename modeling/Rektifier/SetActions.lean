import Rektifier.UpdateReturns

namespace Rektifier

open Fallible OrderedSets

variable {row : Option Json}

inductive SetKind where
  | ss | ns | bs

namespace SetKind

/-- Texts, and bytes in binary sets. -/
def Member : SetKind → Type
  | .ss | .ns => String
  | .bs => List UInt8

instance : (k : SetKind) → DecidableEq k.Member
  | .ss | .ns => inferInstanceAs (DecidableEq String)
  | .bs => inferInstanceAs (DecidableEq (List UInt8))

def value : (k : SetKind) → List k.Member → AttributeValue
  | .ss, members => .ss members
  | .ns, members => .ns members
  | .bs, members => .bs members

def stored (k : SetKind) (members : List k.Member) : Json := (k.value members).toValue

def tag : SetKind → String
  | .ss => "SS"
  | .ns => "NS"
  | .bs => "BS"

def text : (k : SetKind) → k.Member → String
  | .ss, s => s
  | .ns, s => s
  | .bs, bytes => Base64.encode bytes

theorem text_injective (k : SetKind) : Function.Injective k.text := by
  cases k with
  | ss | ns => exact fun _ _ h => h
  | bs =>
    intro a b h
    have hdecode := congrArg Base64.decode h
    rw [show Base64.decode (text .bs a) = some a from Base64.decode_encode a,
      show Base64.decode (text .bs b) = some b from Base64.decode_encode b] at hdecode
    exact Option.some.inj hdecode

theorem stored_eq (k : SetKind) (members : List k.Member) :
    k.stored members = setValue k.tag (members.map k.text) := by
  cases k with
  | ss => exact congrArg (setValue "SS") (List.map_id members).symm
  | ns => exact congrArg (setValue "NS") (List.map_id members).symm
  | bs =>
    simp only [setValue, List.map_map]
    rfl

end SetKind

section Actions

variable {k : SetKind}

theorem setUnion_setValue (tag : String) (state : Option (List String)) (added : List String) :
    setUnion (state.map (setValue tag)) tag added =
      .ok (setValue tag (union (state.getD []) added)) := by
  cases state with
  | none => rfl
  | some texts =>
    have hstart : ((Json.arr (texts.map .str)).asArray.map stringItems).getD [] = texts :=
      stringItems_str texts
    simp only [setUnion, setValue, Option.map_some, Json.singleTagged, if_true, hstart]
    rfl

theorem applyAdd_set (state : Option (List k.Member)) (added : List k.Member) :
    applyAdd (state.map k.stored) (k.value added) =
      .ok (k.stored (union (state.getD []) added)) := by
  have hadd : ∀ existing, applyAdd existing (k.value added) =
      setUnion existing k.tag (added.map k.text) := by
    intro existing
    cases k with
    | ss => exact congrArg (setUnion existing "SS") (List.map_id added).symm
    | ns => exact congrArg (setUnion existing "NS") (List.map_id added).symm
    | bs => rfl
  have hstate : state.map k.stored = (state.map (List.map k.text)).map (setValue k.tag) := by
    rw [Option.map_map]
    exact Option.map_congr fun members _ => k.stored_eq members
  have hmembers : (state.map (List.map k.text)).getD [] = (state.getD []).map k.text := by
    cases state <;> rfl
  rw [hadd, hstate, setUnion_setValue, hmembers, union_map k.text_injective, k.stored_eq]

theorem applyDelete_set (members removed : List k.Member) :
    applyDelete (k.stored members) (k.value removed) =
      .ok ((step (some members) (.delete removed)).map k.stored) := by
  have hsubset : deleteSubset (k.value removed) = .ok (k.tag, removed.map k.text) := by
    cases k with
    | ss => exact congrArg (fun texts => Except.ok ("SS", texts)) (List.map_id removed).symm
    | ns => exact congrArg (fun texts => Except.ok ("NS", texts)) (List.map_id removed).symm
    | bs => rfl
  have hleft : (stringItems ((members.map k.text).map .str)).filter
      (fun s => s ∉ removed.map k.text) = (diff members removed).map k.text := by
    rw [stringItems_str]
    exact diff_map k.text_injective members removed
  rw [applyDelete, hsubset, ok_bind, k.stored_eq]
  simp only [setValue, Json.singleTagged, ne_eq, not_true_eq_false, if_false, Json.asArray, hleft,
    List.isEmpty_map]
  show _ = Except.ok (Option.map k.stored (if (diff members removed).isEmpty then none
    else some (diff members removed)))
  split
  · rfl
  · rw [Option.map_some, k.stored_eq]
    rfl

theorem deleteOn_set (state : Option (List k.Member)) (removed : List k.Member) :
    ((state.map k.stored).bind fun old => (applyDelete old (k.value removed)).toOption.join) =
      (step state (.delete removed)).map k.stored := by
  cases state with
  | none => rfl
  | some members =>
    rw [Option.map_some, Option.bind_some, applyDelete_set]
    rfl

theorem foldl_sets {α : Type} {value : α → AttributeValue} {act : Option Json → α → Option Json}
    {action : List k.Member → Action k.Member}
    (hact : ∀ state a members, value a = k.value members →
      act (state.map k.stored) a = (step state (action members)).map k.stored)
    {actions : List α} {sets : List (List k.Member)} (h : actions.map value = sets.map k.value)
    (state : Option (List k.Member)) :
    actions.foldl act (state.map k.stored) =
      ((sets.map action).foldl step state).map k.stored := by
  induction actions generalizing sets state with
  | nil =>
    cases List.map_eq_nil_iff.mp h.symm
    rfl
  | cons a actions ih =>
    obtain ⟨members, sets, rfl, hvalue, hrest⟩ := List.map_eq_cons_iff.mp h.symm
    rw [List.foldl_cons, hact state a members hvalue.symm, ih hrest.symm, List.map_cons,
      List.foldl_cons]

end Actions

/-- An accepted update that adds and deletes sets of one type on an attribute; other attributes are
open. -/
structure SetUpdate (schema : TableSchema) (n : String) (k : SetKind) where
  request : UpdateItemRequest
  plan : UpdateItemPlan
  accepted : translateUpdateItem request schema = .ok plan
  adds : List (List k.Member)
  deletes : List (List k.Member)
  adds_eq : ((plan.expression.add.filter fun a => a.path.topName = some n).map AddAction.value) =
    adds.map k.value
  deletes_eq : ((plan.expression.delete.filter fun a => a.path.topName = some n).map
    DeleteAction.value) = deletes.map k.value
  set_other : ∀ c ∈ plan.expression.set, c.path.topName ≠ some n
  remove_other : ∀ p ∈ plan.expression.remove, p.topName ≠ some n

section Updates

variable {schema : TableSchema} {n : String} {k : SetKind}

namespace SetUpdate

/-- Every ADD before every DELETE. -/
def actions (u : SetUpdate schema n k) : List (Action k.Member) :=
  u.adds.map .add ++ u.deletes.map .delete

def apply (row : Option Json) (u : SetUpdate schema n k) : Except EvalError (Option Json) := do
  let new ← applyUpdateExpression row u.plan.expression u.request.key
  return some new

structure OnlySets (u : SetUpdate schema n k) : Prop where
  set : u.plan.expression.set = []
  remove : u.plan.expression.remove = []
  add : ∀ a ∈ u.plan.expression.add, a.path.topName = some n
  delete : ∀ a ∈ u.plan.expression.delete, a.path.topName = some n

theorem attrAfter_eq (u : SetUpdate schema n k) (existing : Option Json)
    (state : Option (List k.Member)) :
    attrAfter existing u.plan.expression n (state.map k.stored) =
      (u.actions.foldl step state).map k.stored := by
  have hremove : removeOn n u.plan.expression.remove (state.map k.stored) = state.map k.stored :=
    onAttr_untouched u.remove_other _
  have hadd : ∀ state : Option (List k.Member), addOn n u.plan.expression.add (state.map k.stored) =
      ((u.adds.map Action.add).foldl step state).map k.stored := by
    refine foldl_sets (fun state a members ha => ?_) u.adds_eq
    rw [ha, applyAdd_set]
    rfl
  have hdelete : ∀ state : Option (List k.Member),
      deleteOn n u.plan.expression.delete (state.map k.stored) =
        ((u.deletes.map Action.delete).foldl step state).map k.stored := by
    refine foldl_sets (fun state a members ha => ?_) u.deletes_eq
    rw [ha, deleteOn_set]
  rw [attrAfter, setOn, onAttr_untouched u.set_other, hremove, hadd, hdelete, actions,
    List.foldl_append]

theorem key_get (u : SetUpdate schema n k) (hn : schema.isKeyAttr n = false) :
    u.request.key.get n = none := by
  rcases hget : u.request.key.get n with _ | v
  · rfl
  · have hmem := OrderedMap.mem_keys_of_get hget
    have hkey := (translateUpdateItem_accepted u.accepted).onlyKeys n hmem
    rw [hn] at hkey
    cases hkey

theorem apply_attr {u : SetUpdate schema n k} {row' : Option Json}
    (hn : schema.isKeyAttr n = false) (h : u.apply row = .ok row')
    {state : Option (List k.Member)} (hrow : (row.bind fun v => v.get n) = state.map k.stored) :
    (row'.bind fun v => v.get n) = (u.actions.foldl step state).map k.stored := by
  obtain ⟨new, hnew, h⟩ := bind_ok h
  cases h
  have hold : (row.getD (Item.toValue u.request.key)).get n = state.map k.stored := by
    rw [← hrow]
    cases row with
    | none =>
      show (Item.toValue u.request.key).get n = none
      rw [Item.get_toValue, u.key_get hn]
      rfl
    | some v => rfl
  rw [Option.bind_some, applyUpdateExpression_attr hnew, hold, u.attrAfter_eq]

end SetUpdate

def applySetUpdates (row : Option Json) (us : List (SetUpdate schema n k)) :
    Except EvalError (Option Json) :=
  us.foldlM SetUpdate.apply row

theorem applySetUpdates_attr (hn : schema.isKeyAttr n = false) {us : List (SetUpdate schema n k)}
    {row' : Option Json} (h : applySetUpdates row us = .ok row')
    {state : Option (List k.Member)} (hrow : (row.bind fun v => v.get n) = state.map k.stored) :
    (row'.bind fun v => v.get n) =
      ((us.flatMap SetUpdate.actions).foldl step state).map k.stored := by
  induction us generalizing row state with
  | nil =>
    cases h
    exact hrow
  | cons u us ih =>
    obtain ⟨next, hnext, h⟩ := bind_ok (by simpa [applySetUpdates, List.foldlM_cons] using h)
    rw [List.flatMap_cons, List.foldl_append]
    exact ih h (SetUpdate.apply_attr hn hnext hrow)

theorem foldlM_sets {α : Type} {path : α → Path} {value : α → AttributeValue}
    {act : List (String × Json) → α → Except EvalError (List (String × Json))}
    {action : List k.Member → Action k.Member}
    (hact : ∀ obj a members state, (path a).topName = some n → value a = k.value members →
      Entries.get n obj = Option.map k.stored state → ∃ obj', act obj a = .ok obj' ∧
        Entries.get n obj' = (step state (action members)).map k.stored)
    {actions : List α} (hnamed : ∀ a ∈ actions, (path a).topName = some n)
    {sets : List (List k.Member)} (hsets : actions.map value = sets.map k.value)
    {obj : List (String × Json)} {state : Option (List k.Member)}
    (hobj : Entries.get n obj = state.map k.stored) :
    ∃ obj', actions.foldlM act obj = .ok obj' ∧
      Entries.get n obj' = ((sets.map action).foldl step state).map k.stored := by
  induction actions generalizing sets obj state with
  | nil =>
    cases List.map_eq_nil_iff.mp hsets.symm
    exact ⟨obj, rfl, hobj⟩
  | cons a actions ih =>
    obtain ⟨members, sets, rfl, hvalue, hrest⟩ := List.map_eq_cons_iff.mp hsets.symm
    obtain ⟨hname, hnamed⟩ := List.forall_mem_cons.mp hnamed
    obtain ⟨next, hnext, hget⟩ := hact obj a members state hname hvalue.symm hobj
    obtain ⟨obj', hobj', hget'⟩ := ih hnamed hrest.symm hget
    refine ⟨obj', ?_, hget'⟩
    rw [List.foldlM_cons, hnext, ok_bind, hobj']

theorem topNameOrUnreachable_of_name {p : Path} (h : p.topName = some n) :
    topNameOrUnreachable p = .ok n := by
  rw [topNameOrUnreachable, h]

theorem addStep_set (obj : List (String × Json)) (a : AddAction) (members : List k.Member)
    (state : Option (List k.Member)) (hname : a.path.topName = some n)
    (hvalue : a.value = k.value members) (hobj : Entries.get n obj = state.map k.stored) :
    ∃ obj', addStep obj a = .ok obj' ∧
      Entries.get n obj' = (step state (.add members)).map k.stored := by
  refine ⟨Entries.insert n (k.stored (union (state.getD []) members)) obj, ?_,
    Entries.get_insert_self _ _ _⟩
  rw [addStep, topNameOrUnreachable_of_name hname, ok_bind, hobj, hvalue, applyAdd_set]
  rfl

theorem deleteStep_set (obj : List (String × Json)) (a : DeleteAction) (members : List k.Member)
    (state : Option (List k.Member)) (hname : a.path.topName = some n)
    (hvalue : a.value = k.value members) (hobj : Entries.get n obj = state.map k.stored) :
    ∃ obj', deleteStep obj a = .ok obj' ∧
      Entries.get n obj' = (step state (.delete members)).map k.stored := by
  have hok : ∃ obj', deleteStep obj a = .ok obj' := by
    rw [deleteStep, topNameOrUnreachable_of_name hname, ok_bind, hobj]
    cases state with
    | none => exact ⟨obj, rfl⟩
    | some old =>
      show ∃ obj', (applyDelete (k.stored old) a.value >>= _) = .ok obj'
      rw [hvalue, applyDelete_set, ok_bind]
      cases step (some old) (.delete members) with
      | none | some left => exact ⟨_, rfl⟩
  obtain ⟨obj', hobj'⟩ := hok
  refine ⟨obj', hobj', ?_⟩
  rw [deleteStep_get hobj', if_pos hname, hobj, hvalue, deleteOn_set]

theorem SetUpdate.OnlySets.values {u : SetUpdate schema n k} (h : u.OnlySets) :
    u.plan.expression.add.map AddAction.value = u.adds.map k.value ∧
      u.plan.expression.delete.map DeleteAction.value = u.deletes.map k.value := by
  have hadd := u.adds_eq
  have hdelete := u.deletes_eq
  rw [List.filter_eq_self.mpr fun a ha => decide_eq_true (h.add a ha)] at hadd
  rw [List.filter_eq_self.mpr fun a ha => decide_eq_true (h.delete a ha)] at hdelete
  exact ⟨hadd, hdelete⟩

theorem SetUpdate.apply_ok {u : SetUpdate schema n k} (honly : u.OnlySets)
    (hn : schema.isKeyAttr n = false)
    (hobject : ∀ v ∈ row, ∃ obj, v.asObject = some obj) {state : Option (List k.Member)}
    (hrow : (row.bind fun v => v.get n) = state.map k.stored) :
    ∃ obj, u.apply row = .ok (some (.obj obj)) := by
  have horiginal : ∃ obj, (row.getD (Item.toValue u.request.key)).asObject = some obj ∧
      Entries.get n obj = state.map k.stored := by
    cases row with
    | none =>
      refine ⟨_, rfl, ?_⟩
      rw [← hrow]
      show (Item.toValue u.request.key).get n = none
      rw [Item.get_toValue, u.key_get hn]
      rfl
    | some v =>
      obtain ⟨obj, hobj⟩ := hobject v rfl
      refine ⟨obj, hobj, ?_⟩
      rw [← hrow]
      exact (get_of_asObject hobj).symm
  obtain ⟨obj, hobj, hget⟩ := horiginal
  obtain ⟨added, hadded, hget⟩ := foldlM_sets addStep_set honly.add honly.values.1 hget
  obtain ⟨final, hfinal, _⟩ := foldlM_sets deleteStep_set honly.delete honly.values.2 hget
  refine ⟨final, ?_⟩
  have hnew : applyUpdateExpression row u.plan.expression u.request.key = .ok (.obj final) := by
    refine applyUpdateExpression_ok_iff.mpr
      ⟨[], obj, [], added, final, ?_, hobj, ?_, hadded, hfinal, rfl⟩
    · rw [honly.set]
      rfl
    · rw [honly.remove]
      rfl
  rw [SetUpdate.apply, hnew]
  rfl

theorem applySetUpdates_ok (hn : schema.isKeyAttr n = false) {us : List (SetUpdate schema n k)}
    (honly : ∀ u ∈ us, u.OnlySets)
    (hobject : ∀ v ∈ row, ∃ obj, v.asObject = some obj) {state : Option (List k.Member)}
    (hrow : (row.bind fun v => v.get n) = state.map k.stored) :
    ∃ row', applySetUpdates row us = .ok row' := by
  induction us generalizing row state with
  | nil => exact ⟨row, rfl⟩
  | cons u us ih =>
    obtain ⟨hu, honly⟩ := List.forall_mem_cons.mp honly
    obtain ⟨obj, hnext⟩ := SetUpdate.apply_ok hu hn hobject hrow
    have hnextObject : ∀ v ∈ some (Json.obj obj), ∃ obj, v.asObject = some obj := by
      intro v hv
      cases hv
      exact ⟨obj, rfl⟩
    obtain ⟨row', hrow'⟩ := ih honly hnextObject (SetUpdate.apply_attr hn hnext hrow)
    refine ⟨row', ?_⟩
    rw [applySetUpdates, List.foldlM_cons, hnext, ok_bind]
    exact hrow'

/-- The laws of single actions on a stored or missing set. -/
structure SetLaws (k : SetKind) : Prop where
  addTwice : ∀ (state : Option (List k.Member)) added v,
    applyAdd (state.map k.stored) (k.value added) = .ok v →
      applyAdd (some v) (k.value added) = .ok v
  deleteAdded : ∀ (state : Option (List k.Member)) added v,
    applyAdd (state.map k.stored) (k.value added) = .ok v →
      applyDelete v (k.value added) = .ok
        (if (state.getD []).toFinset \ added.toFinset = ∅ then none
          else some (k.stored ((state.getD []).filter fun a => a ∉ added)))
  removed : ∀ members removed, applyDelete (k.stored members) (k.value removed) = .ok none ↔
    members.toFinset \ removed.toFinset = ∅

theorem setLaws (k : SetKind) : SetLaws k := by
  have hdelete : ∀ members removed : List k.Member,
      applyDelete (k.stored members) (k.value removed) = .ok
        (if members.toFinset \ removed.toFinset = ∅ then none
          else some (k.stored (diff members removed))) := by
    intro members removed
    rw [applyDelete_set, ← toFinset_diff]
    simp only [List.toFinset_eq_empty_iff, ← List.isEmpty_iff, step, Option.bind_some]
    split <;> rfl
  refine ⟨?_, ?_, ?_⟩
  · intro state added v hv
    rw [applyAdd_set] at hv
    cases hv
    have hagain := applyAdd_set (some (union (state.getD []) added)) added
    rw [Option.getD_some, union_union_self] at hagain
    exact hagain
  · intro state added v hv
    rw [applyAdd_set] at hv
    cases hv
    rw [hdelete, ← toFinset_diff, diff_union_self, toFinset_diff]
    rfl
  · intro members removed
    rw [hdelete]
    split
    · next h => exact ⟨fun _ => h, fun _ => rfl⟩
    · next h =>
      refine ⟨fun heq => ?_, fun heq => absurd heq h⟩
      cases heq

/-- What a run of actions leaves of a set. -/
structure SetRun (start : Option (List k.Member)) (actions : List (Action k.Member))
    (final : Option (List k.Member)) : Prop where
  members : final.map List.toFinset = actions.foldl Action.on (start.map List.toFinset)
  nodup : ∀ members ∈ final, members.Nodup
  order : ((start.getD []).filter fun a => a ∉ actions.flatMap Action.removed).Sublist
    (final.getD [])

/-- ADD and DELETE on a set attribute, over any sequence of accepted updates of a row. -/
theorem set_actions_exact (hn : schema.isKeyAttr n = false) {existing : Option Item}
    {start : Option (List k.Member)} (hstart : existing.bind (·.get n) = start.map k.value)
    (hnodup : ∀ members ∈ start, members.Nodup) (us : List (SetUpdate schema n k)) :
    (∀ row, applySetUpdates (existing.map Item.toValue) us = .ok row →
      ∃ final, (row.bind fun v => v.get n) = final.map k.stored ∧
        SetRun start (us.flatMap SetUpdate.actions) final) ∧
    ((∀ u ∈ us, u.OnlySets) → ∃ row, applySetUpdates (existing.map Item.toValue) us = .ok row) ∧
    SetLaws k := by
  have hrow : ((existing.map Item.toValue).bind fun v => v.get n) = start.map k.stored := by
    have hget : ((existing.map Item.toValue).bind fun v => v.get n) =
        (existing.bind (·.get n)).map AttributeValue.toValue := by
      cases existing with
      | none => rfl
      | some item => exact Item.get_toValue item n
    rw [hget, hstart, Option.map_map]
    rfl
  refine ⟨fun row h => ?_, fun honly => ?_, setLaws k⟩
  · refine ⟨_, applySetUpdates_attr hn h hrow, run_toFinset _ _, run_nodup hnodup _, ?_⟩
    exact run_sublist start _
  · refine applySetUpdates_ok hn honly ?_ hrow
    intro v hv
    obtain ⟨item, _, rfl⟩ := Option.map_eq_some_iff.mp hv
    exact ⟨_, rfl⟩

end Updates

/-- `ADD tags :added DELETE tags :removed` on the order `o1`. -/
def tagUpdate (added removed : List String) : SetUpdate idSchema "tags" .ss where
  request := ⟨OrderedMap.ofList [("id", .s "o1")],
    ⟨[], [], [⟨.attr "tags", .ss added⟩], [⟨.attr "tags", .ss removed⟩]⟩, none, none⟩
  plan := ⟨.s "o1", none,
    ⟨[], [], [⟨.attr "tags", .ss added⟩], [⟨.attr "tags", .ss removed⟩]⟩, none, .none⟩
  accepted := rfl
  adds := [added]
  deletes := [removed]
  adds_eq := rfl
  deletes_eq := rfl
  set_other := fun _ h => by cases h
  remove_other := fun _ h => by cases h

theorem tagUpdate_onlySets (added removed : List String) : (tagUpdate added removed).OnlySets where
  set := rfl
  remove := rfl
  add := fun _ h => List.mem_singleton.mp h ▸ rfl
  delete := fun _ h => List.mem_singleton.mp h ▸ rfl

def taggedOrder : Item := OrderedMap.ofList [("id", .s "o1"), ("tags", .ss ["x", "a"])]

def storedTags : List (SetKind.Member .ss) := ["x", "a"]

theorem set_actions_exact_tags : ∃ row final,
    applySetUpdates (some (Item.toValue taggedOrder))
      [tagUpdate ["b", "b"] ["x"], tagUpdate [] ["a", "b"]] = .ok row ∧
    (row.bind fun v => v.get "tags") = final.map SetKind.ss.stored ∧
    SetRun (some storedTags)
      ([tagUpdate ["b", "b"] ["x"], tagUpdate [] ["a", "b"]].flatMap SetUpdate.actions) final := by
  have hkey : idSchema.isKeyAttr "tags" = false := rfl
  have hstart : (some taggedOrder).bind (·.get "tags") =
      (some storedTags).map SetKind.ss.value := rfl
  have hnodup : ∀ members ∈ some storedTags, members.Nodup := by
    intro members h
    cases h
    decide
  obtain ⟨hrun, hok, _⟩ := set_actions_exact hkey hstart hnodup
    [tagUpdate ["b", "b"] ["x"], tagUpdate [] ["a", "b"]]
  have honly : ∀ u ∈ [tagUpdate ["b", "b"] ["x"], tagUpdate [] ["a", "b"]], u.OnlySets := by
    intro u hu
    rcases List.mem_cons.mp hu with rfl | hu
    · exact tagUpdate_onlySets _ _
    · cases List.mem_singleton.mp hu
      exact tagUpdate_onlySets _ _
  obtain ⟨row, hrow⟩ := hok honly
  obtain ⟨final, hfinal, hset⟩ := hrun row hrow
  exact ⟨row, final, hrow, hfinal, hset⟩

end Rektifier
