import Rektifier.UpdateItemSpec

namespace Rektifier

open Fallible

variable {obj obj' : List (String × Json)} {key : Item} {new : Json}

/-- What actions make of the attribute they name, one after the other. -/
def onAttr {α : Type} (path : α → Path) (act : Option Json → α → Option Json) (n : String)
    (actions : List α) (v : Option Json) : Option Json :=
  (actions.filter fun a => (path a).topName = some n).foldl act v

/-- SET reads the row as it was; the last one that names the attribute stays. -/
def setOn (existing : Option Json) : String → List SetClause → Option Json → Option Json :=
  onAttr SetClause.path fun _ c => (computeSetRhs existing c.value).toOption

def removeOn : String → List Path → Option Json → Option Json := onAttr id fun _ _ => none

def addOn : String → List AddAction → Option Json → Option Json :=
  onAttr AddAction.path fun v a => (applyAdd v a.value).toOption

def deleteOn : String → List DeleteAction → Option Json → Option Json :=
  onAttr DeleteAction.path fun v a => v.bind fun old => (applyDelete old a.value).toOption.join

/-- SET, then REMOVE, then ADD, then DELETE, on one attribute. -/
def attrAfter (existing : Option Json) (e : UpdateExpression) (n : String) (v : Option Json) :
    Option Json :=
  deleteOn n e.delete (addOn n e.add (removeOn n e.remove (setOn existing n e.set v)))

section OnAttr

variable {α : Type} {path : α → Path} {act : Option Json → α → Option Json} {n : String}

theorem onAttr_cons (a : α) (actions : List α) (v : Option Json) :
    onAttr path act n (a :: actions) v =
      onAttr path act n actions (if (path a).topName = some n then act v a else v) := by
  unfold onAttr
  rw [List.filter_cons]
  split
  · next h => rw [List.foldl_cons, if_pos (of_decide_eq_true h)]
  · next h => rw [if_neg (of_decide_eq_false (Bool.eq_false_iff.mpr h))]

theorem onAttr_untouched {actions : List α} (h : ∀ a ∈ actions, (path a).topName ≠ some n)
    (v : Option Json) : onAttr path act n actions v = v := by
  unfold onAttr
  rw [List.filter_eq_nil_iff.mpr fun a ha => by simpa using h a ha]
  rfl

theorem get_foldlM_onAttr
    {step : List (String × Json) → α → Except EvalError (List (String × Json))}
    (hstep : ∀ obj a obj', step obj a = .ok obj' → Entries.get n obj' =
      if (path a).topName = some n then act (Entries.get n obj) a else Entries.get n obj)
    {actions : List α} (h : actions.foldlM step obj = .ok obj') :
    Entries.get n obj' = onAttr path act n actions (Entries.get n obj) := by
  refine foldlM_ok_induction (R := fun obj actions obj' =>
    Entries.get n obj' = onAttr path act n actions (Entries.get n obj)) ?_ ?_ h
  · exact fun _ => rfl
  · intro obj a actions next obj' hnext ih
    rw [onAttr_cons, ih, hstep obj a next hnext]

end OnAttr

theorem topNameOrUnreachable_ok {p : Path} {n : String} (h : topNameOrUnreachable p = .ok n) :
    p.topName = some n := by
  unfold topNameOrUnreachable at h
  split at h
  next hn => cases h; exact hn
  next => cases h

theorem applyUpdateExpression_ok_iff {existing : Option Json} {e : UpdateExpression} :
    applyUpdateExpression existing e key = .ok new ↔
    ∃ staged obj removed added final, e.set.mapM (stageSet existing) = .ok staged ∧
      (existing.getD (Item.toValue key)).asObject = some obj ∧
      e.remove.mapM topNameOrUnreachable = .ok removed ∧
      e.add.foldlM addStep (Entries.eraseAll (Entries.insertAll obj staged) removed) = .ok added ∧
      e.delete.foldlM deleteStep added = .ok final ∧ new = .obj final := by
  unfold applyUpdateExpression
  rw [bind_ok_iff]
  constructor
  · rintro ⟨staged, hstaged, h⟩
    split at h
    next => cases h
    next obj hobj =>
      obtain ⟨removed, hremoved, h⟩ := bind_ok h
      obtain ⟨added, hadded, h⟩ := bind_ok h
      obtain ⟨final, hfinal, h⟩ := bind_ok h
      cases h
      exact ⟨staged, obj, removed, added, final, hstaged, hobj, hremoved, hadded, hfinal, rfl⟩
  · rintro ⟨staged, obj, removed, added, final, hstaged, hobj, hremoved, hadded, hfinal, rfl⟩
    refine ⟨staged, hstaged, ?_⟩
    rw [hobj]
    show (e.remove.mapM topNameOrUnreachable >>= fun removed => _) = _
    rw [hremoved, ok_bind, hadded, ok_bind, hfinal]
    rfl

theorem get_of_asObject {v : Json} {n : String}
    (h : v.asObject = some obj) : v.get n = Entries.get n obj := by
  cases v with
  | obj members =>
    cases h
    exact Json.get_obj _ _
  | _ => cases h

section Phases

variable {n : String} {existing : Option Json}

theorem stageSet_ok {c : SetClause} {entry : String × Json} (h : stageSet existing c = .ok entry) :
    c.path.topName = some entry.1 ∧ computeSetRhs existing c.value = .ok entry.2 := by
  obtain ⟨attr, hattr, h⟩ := bind_ok h
  obtain ⟨value, hvalue, h⟩ := bind_ok h
  cases h
  exact ⟨topNameOrUnreachable_ok hattr, hvalue⟩

theorem get_insertAll_staged {clauses : List SetClause} {staged : List (String × Json)}
    (h : clauses.mapM (stageSet existing) = .ok staged) :
    Entries.get n (Entries.insertAll obj staged) =
      setOn existing n clauses (Entries.get n obj) := by
  have hall : ∀ {staged clauses}, List.Forall₂ (fun c entry => stageSet existing c = .ok entry)
      clauses staged → ∀ obj, Entries.get n (Entries.insertAll obj staged) =
        setOn existing n clauses (Entries.get n obj) := by
    intro staged clauses hstaged
    induction hstaged with
    | nil => exact fun _ => rfl
    | @cons c entry clauses staged hc _ ih =>
      intro obj
      obtain ⟨hname, hvalue⟩ := stageSet_ok hc
      show Entries.get n (Entries.insertAll (Entries.insert entry.1 entry.2 obj) staged) = _
      rw [ih, setOn, onAttr_cons, hname]
      split
      · next hn =>
        cases hn
        rw [hvalue, Entries.get_insert_self]
        rfl
      · next hn => rw [Entries.get_insert_of_ne fun heq => hn (congrArg some heq.symm)]
  exact hall (forall₂_of_mapM_ok h) obj

theorem get_eraseAll_removed {paths : List Path} {removed : List String}
    (h : paths.mapM topNameOrUnreachable = .ok removed) :
    Entries.get n (Entries.eraseAll obj removed) = removeOn n paths (Entries.get n obj) := by
  have hall : ∀ {removed paths}, List.Forall₂ (fun p attr => topNameOrUnreachable p = .ok attr)
      paths removed → ∀ obj : List (String × Json), Entries.get n (Entries.eraseAll obj removed) =
        removeOn n paths (Entries.get n obj) := by
    intro removed paths hremoved
    induction hremoved with
    | nil => exact fun _ => rfl
    | @cons p attr paths removed hp _ ih =>
      intro obj
      show Entries.get n (Entries.eraseAll (Entries.erase attr obj) removed) = _
      rw [ih, removeOn, onAttr_cons, id_eq, topNameOrUnreachable_ok hp]
      split
      · next hn =>
        cases hn
        rw [Entries.get_erase_self]
      · next hn => rw [Entries.get_erase_of_ne fun heq => hn (congrArg some heq.symm)]
  exact hall (forall₂_of_mapM_ok h) obj

theorem addStep_get {a : AddAction}
    (h : addStep obj a = .ok obj') : Entries.get n obj' =
      if a.path.topName = some n then (applyAdd (Entries.get n obj) a.value).toOption
      else Entries.get n obj := by
  obtain ⟨attr, hattr, h⟩ := bind_ok h
  obtain ⟨value, hvalue, h⟩ := bind_ok h
  cases h
  rw [topNameOrUnreachable_ok hattr]
  split
  · next hn =>
    cases hn
    rw [hvalue, Entries.get_insert_self]
    rfl
  · next hn => exact Entries.get_insert_of_ne (fun heq => hn (congrArg some heq.symm)) _ _

theorem deleteStep_get {a : DeleteAction}
    (h : deleteStep obj a = .ok obj') : Entries.get n obj' =
      if a.path.topName = some n then
        (Entries.get n obj).bind fun old => (applyDelete old a.value).toOption.join
      else Entries.get n obj := by
  obtain ⟨attr, hattr, h⟩ := bind_ok h
  rw [topNameOrUnreachable_ok hattr]
  split at h
  next hget =>
    cases h
    split
    · next hn =>
      cases hn
      rw [hget]
      rfl
    · rfl
  next old hget =>
    obtain ⟨left, hleft, h⟩ := bind_ok h
    split
    · next hn =>
      cases hn
      rw [hget, Option.bind_some, hleft]
      rcases left with _ | value
      · cases h
        exact Entries.get_erase_self _ _
      · cases h
        exact Entries.get_insert_self _ _ _
    · next hn =>
      have hne : n ≠ attr := fun heq => hn (congrArg some heq.symm)
      rcases left with _ | value
      · cases h
        exact Entries.get_erase_of_ne hne _
      · cases h
        exact Entries.get_insert_of_ne hne _ _

/-- Each attribute on its own: SET on what the row was, then REMOVE, ADD and DELETE. -/
theorem applyUpdateExpression_attr {e : UpdateExpression}
    (h : applyUpdateExpression existing e key = .ok new) :
    new.get n = attrAfter existing e n ((existing.getD (Item.toValue key)).get n) := by
  obtain ⟨staged, obj, removed, added, final, hstaged, hobj, hremoved, hadded, hfinal, rfl⟩ :=
    applyUpdateExpression_ok_iff.mp h
  rw [Json.get_obj, get_of_asObject hobj, attrAfter, ← get_insertAll_staged hstaged,
    ← get_eraseAll_removed hremoved, addOn, deleteOn,
    ← get_foldlM_onAttr (fun _ _ _ => addStep_get) hadded,
    ← get_foldlM_onAttr (fun _ _ _ => deleteStep_get) hfinal]

end Phases

variable {existing : Option Json} {e : UpdateExpression} {schema : TableSchema} {n : String}

/-- An attribute that no clause names is as on the row, or as the request gave it. -/
theorem applyUpdateExpression_untouched
    (h : applyUpdateExpression existing e key = .ok new)
    (hother : ∀ p ∈ e.targets, p.topName ≠ some n) :
    new.get n = (existing.getD (Item.toValue key)).get n := by
  have hset : ∀ c ∈ e.set, c.path.topName ≠ some n := by
    intro c hc
    exact hother _ (by simpa [UpdateExpression.targets] using .inl ⟨c, hc, rfl⟩)
  have hremove : ∀ p ∈ e.remove, (id p).topName ≠ some n := by
    intro p hp
    exact hother p (by simp [UpdateExpression.targets, hp])
  have hadd : ∀ a ∈ e.add, a.path.topName ≠ some n := by
    intro a ha
    exact hother _ (by simpa [UpdateExpression.targets] using .inr (.inr (.inl ⟨a, ha, rfl⟩)))
  have hdelete : ∀ a ∈ e.delete, a.path.topName ≠ some n := by
    intro a ha
    exact hother _ (by simpa [UpdateExpression.targets] using .inr (.inr (.inr ⟨a, ha, rfl⟩)))
  rw [applyUpdateExpression_attr h, attrAfter, setOn, onAttr_untouched hset, removeOn,
    onAttr_untouched hremove, addOn, onAttr_untouched hadd, deleteOn, onAttr_untouched hdelete]

/-- The key attributes are as on the row, or as the request gave them. -/
theorem applyUpdateExpression_get (he : checkExpression schema e = .ok ())
    (h : applyUpdateExpression existing e key = .ok new) (hn : schema.isKeyAttr n) :
    new.get n = (existing.getD (Item.toValue key)).get n := by
  refine applyUpdateExpression_untouched h ?_
  intro p hp hname
  rw [not_isKeyAttr_of_checkNotKey (checkExpression_targets he p hp) hname] at hn
  cases hn

end Rektifier
