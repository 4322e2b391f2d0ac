import Mathlib.Data.Finset.Lattice.Lemmas
import Mathlib.Data.Finset.SDiff
import Mathlib.Data.Finset.Dedup

namespace OrderedSets

variable {α β : Type} [DecidableEq α] [DecidableEq β]

def push (members : List α) (a : α) : List α := if a ∈ members then members else members ++ [a]

def union (members added : List α) : List α := added.foldl push members

def diff (members removed : List α) : List α := members.filter fun a => a ∉ removed

inductive Action (α : Type) where
  | add (members : List α)
  | delete (members : List α)

/-- Adding starts from nothing on a missing set; a set with nothing left is dropped. -/
def step (state : Option (List α)) : Action α → Option (List α)
  | .add added => some (union (state.getD []) added)
  | .delete removed => state.bind fun members =>
      if (diff members removed).isEmpty then none else some (diff members removed)

def Action.on (state : Option (Finset α)) : Action α → Option (Finset α)
  | .add added => some (state.getD ∅ ∪ added.toFinset)
  | .delete removed => state.bind fun members =>
      if members \ removed.toFinset = ∅ then none else some (members \ removed.toFinset)

def Action.removed : Action α → List α
  | .add _ => []
  | .delete removed => removed

section Union

theorem union_eq_append (members added : List α) :
    ∃ new, union members added = members ++ new ∧ ∀ a ∈ new, a ∈ added := by
  induction added generalizing members with
  | nil => exact ⟨[], (List.append_nil members).symm, fun _ h => h⟩
  | cons a added ih =>
    show ∃ new, union (push members a) added = members ++ new ∧ _
    obtain ⟨new, heq, hnew⟩ := ih (push members a)
    rw [heq, push]
    split
    · exact ⟨new, rfl, fun b hb => List.mem_cons_of_mem a (hnew b hb)⟩
    · refine ⟨a :: new, List.append_assoc members [a] new, fun b hb => ?_⟩
      rcases List.mem_cons.mp hb with rfl | hb
      · exact List.mem_cons_self
      · exact List.mem_cons_of_mem a (hnew b hb)

theorem mem_push {members : List α} {a b : α} : b ∈ push members a ↔ b ∈ members ∨ b = a := by
  unfold push
  split
  · next h => exact ⟨.inl, fun hb => hb.elim id fun heq => heq ▸ h⟩
  · rw [List.mem_append, List.mem_singleton]

theorem mem_union {members added : List α} {b : α} :
    b ∈ union members added ↔ b ∈ members ∨ b ∈ added := by
  induction added generalizing members with
  | nil => simp [union]
  | cons a added ih =>
    show b ∈ union (push members a) added ↔ _
    rw [ih, mem_push, List.mem_cons, or_assoc]

theorem nodup_push {members : List α} (h : members.Nodup) (a : α) : (push members a).Nodup := by
  unfold push
  split
  · exact h
  · next ha =>
    rw [← List.concat_eq_append]
    exact h.concat ha

theorem nodup_union {members : List α} (h : members.Nodup) (added : List α) :
    (union members added).Nodup := by
  induction added generalizing members with
  | nil => exact h
  | cons a added ih => exact ih (nodup_push h a)

theorem union_of_subset {members added : List α} (h : ∀ a ∈ added, a ∈ members) :
    union members added = members := by
  induction added with
  | nil => rfl
  | cons a added ih =>
    obtain ⟨ha, hrest⟩ := List.forall_mem_cons.mp h
    show union (push members a) added = members
    rw [push, if_pos ha, ih hrest]

theorem union_union_self (members added : List α) :
    union (union members added) added = union members added :=
  union_of_subset fun _ ha => mem_union.mpr (.inr ha)

theorem toFinset_union (members added : List α) :
    (union members added).toFinset = members.toFinset ∪ added.toFinset := by
  ext b
  rw [List.mem_toFinset, mem_union, Finset.mem_union, List.mem_toFinset, List.mem_toFinset]

end Union

section Diff

theorem mem_diff {members removed : List α} {b : α} :
    b ∈ diff members removed ↔ b ∈ members ∧ b ∉ removed := by
  simp [diff]

theorem toFinset_diff (members removed : List α) :
    (diff members removed).toFinset = members.toFinset \ removed.toFinset := by
  ext b
  rw [List.mem_toFinset, mem_diff, Finset.mem_sdiff, List.mem_toFinset, List.mem_toFinset]

theorem diff_append (members removed more : List α) :
    diff members (removed ++ more) = diff (diff members removed) more := by
  rw [diff, diff, diff, List.filter_filter]
  exact List.filter_congr fun a _ => by simp [Bool.and_comm]

theorem diff_sublist {kept members : List α} (h : kept.Sublist members) (removed : List α) :
    (diff kept removed).Sublist (diff members removed) := h.filter _

theorem diff_union_self (members added : List α) :
    diff (union members added) added = diff members added := by
  obtain ⟨new, heq, hnew⟩ := union_eq_append members added
  have hnil : diff new added = [] :=
    List.filter_eq_nil_iff.mpr fun a ha => by simpa using hnew a ha
  rw [heq, diff, List.filter_append]
  exact (congrArg (diff members added ++ ·) hnil).trans (List.append_nil _)

end Diff

section Map

variable {f : α → β}

theorem union_map (hf : Function.Injective f) (members added : List α) :
    union (members.map f) (added.map f) = (union members added).map f := by
  induction added generalizing members with
  | nil => rfl
  | cons a added ih =>
    have hpush : push (members.map f) (f a) = (push members a).map f := by
      simp only [push, List.mem_map_of_injective hf, apply_ite (List.map f), List.map_append,
        List.map_cons, List.map_nil]
    show union (push (members.map f) (f a)) (added.map f) = (union (push members a) added).map f
    rw [hpush, ih]

theorem diff_map (hf : Function.Injective f) (members removed : List α) :
    diff (members.map f) (removed.map f) = (diff members removed).map f := by
  rw [diff, diff, List.filter_map]
  refine congrArg (List.map f) (List.filter_congr fun a _ => ?_)
  simp only [Function.comp_apply, List.mem_map_of_injective hf]

end Map

section Runs

theorem step_nodup {state : Option (List α)} (h : ∀ members ∈ state, members.Nodup)
    (action : Action α) : ∀ members ∈ step state action, members.Nodup := by
  intro members hmembers
  cases action with
  | add added =>
    cases hmembers
    refine nodup_union ?_ added
    cases state with
    | none => exact List.nodup_nil
    | some old => exact h old rfl
  | delete removed =>
    obtain ⟨old, hold, hmembers⟩ := Option.bind_eq_some_iff.mp hmembers
    split at hmembers
    · cases hmembers
    · cases hmembers
      exact (h old hold).filter _

theorem step_toFinset (state : Option (List α)) (action : Action α) :
    (step state action).map List.toFinset = action.on (state.map List.toFinset) := by
  cases action with
  | add added =>
    show some (union (state.getD []) added).toFinset = some _
    rw [toFinset_union]
    cases state <;> rfl
  | delete removed =>
    cases state with
    | none => rfl
    | some members =>
      show Option.map List.toFinset (if (diff members removed).isEmpty then _ else _) =
        if members.toFinset \ removed.toFinset = ∅ then none else some _
      rw [← toFinset_diff]
      simp only [List.toFinset_eq_empty_iff, ← List.isEmpty_iff]
      split <;> rfl

theorem step_sublist (state : Option (List α)) (action : Action α) :
    (diff (state.getD []) action.removed).Sublist ((step state action).getD []) := by
  cases action with
  | add added =>
    obtain ⟨new, heq, _⟩ := union_eq_append (state.getD []) added
    show (diff (state.getD []) []).Sublist (union (state.getD []) added)
    rw [heq]
    exact List.filter_sublist.trans (List.sublist_append_left _ _)
  | delete removed =>
    cases state with
    | none => exact List.Sublist.refl _
    | some members =>
      show (diff members removed).Sublist
        ((if (diff members removed).isEmpty then none else some _).getD [])
      split
      · next h =>
        rw [List.isEmpty_iff.mp h]
        exact List.Sublist.refl _
      · exact List.Sublist.refl _

theorem run_nodup {state : Option (List α)} (h : ∀ members ∈ state, members.Nodup)
    (actions : List (Action α)) : ∀ members ∈ actions.foldl step state, members.Nodup := by
  induction actions generalizing state with
  | nil => exact h
  | cons action actions ih => exact ih (step_nodup h action)

theorem run_toFinset (state : Option (List α)) (actions : List (Action α)) :
    (actions.foldl step state).map List.toFinset =
      actions.foldl Action.on (state.map List.toFinset) := by
  induction actions generalizing state with
  | nil => rfl
  | cons action actions ih =>
    rw [List.foldl_cons, ih, step_toFinset, List.foldl_cons]

theorem run_sublist (state : Option (List α)) (actions : List (Action α)) :
    (diff (state.getD []) (actions.flatMap Action.removed)).Sublist
      ((actions.foldl step state).getD []) := by
  induction actions generalizing state with
  | nil => exact List.filter_sublist
  | cons action actions ih =>
    rw [List.flatMap_cons, diff_append, List.foldl_cons]
    exact (diff_sublist (step_sublist state action) _).trans (ih _)

end Runs

end OrderedSets
