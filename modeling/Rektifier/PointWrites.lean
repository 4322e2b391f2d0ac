import Mathlib.Data.List.Nodup
import Mathlib.Data.List.Perm.Basic
import Mathlib.Logic.Function.Basic

universe u v

structure PointWrite (κ : Type u) (α : Type v) where
  key : κ
  change : α → α

namespace PointWrite

open List Function

variable {κ : Type u} {α : Type v} [DecidableEq κ]

def apply (w : PointWrite κ α) (σ : κ → α) : κ → α :=
  update σ w.key (w.change (σ w.key))

def applyAll (σ : κ → α) (ws : List (PointWrite κ α)) : κ → α :=
  ws.foldl (fun σ w => w.apply σ) σ

theorem applyAll_append (σ : κ → α) (ws vs : List (PointWrite κ α)) :
    applyAll σ (ws ++ vs) = applyAll (applyAll σ ws) vs :=
  foldl_append

theorem apply_comm {w v : PointWrite κ α} (h : w.key ≠ v.key) (σ : κ → α) :
    v.apply (w.apply σ) = w.apply (v.apply σ) := by
  have hv : w.apply σ v.key = σ v.key := update_of_ne h.symm _ _
  have hw : v.apply σ w.key = σ w.key := update_of_ne h _ _
  rw [apply, hv, apply, apply, hw, apply]
  exact update_comm h _ _ _

theorem applyAll_perm {ws vs : List (PointWrite κ α)} (hkeys : (ws.map key).Nodup)
    (hperm : ws.Perm vs) (σ : κ → α) : applyAll σ ws = applyAll σ vs := by
  refine hperm.foldl_eq' ?_ σ
  intro w hw v hv τ
  by_cases hsame : w.key = v.key
  · have heq : w = v := inj_on_of_nodup_map hkeys hw hv hsame
    rw [heq]
  · exact apply_comm hsame τ

theorem applyAll_of_not_mem {ws : List (PointWrite κ α)} {k : κ} (h : k ∉ ws.map key) (σ : κ → α) :
    applyAll σ ws k = σ k := by
  induction ws generalizing σ with
  | nil => rfl
  | cons w ws ih =>
    rw [map_cons, mem_cons, not_or] at h
    exact (ih h.2 (w.apply σ)).trans (update_of_ne h.1 _ _)

theorem applyAll_of_mem {ws : List (PointWrite κ α)} (hkeys : (ws.map key).Nodup)
    {w : PointWrite κ α} (h : w ∈ ws) (σ : κ → α) : applyAll σ ws w.key = w.change (σ w.key) := by
  induction ws generalizing σ with
  | nil => cases h
  | cons v ws ih =>
    rw [map_cons, nodup_cons] at hkeys
    rcases mem_cons.mp h with rfl | h
    · exact (applyAll_of_not_mem hkeys.1 _).trans (update_self _ _ _)
    · have hne : w.key ≠ v.key := fun heq => hkeys.1 (heq ▸ mem_map_of_mem h)
      have hsame : v.apply σ w.key = σ w.key := update_of_ne hne _ _
      rw [← hsame]
      exact ih hkeys.2 h (v.apply σ)

end PointWrite
