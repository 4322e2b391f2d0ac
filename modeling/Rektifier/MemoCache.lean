import Mathlib.Logic.Function.Basic
import Rektifier.Runs

namespace MemoCache

open List Function

variable {α κ β : Type*} [DecidableEq κ]

/-- A cache keeps what was first built for a key: a reader takes what is there, and after a miss
keeps its own value if the key is still free. A call is the argument with the value returned. -/
inductive Step (key : α → κ) (build : α → β) (cache : κ → Option β) :
    α × β → (κ → Option β) → Prop
  | hit {a : α} {b : β} : cache (key a) = some b → Step key build cache (a, b) cache
  | fill (a : α) : Step key build cache (a, (cache (key a)).getD (build a))
      (update cache (key a) (some ((cache (key a)).getD (build a))))

variable {key : α → κ} {build : α → β} {cache cache' : κ → Option β} {call : α × β} {k : κ} {b : β}
  {trace : List ((κ → Option β) × (α × β))}

theorem Step.keeps (h : Step key build cache call cache') (hk : cache k = some b) :
    cache' k = some b := by
  cases h with
  | hit => exact hk
  | fill a =>
    by_cases heq : k = key a
    · subst heq
      rw [update_self, hk, Option.getD_some]
    · rwa [update_of_ne heq]

theorem Step.returns (h : Step key build cache call cache') : cache'
    (key call.1) = some call.2 := by
  cases h with
  | hit hk => exact hk
  | fill a => rw [update_self]

theorem Step.source (h : Step key build cache call cache') (hk : cache' k = some b) :
    cache k = some b ∨ key call.1 = k ∧ b = build call.1 := by
  cases h with
  | hit => exact .inl hk
  | fill a =>
    by_cases heq : k = key a
    · subst heq
      rw [update_self] at hk
      cases hget : cache (key a) with
      | none =>
        rw [hget] at hk
        cases hk
        exact .inr ⟨rfl, rfl⟩
      | some b' =>
        rw [hget] at hk
        exact .inl hk
    · rw [update_of_ne heq] at hk
      exact .inl hk

theorem run_keeps (h : Run (Step key build) cache trace cache') (hk : cache k = some b) :
    cache' k = some b :=
  h.preserved (fun cache => cache k = some b) (fun _ _ _ hstep => hstep.keeps) hk

theorem run_returns (h : Run (Step key build) cache trace cache') :
    ∀ e ∈ trace, cache' (key e.2.1) = some e.2.2 := by
  induction h with
  | nil => exact forall_mem_nil _
  | cons hstep hrest ih => exact forall_mem_cons.mpr ⟨run_keeps hrest hstep.returns, ih⟩

theorem run_source (h : Run (Step key build) cache trace cache') (hk : cache' k = some b) :
    cache k = some b ∨ ∃ e ∈ trace, key e.2.1 = k ∧ b = build e.2.1 := by
  induction h with
  | nil => exact .inl hk
  | @cons s s' t l trace hstep _ ih =>
    rcases ih hk with hnext | ⟨e, he, hsource⟩
    · rcases hstep.source hnext with hbefore | hbuilt
      · exact .inl hbefore
      · exact .inr ⟨(s, l), mem_cons_self, hbuilt⟩
    · exact .inr ⟨e, mem_cons_of_mem _ he, hsource⟩

/-- A cache that starts empty answers every call as if it had built the answer, exactly if arguments
with one key are built alike. -/
theorem run_exact_iff (h : Run (Step key build) (fun _ => none) trace cache') :
    (∀ e ∈ trace, e.2.2 = build e.2.1) ↔
      ∀ e ∈ trace, ∀ e' ∈ trace, key e.2.1 = key e'.2.1 → build e.2.1 = build e'.2.1 := by
  constructor
  · intro hexact e he e' he' hkey
    have hhere := run_returns h e he
    rw [hkey, run_returns h e' he'] at hhere
    rw [← hexact e he, ← hexact e' he']
    exact (Option.some.inj hhere).symm
  · intro halike e he
    rcases run_source h (run_returns h e he) with hempty | ⟨e', he', hkey, hbuilt⟩
    · cases hempty
    · rw [hbuilt]
      exact halike e' he' e he hkey

end MemoCache
