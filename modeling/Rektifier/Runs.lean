import Mathlib.Tactic.Common

universe u v u' v'

variable {σ : Type u} {ℓ : Type v} {σ' : Type u'} {ℓ' : Type v'}

/-- Each step of a run is recorded with the state before it. -/
inductive Run (step : σ → ℓ → σ → Prop) : σ → List (σ × ℓ) → σ → Prop
  | nil (s : σ) : Run step s [] s
  | cons {s s' t : σ} {l : ℓ} {trace : List (σ × ℓ)} : step s l s' → Run step s' trace t →
      Run step s ((s, l) :: trace) t

namespace Run

open List

variable {step : σ → ℓ → σ → Prop} {step' : σ' → ℓ' → σ' → Prop} {s t : σ} {trace : List (σ × ℓ)}

/-- What every step that meets `cond` preserves holds at the end of a run of such steps. -/
theorem invariant {cond : σ → ℓ → Prop} (inv : σ → Prop)
    (hstep : ∀ s l s', step s l s' → cond s l → inv s → inv s') (hrun : Run step s trace t)
    (hcond : ∀ e ∈ trace, cond e.1 e.2) (hinv : inv s) : inv t := by
  induction hrun with
  | nil => exact hinv
  | cons hfirst _ ih =>
    have hmeets := hcond _ mem_cons_self
    exact ih (fun e he => hcond e (mem_cons_of_mem _ he)) (hstep _ _ _ hfirst hmeets hinv)

theorem invariant_states {cond : σ → ℓ → Prop} (inv : σ → Prop)
    (hstep : ∀ s l s', step s l s' → cond s l → inv s → inv s') (hrun : Run step s trace t)
    (hcond : ∀ e ∈ trace, cond e.1 e.2) (hinv : inv s) : ∀ e ∈ trace, inv e.1 := by
  induction hrun with
  | nil => simp
  | cons hfirst _ ih =>
    have hmeets := hcond _ mem_cons_self
    refine forall_mem_cons.mpr ⟨hinv, ?_⟩
    exact ih (fun e he => hcond e (mem_cons_of_mem _ he)) (hstep _ _ _ hfirst hmeets hinv)

/-- Where a step keeps an invariant exactly if it meets `cond`, a run keeps it throughout exactly if
all its steps do. -/
theorem invariant_iff {cond : σ → ℓ → Prop} (inv : σ → Prop)
    (hstep : ∀ s l s', step s l s' → inv s → (inv s' ↔ cond s l)) (hrun : Run step s trace t)
    (hinv : inv s) : (inv t ∧ ∀ e ∈ trace, inv e.1) ↔ ∀ e ∈ trace, cond e.1 e.2 := by
  induction hrun with
  | nil => simp [hinv]
  | @cons s s' t l trace hfirst hrest ih =>
    rw [forall_mem_cons, forall_mem_cons, ← hstep _ _ _ hfirst hinv]
    constructor
    · rintro ⟨hend, _, hstates⟩
      have hnext : inv s' := by
        cases hrest with
        | nil => exact hend
        | cons => exact hstates _ mem_cons_self
      exact ⟨hnext, (ih hnext).mp ⟨hend, hstates⟩⟩
    · rintro ⟨hnext, hmeets⟩
      obtain ⟨hend, hstates⟩ := (ih hnext).mpr hmeets
      exact ⟨hend, hinv, hstates⟩

/-- A property that can only be lost, and only by steps that are not `keep`. -/
theorem holds_iff {cond keep : σ → ℓ → Prop} (prop : σ → Prop)
    (hstep : ∀ s l s', step s l s' → cond s l → (prop s' ↔ prop s ∧ keep s l))
    (hrun : Run step s trace t) (hcond : ∀ e ∈ trace, cond e.1 e.2) :
    prop t ↔ prop s ∧ ∀ e ∈ trace, keep e.1 e.2 := by
  induction hrun with
  | nil => simp
  | cons hfirst _ ih =>
    rw [ih fun e he => hcond e (mem_cons_of_mem _ he),
      hstep _ _ _ hfirst (hcond _ mem_cons_self), forall_mem_cons, and_assoc]

theorem before {e : σ × ℓ} {earlier later : List (σ × ℓ)}
    (hrun : Run step s (earlier ++ e :: later) t) : Run step s earlier e.1 := by
  induction earlier generalizing s with
  | nil =>
    cases hrun with
    | cons => exact .nil _
  | cons first earlier ih =>
    cases hrun with
    | cons hfirst hrest => exact .cons hfirst (ih hrest)

theorem concat {l : ℓ} {t' : σ} (hrun : Run step s trace t) (hlast : step t l t') :
    Run step s (trace ++ [(t, l)]) t' := by
  induction hrun with
  | nil => exact .cons hlast (.nil _)
  | cons hfirst _ ih => exact .cons hfirst (ih hlast)

theorem append {trace' : List (σ × ℓ)} {t' : σ} (hrun : Run step s trace t)
    (hmore : Run step t trace' t') : Run step s (trace ++ trace') t' := by
  induction hrun with
  | nil => exact hmore
  | cons hfirst _ ih => exact .cons hfirst (ih hmore)

theorem preserved (inv : σ → Prop) (hstep : ∀ s l s', step s l s' → inv s → inv s')
    (hrun : Run step s trace t) (hinv : inv s) : inv t :=
  hrun.invariant inv (fun s l s' h (_ : True) => hstep s l s' h) (fun _ _ => trivial) hinv

theorem preserved_states (inv : σ → Prop) (hstep : ∀ s l s', step s l s' → inv s → inv s')
    (hrun : Run step s trace t) (hinv : inv s) : ∀ e ∈ trace, inv e.1 :=
  hrun.invariant_states inv (fun s l s' h (_ : True) => hstep s l s' h) (fun _ _ => trivial) hinv

/-- A measure that no step raises, and every counted step lowers, bounds the counted steps. -/
theorem count_le {inv : σ → Prop} (m : σ → ℕ) (counted : ℓ → Bool)
    (hkeep : ∀ s l s', step s l s' → inv s → inv s')
    (hle : ∀ s l s', step s l s' → inv s → m s' + (counted l).toNat ≤ m s)
    (hrun : Run step s trace t) (hinv : inv s) :
    m t + (trace.filter fun e => counted e.2).length ≤ m s := by
  induction hrun with
  | nil => simp
  | @cons s s' t l trace hfirst _ ih =>
    have hrest := ih (hkeep _ _ _ hfirst hinv)
    have hone := hle _ _ _ hfirst hinv
    rw [filter_cons]
    cases hcounted : counted l with
    | true =>
      rw [hcounted, Bool.toNat_true] at hone
      simp only [if_true, length_cons]
      omega
    | false =>
      simp only [Bool.false_eq_true, if_false]
      omega

theorem forall_steps {prop : σ → ℓ → Prop} (hstep : ∀ s l s', step s l s' → prop s l)
    (hrun : Run step s trace t) : ∀ e ∈ trace, prop e.1 e.2 := by
  induction hrun with
  | nil => simp
  | cons hfirst _ ih =>
    intro e he
    rcases mem_cons.mp he with rfl | he
    · exact hstep _ _ _ hfirst
    · exact ih e he

/-- A simulation that holds under an invariant carries runs over. -/
theorem simulate {f : σ → σ'} {g : ℓ → ℓ'} {inv : σ → Prop}
    (hkeep : ∀ s l s', step s l s' → inv s → inv s')
    (hsim : ∀ s l s', step s l s' → inv s → step' (f s) (g l) (f s')) (hrun : Run step s trace t)
    (hinv : inv s) : Run step' (f s) (trace.map fun e => (f e.1, g e.2)) (f t) := by
  induction hrun with
  | nil => exact .nil _
  | cons hfirst _ ih =>
    exact .cons (hsim _ _ _ hfirst hinv) (ih (hkeep _ _ _ hfirst hinv))

end Run
