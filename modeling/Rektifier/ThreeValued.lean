import Mathlib.Tactic

namespace ThreeValued

variable {t s : Truth}

/-- SQL's truth values: `none` is NULL. -/
abbrev Truth := Option Bool

def neg : Truth → Truth
  | some b => some (!b)
  | none => none

def conj : Truth → Truth → Truth
  | some false, _ => some false
  | _, some false => some false
  | some true, some true => some true
  | _, _ => none

def disj : Truth → Truth → Truth
  | some true, _ => some true
  | _, some true => some true
  | some false, some false => some false
  | _, _ => none

@[simp] theorem neg_eq_true : neg t = some true ↔ t = some false := by
  rcases t with _ | _ | _ <;> simp [neg]

@[simp] theorem neg_eq_false : neg t = some false ↔ t = some true := by
  rcases t with _ | _ | _ <;> simp [neg]

@[simp] theorem conj_eq_true :
    conj s t = some true ↔ s = some true ∧ t = some true := by
  rcases s with _ | _ | _ <;> rcases t with _ | _ | _ <;> simp [conj]

@[simp] theorem conj_eq_false :
    conj s t = some false ↔ s = some false ∨ t = some false := by
  rcases s with _ | _ | _ <;> rcases t with _ | _ | _ <;> simp [conj]

@[simp] theorem disj_eq_true :
    disj s t = some true ↔ s = some true ∨ t = some true := by
  rcases s with _ | _ | _ <;> rcases t with _ | _ | _ <;> simp [disj]

@[simp] theorem disj_eq_false :
    disj s t = some false ↔ s = some false ∧ t = some false := by
  rcases s with _ | _ | _ <;> rcases t with _ | _ | _ <;> simp [disj]

inductive Formula (α : Type) where
  | atom (a : α)
  | neg (f : Formula α)
  | conj (f g : Formula α)
  | disj (f g : Formula α)

variable {α : Type}

def Formula.kleene (v : α → Truth) : Formula α → Truth
  | .atom a => v a
  | .neg f => ThreeValued.neg (f.kleene v)
  | .conj f g => ThreeValued.conj (f.kleene v) (g.kleene v)
  | .disj f g => ThreeValued.disj (f.kleene v) (g.kleene v)

/-- An atom may be read differently under an even number of negations (`pos = true`) and under an
odd number. -/
def Formula.polar (v : Bool → α → Bool) : Bool → Formula α → Bool
  | pos, .atom a => v pos a
  | pos, .neg f => !(f.polar v (!pos))
  | pos, .conj f g => f.polar v pos && g.polar v pos
  | pos, .disj f g => f.polar v pos || g.polar v pos

def Formula.atoms : Formula α → List α
  | .atom a => [a]
  | .neg f => f.atoms
  | .conj f g => f.atoms ++ g.atoms
  | .disj f g => f.atoms ++ g.atoms

theorem Formula.polar_congr {v w : Bool → α → Bool} {f : Formula α}
    (h : ∀ a ∈ f.atoms, ∀ pos, v pos a = w pos a) (pos : Bool) : f.polar v pos = f.polar w pos := by
  induction f generalizing pos with
  | atom a => exact h a (List.mem_singleton.mpr rfl) pos
  | neg f ih => rw [polar, polar, ih h]
  | conj f g ihf ihg | disj f g ihf ihg =>
    rw [polar, polar, ihf fun a ha => h a (List.mem_append_left _ ha),
      ihg fun a ha => h a (List.mem_append_right _ ha)]

/-- An unknown atom counts against the formula. -/
def strict (v : α → Truth) (pos : Bool) (a : α) : Bool := (v a).getD (!pos)

/-- Both polarities are carried through the induction, since a negation swaps them. -/
theorem Formula.kleene_iff_polar (v : α → Truth) (f : Formula α) :
    (f.kleene v = some true ↔ f.polar (strict v) true) ∧
    (f.kleene v = some false ↔ f.polar (strict v) false = false) := by
  induction f with
  | atom a => rcases h : v a with _ | _ | _ <;> simp [kleene, polar, strict, h]
  | neg f ih => simp [kleene, polar, ih.1, ih.2]
  | conj f g ihf ihg =>
    simp only [kleene, polar, conj_eq_true, conj_eq_false, ihf.1, ihf.2, ihg.1, ihg.2,
      Bool.and_eq_true, Bool.and_eq_false_iff, and_self]
  | disj f g ihf ihg =>
    simp only [kleene, polar, disj_eq_true, disj_eq_false, ihf.1, ihf.2, ihg.1, ihg.2,
      Bool.or_eq_true, Bool.or_eq_false_iff, and_self]

end ThreeValued
