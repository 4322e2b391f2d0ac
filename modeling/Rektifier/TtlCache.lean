import Mathlib.Logic.Function.Basic
import Mathlib.Tactic.Common

/-- Values and failures, each with the time it dies at. -/
structure TtlCache (κ α : Type*) where
  positive : κ → Option (α × Nat)
  negative : κ → Option Nat

namespace TtlCache

open Function

variable {κ α : Type*}

def empty : TtlCache κ α := ⟨fun _ => none, fun _ => none⟩

/-- A live value, or else that there is none, or else nothing. -/
def get (c : TtlCache κ α) (now : Nat) (k : κ) : Option (Option α) :=
  match (c.positive k).filter fun e => now < e.2 with
  | some e => some (some e.1)
  | none => if ((c.negative k).filter fun e => now < e).isSome then some none else none

def insertPositive [DecidableEq κ] (c : TtlCache κ α) (k : κ) (a : α) (expiresAt : Nat) :
    TtlCache κ α where
  positive := update c.positive k (some (a, expiresAt))
  negative := update c.negative k none

def insertNegative [DecidableEq κ] (c : TtlCache κ α) (k : κ) (expiresAt : Nat) : TtlCache κ α :=
  { c with negative := update c.negative k (some expiresAt) }

/-- The two parts of `insertPositive`, where others may come in between. -/
def removeNegative [DecidableEq κ] (c : TtlCache κ α) (k : κ) : TtlCache κ α :=
  { c with negative := update c.negative k none }

def putPositive [DecidableEq κ] (c : TtlCache κ α) (k : κ) (a : α) (expiresAt : Nat) :
    TtlCache κ α :=
  { c with positive := update c.positive k (some (a, expiresAt)) }

variable {c : TtlCache κ α} {now : Nat} {k : κ} {a : α}

theorem get_eq_value_iff : c.get now k = some (some a) ↔
    ∃ expiresAt, c.positive k = some (a, expiresAt) ∧ now < expiresAt := by
  unfold get
  split
  · next e he =>
    obtain ⟨hentry, hlives⟩ := Option.filter_eq_some_iff.mp he
    have hlives : now < e.2 := by simpa using hlives
    constructor
    · intro h
      obtain rfl : e.1 = a := by simpa using h
      exact ⟨e.2, hentry, hlives⟩
    · rintro ⟨expiresAt, h, _⟩
      rw [hentry] at h
      obtain rfl : e = (a, expiresAt) := Option.some.inj h
      rfl
  · next hdead =>
    constructor
    · intro h
      split at h <;> simp at h
    · rintro ⟨expiresAt, h, hlives⟩
      have hdead : expiresAt ≤ now := by simpa [h] using hdead
      omega

theorem dead_of_get_none {expiresAt : Nat} (h : c.get now k = none)
    (hentry : c.positive k = some (a, expiresAt)) : expiresAt ≤ now := by
  by_contra hlives
  have hvalue := get_eq_value_iff.mpr ⟨expiresAt, hentry, Nat.lt_of_not_le hlives⟩
  rw [h] at hvalue
  cases hvalue

end TtlCache
