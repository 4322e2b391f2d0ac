import Mathlib.Data.List.TakeDrop
import Mathlib.Logic.Function.Basic
import Mathlib.Tactic.Common

universe u v w

/-- What it has loaded, after how many committed changes. -/
inductive Loader (α : Type u) where
  | idle
  | holds (seen : Nat) (rows : α)
  | swapped
  | stopped

/-- The number of committed changes with its own, and the loader it waits for. -/
inductive Caller where
  | idle
  | committed (count : Nat)
  | waits (count : Nat) (loader : Nat)
  | returned (count : Nat)
  | failed

/-- A store with the log of its changes, and a cache that loaders replace as a whole. -/
structure Snapshots (α : Type u) (δ : Type v) where
  log : List δ
  stored : α
  cache : α
  loaders : Nat → Loader α
  callers : Nat → Caller

namespace Snapshots

open List Function

variable {α : Type u} {δ : Type v} {β : Type w}

def commit (s : Snapshots α δ) (apply : α → δ → α) (change : δ) : Snapshots α δ :=
  { s with log := s.log ++ [change], stored := apply s.stored change }

def setLoader (s : Snapshots α δ) (p : Nat) (loader : Loader α) : Snapshots α δ :=
  { s with loaders := update s.loaders p loader }

def setCaller (s : Snapshots α δ) (c : Nat) (caller : Caller) : Snapshots α δ :=
  { s with callers := update s.callers c caller }

def load (s : Snapshots α δ) (p : Nat) : Snapshots α δ :=
  s.setLoader p (.holds s.log.length s.stored)

def version (s : Snapshots α δ) (apply : α → δ → α) (start : α) (n : Nat) : α :=
  (s.log.take n).foldl apply start

/-- The caller has returned, or its own loader is done. -/
def Shown (s : Snapshots α δ) (c count : Nat) : Prop :=
  s.callers c = .returned count ∨
    ∃ p, s.callers c = .waits count p ∧ s.loaders p = .swapped

/-- Loaded after the change of every caller that is shown. -/
def Fresh (s : Snapshots α δ) (p : Nat) : Prop :=
  ∀ seen rows, s.loaders p = .holds seen rows → ∀ c count, s.Shown c count → count ≤ seen

/-- As far as `view` tells, the cache is one version with every shown caller's change. -/
structure Tracks (apply : α → δ → α) (start : α) (view : α → β) (s : Snapshots α δ) : Prop where
  stored : view s.stored = view (s.version apply start s.log.length)
  loaders : ∀ p seen rows, s.loaders p = .holds seen rows →
    seen ≤ s.log.length ∧ view rows = view (s.version apply start seen)
  committed : ∀ c count, s.callers c = .committed count → count ≤ s.log.length
  waits : ∀ c count p, s.callers c = .waits count p → count ≤ s.log.length ∧
    ∀ seen rows, s.loaders p = .holds seen rows → count ≤ seen
  cache : ∃ n ≤ s.log.length, view s.cache = view (s.version apply start n) ∧
    ∀ c count, s.Shown c count → count ≤ n

section

variable {apply : α → δ → α} {start : α} {view : α → β} {s : Snapshots α δ}

theorem version_commit_of_le {change : δ} {n : Nat} (h : n ≤ s.log.length) :
    (s.commit apply change).version apply start n = s.version apply start n := by
  simp only [version, commit, take_append_of_le_length h]

theorem version_commit_last (change : δ) :
    (s.commit apply change).version apply start (s.log.length + 1)
      = apply (s.version apply start s.log.length) change := by
  have hlength : (s.log ++ [change]).length = s.log.length + 1 := by simp
  simp only [version, commit, ← hlength, take_length, foldl_append, foldl_cons,
    foldl_nil]

theorem version_eq_foldl {k n : Nat} (h : k ≤ n) : s.version apply start n
    = ((s.log.take n).drop k).foldl apply (s.version apply start k) := by
  have htake : s.log.take k = (s.log.take n).take k := by
    rw [take_take, Nat.min_eq_left h]
  rw [version, version, htake, ← foldl_append, take_append_drop]

theorem loaders_of_setLoader {p q : Nat} {next loader : Loader α}
    (h : (s.setLoader p next).loaders q = loader) (hne : loader ≠ next) : s.loaders q = loader := by
  by_cases hq : q = p
  · subst hq
    exact absurd (h.symm.trans (update_self ..)) hne
  · exact (update_of_ne hq _ _).symm.trans h

theorem Tracks.commit (h : s.Tracks apply start view)
    (hcongr : ∀ a b change, view a = view b → view (apply a change) = view (apply b change))
    (change : δ) :
    (s.commit apply change).Tracks apply start view := by
  have hlength : (s.commit apply change).log.length = s.log.length + 1 := by
    simp [Snapshots.commit]
  refine ⟨?_, ?_, ?_, ?_, ?_⟩
  · rw [hlength, version_commit_last]
    exact hcongr _ _ change h.stored
  · intro p seen rows hload
    obtain ⟨hle, hrows⟩ := h.loaders p seen rows hload
    rw [hlength, version_commit_of_le hle]
    exact ⟨by omega, hrows⟩
  · intro c count hcall
    have := h.committed c count hcall
    omega
  · intro c count p hcall
    obtain ⟨hle, hseen⟩ := h.waits c count p hcall
    exact ⟨by omega, hseen⟩
  · obtain ⟨n, hle, hcache, hshown⟩ := h.cache
    refine ⟨n, by omega, ?_, hshown⟩
    rw [version_commit_of_le hle]
    exact hcache

theorem Tracks.rewrite {rows : α} (h : s.Tracks apply start view)
    (hrows : view rows = view s.stored) :
    { s with stored := rows }.Tracks apply start view :=
  ⟨hrows.trans h.stored, h.loaders, h.committed, h.waits, h.cache⟩

/-- A loader may come to hold what is stored, or what the view does not tell from what it holds. -/
theorem Tracks.setLoader {p : Nat} {loader : Loader α} (h : s.Tracks apply start view)
    (hdone : loader ≠ .swapped) (hholds : ∀ n rows, loader = .holds n rows →
      (n = s.log.length ∧ view rows = view s.stored) ∨
        ∃ old, s.loaders p = .holds n old ∧ view rows = view old) :
    (s.setLoader p loader).Tracks apply start view := by
  have hheld : ∀ q n rows, (s.setLoader p loader).loaders q = .holds n rows →
      (n = s.log.length ∧ view rows = view s.stored) ∨
        ∃ old, s.loaders q = .holds n old ∧ view rows = view old := by
    intro q n rows hq
    by_cases hqp : q = p
    · subst hqp
      have hself : (s.setLoader q loader).loaders q = loader := update_self ..
      exact hholds n rows (hself.symm.trans hq)
    · exact .inr ⟨rows, (update_of_ne hqp _ _).symm.trans hq, rfl⟩
  refine ⟨h.stored, ?_, h.committed, ?_, ?_⟩
  · intro q n rows hq
    rcases hheld q n rows hq with ⟨rfl, hview⟩ | ⟨old, hold, hview⟩
    · exact ⟨Nat.le_refl _, hview.trans h.stored⟩
    · obtain ⟨hle, hrows⟩ := h.loaders q n old hold
      exact ⟨hle, hview.trans hrows⟩
  · intro c count q hcall
    obtain ⟨hcount, hseen⟩ := h.waits c count q hcall
    refine ⟨hcount, fun n rows hq => ?_⟩
    rcases hheld q n rows hq with ⟨rfl, _⟩ | ⟨old, hold, _⟩
    · exact hcount
    · exact hseen n old hold
  · obtain ⟨n, hle, hcache, hshown⟩ := h.cache
    refine ⟨n, hle, hcache, ?_⟩
    rintro c count (hcall | ⟨q, hcall, hq⟩)
    · exact hshown c count (.inl hcall)
    · exact hshown c count (.inr ⟨q, hcall, loaders_of_setLoader hq hdone.symm⟩)

theorem Tracks.load (h : s.Tracks apply start view) (p : Nat) :
    (s.load p).Tracks apply start view := by
  refine h.setLoader nofun fun n rows hload => ?_
  cases hload
  exact .inl ⟨rfl, rfl⟩

theorem Tracks.stop (h : s.Tracks apply start view) (p : Nat) :
    (s.setLoader p .stopped).Tracks apply start view := h.setLoader nofun nofun

/-- What a loader holds may change as far as the view does not tell. -/
theorem Tracks.adjust {p seen : Nat} {rows next : α} (h : s.Tracks apply start view)
    (hload : s.loaders p = .holds seen rows) (hnext : view next = view rows) :
    (s.setLoader p (.holds seen next)).Tracks apply start view := by
  refine h.setLoader nofun fun n rows' heq => ?_
  cases heq
  exact .inr ⟨rows, hload, hnext⟩

theorem Tracks.swap {p seen : Nat} {rows : α} (h : s.Tracks apply start view)
    (hload : s.loaders p = .holds seen rows) (hfresh : s.Fresh p) :
    ({ s with cache := rows }.setLoader p .swapped).Tracks apply start view := by
  obtain ⟨hle, hrows⟩ := h.loaders p seen rows hload
  refine ⟨h.stored, ?_, h.committed, ?_, seen, hle, hrows, ?_⟩
  · intro q n rows' hq
    exact h.loaders q n rows' (loaders_of_setLoader hq (by simp))
  · intro c count q hcall
    obtain ⟨hcount, hseen⟩ := h.waits c count q hcall
    exact ⟨hcount, fun n rows' hq => hseen n rows' (loaders_of_setLoader hq (by simp))⟩
  · rintro c count (hcall | ⟨q, hcall, hq⟩)
    · exact hfresh seen rows hload c count (.inl hcall)
    · by_cases hqp : q = p
      · -- the caller's own loader, which has loaded after its change
        subst hqp
        exact (h.waits c count q hcall).2 seen rows hload
      · have hdone : s.loaders q = .swapped := (update_of_ne hqp _ _).symm.trans hq
        exact hfresh seen rows hload c count (.inr ⟨q, hcall, hdone⟩)

/-- A caller may move on where what it shows is shown already. -/
theorem Tracks.setCaller {c : Nat} {caller : Caller} (h : s.Tracks apply start view)
    (hcommitted : ∀ count, caller = .committed count → count ≤ s.log.length)
    (hwaits : ∀ count p, caller = .waits count p → count ≤ s.log.length ∧ s.loaders p = .idle)
    (hreturned : ∀ count, caller = .returned count → s.Shown c count) :
    (s.setCaller c caller).Tracks apply start view := by
  have hself : (s.setCaller c caller).callers c = caller := update_self ..
  have hother : ∀ d, d ≠ c → (s.setCaller c caller).callers d = s.callers d := fun d hd =>
    update_of_ne hd _ _
  refine ⟨h.stored, h.loaders, ?_, ?_, ?_⟩
  · intro d count hcall
    by_cases hd : d = c
    · subst hd
      exact hcommitted count (hself.symm.trans hcall)
    · exact h.committed d count ((hother d hd).symm.trans hcall)
  · intro d count p hcall
    by_cases hd : d = c
    · subst hd
      obtain ⟨hle, hidle⟩ := hwaits count p (hself.symm.trans hcall)
      refine ⟨hle, fun seen rows hload => ?_⟩
      cases hidle.symm.trans hload
    · exact h.waits d count p ((hother d hd).symm.trans hcall)
  · obtain ⟨n, hle, hcache, hshown⟩ := h.cache
    refine ⟨n, hle, hcache, ?_⟩
    intro d count hd
    by_cases hdc : d = c
    · subst hdc
      rcases hd with hcall | ⟨p, hcall, hload⟩
      · exact hshown d count (hreturned count (hself.symm.trans hcall))
      · obtain ⟨_, hidle⟩ := hwaits count p (hself.symm.trans hcall)
        cases hidle.symm.trans hload
    · refine hshown d count ?_
      rw [Shown, hother d hdc] at hd
      exact hd

end

end Snapshots
