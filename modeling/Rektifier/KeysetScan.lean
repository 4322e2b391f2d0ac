import Rektifier.Runs
import Mathlib.Order.Lattice
import Mathlib.Data.List.Basic
import Mathlib.Data.Set.Finite.Basic

universe u v

variable {κ : Type u} {τ : Type v}

/-- The keys `ORDER BY … LIMIT n` picks from those a filter admits, returned in whatever order. -/
structure Limited (le : κ → κ → Prop) (n : ℕ) (admits : κ → Prop) (chunk : List κ) : Prop where
  nodup : chunk.Nodup
  admitted : ∀ k ∈ chunk, admits k
  length_le : chunk.length ≤ n
  first : ∀ k ∈ chunk, ∀ k', admits k' → k' ∉ chunk → le k k'
  full : chunk.length < n → ∀ k, admits k → k ∈ chunk

theorem Limited.congr {le : κ → κ → Prop} {n : ℕ} {admits admits' : κ → Prop} {chunk : List κ}
    (h : ∀ k, admits k ↔ admits' k) (hlimit : Limited le n admits chunk) :
    Limited le n admits' chunk := by
  have heq : admits = admits' := funext fun k => propext (h k)
  rwa [← heq]

/-- From finitely many keys in an order there is a chunk to pick. -/
theorem exists_limited {ρ : Type v} [LinearOrder ρ] {le : κ → κ → Prop} {admits : κ → Prop}
    (rank : κ → ρ) (hle : ∀ k k', admits k → admits k' → rank k ≤ rank k' → le k k')
    (hfinite : {k | admits k}.Finite) (n : ℕ) : ∃ chunk, Limited le n admits chunk := by
  let sorted := hfinite.toFinset.toList.mergeSort fun a b => decide (rank a ≤ rank b)
  have hmem : ∀ k, k ∈ sorted ↔ admits k := by simp [sorted]
  have hnodup : sorted.Nodup := (List.mergeSort_perm _ _).nodup_iff.mpr (Finset.nodup_toList _)
  have hsorted : sorted.Pairwise fun a b => rank a ≤ rank b := by
    have htrans : ∀ a b c : κ, decide (rank a ≤ rank b) = true → decide (rank b ≤ rank c) = true →
        decide (rank a ≤ rank c) = true := fun a b c => by simpa using le_trans
    have htotal : ∀ a b : κ, (decide (rank a ≤ rank b) || decide (rank b ≤ rank a)) = true :=
      fun a b => by simpa using le_total _ _
    simpa using List.pairwise_mergeSort htrans htotal hfinite.toFinset.toList
  refine ⟨sorted.take n, hnodup.sublist (List.take_sublist _ _),
    fun k hk => (hmem k).mp (List.mem_of_mem_take hk), List.length_take_le _ _, ?_, ?_⟩
  · intro k hk k' hk' hout
    have hdrop : k' ∈ sorted.drop n := by
      have hin := (hmem k').mpr hk'
      rw [← List.take_append_drop n sorted, List.mem_append] at hin
      exact hin.resolve_left hout
    rw [← List.take_append_drop n sorted] at hsorted
    have hrank := (List.pairwise_append.mp hsorted).2.2 k hk k' hdrop
    exact hle k k' ((hmem k).mp (List.mem_of_mem_take hk)) hk' hrank
  · intro hlt k hk
    have hshort : sorted.length ≤ n := by
      rw [List.length_take] at hlt
      omega
    rw [List.take_of_length_le hshort]
    exact (hmem k).mpr hk

/-- The keys a filter takes, those owed work, the text each is compared by, and the text the scan
has come to. -/
structure KeysetScan (κ : Type u) (τ : Type v) where
  pending : κ → Prop
  owed : κ → Prop
  text : κ → τ
  cursor : Option τ

namespace KeysetScan

variable [LinearOrder τ] {le : κ → κ → Prop} {n : ℕ} {s s' t : KeysetScan κ τ} {chunk : List κ}
  {k last : κ} {trace : List (KeysetScan κ τ × List κ)}

def Passed (s : KeysetScan κ τ) (k : κ) : Prop := ∃ c ∈ s.cursor, s.text k ≤ c

def Selects (s : KeysetScan κ τ) (k : κ) : Prop := s.pending k ∧ ¬ s.Passed k

/-- A chunk is worked off and the cursor set to the key returned last; or nothing happens. -/
inductive Step (le : κ → κ → Prop) (n : ℕ) (s : KeysetScan κ τ) :
    List κ → KeysetScan κ τ → Prop
  | idle : Step le n s [] s
  | advance {chunk : List κ} {last : κ} {s' : KeysetScan κ τ} : Limited le n s.Selects chunk →
      chunk.getLast? = some last → s'.text = s.text → s'.cursor = some (s.text last) →
      (∀ k ∈ chunk, ¬ s'.owed k) → (∀ k, k ∉ chunk → (s'.owed k ↔ s.owed k)) →
      (∀ k, k ∉ chunk → (s'.pending k ↔ s.pending k)) → Step le n s chunk s'

def Exhausted (le : κ → κ → Prop) (n : ℕ) (s : KeysetScan κ τ) : Prop := Limited le n s.Selects []

/-- Every key owed work is still to be selected. -/
def Ahead (s : KeysetScan κ τ) : Prop := ∀ k, s.owed k → s.Selects k

/-- A chunk's cursor passes no key that is still owed work. -/
def PassesOnlyDone (s : KeysetScan κ τ) (chunk : List κ) : Prop :=
  ∀ last ∈ chunk.getLast?, ∀ k, s.owed k → k ∉ chunk → s.text last < s.text k

theorem Step.ahead (hstep : Step le n s chunk s') (hpass : s.PassesOnlyDone chunk)
    (hahead : s.Ahead) : s'.Ahead := by
  cases hstep with
  | idle => exact hahead
  | @advance _ last _ _ hlast htext hcursor hdone howed hpending =>
    intro k hk
    have hout : k ∉ chunk := fun hmem => hdone k hmem hk
    have hk' := (howed k hout).mp hk
    refine ⟨(hpending k hout).mpr (hahead k hk').1, ?_⟩
    rintro ⟨c, hc, hle⟩
    rw [hcursor, Option.mem_some_iff] at hc
    rw [htext, ← hc] at hle
    exact absurd hle (not_le.mpr (hpass last hlast k hk' hout))

def TextOrdered (le : κ → κ → Prop) (s : KeysetScan κ τ) : Prop :=
  ∀ k k', s.pending k → s.pending k' → k ≠ k' → le k k' → s.text k < s.text k'

theorem Step.textOrdered (hstep : Step le n s chunk s') (hordered : s.TextOrdered le) :
    s'.TextOrdered le := by
  cases hstep with
  | idle => exact hordered
  | advance hlimit _ htext _ _ _ hpending =>
    have hkept : ∀ k, s'.pending k → s.pending k := by
      intro k hk
      by_cases hmem : k ∈ chunk
      · exact (hlimit.admitted k hmem).1
      · exact (hpending k hmem).mp hk
    intro k k' hk hk'
    rw [htext]
    exact hordered k k' (hkept k hk) (hkept k' hk')

theorem Step.passesOnlyDone (hstep : Step le n s chunk s') (hordered : s.TextOrdered le)
    (hahead : s.Ahead) : s.PassesOnlyDone chunk := by
  cases hstep with
  | idle =>
    intro last hlast
    cases hlast
  | advance hlimit _ _ _ _ _ _ =>
    intro last hlast k hk hout
    have hin := List.mem_of_getLast? hlast
    have hle := hlimit.first last hin k (hahead k hk) hout
    refine hordered last k (hlimit.admitted last hin).1 (hahead k hk).1 ?_ hle
    rintro rfl
    exact hout hin

/-- Where keys and texts are in one order no chunk leaves anything behind, whichever row is returned
last. -/
theorem run_passesOnlyDone (hrun : Run (fun s chunk s' => Step le n s chunk s') s trace t)
    (hordered : s.TextOrdered le) (hahead : s.Ahead) : ∀ e ∈ trace, e.1.PassesOnlyDone e.2 := by
  induction hrun with
  | nil => simp
  | cons hstep _ ih =>
    have hpass := hstep.passesOnlyDone hordered hahead
    exact List.forall_mem_cons.mpr
      ⟨hpass, ih (hstep.textOrdered hordered) (hstep.ahead hpass hahead)⟩

def Lost (s : KeysetScan κ τ) (k : κ) : Prop := s.owed k ∧ ¬ s.Selects k

theorem Step.lost (hstep : Step le n s chunk s') (hlost : s.Lost k) : s'.Lost k := by
  cases hstep with
  | idle => exact hlost
  | @advance _ last _ hlimit hlast htext hcursor _ howed hpending =>
    obtain ⟨hk, hnot⟩ := hlost
    have hout : k ∉ chunk := fun hmem => hnot (hlimit.admitted k hmem)
    refine ⟨(howed k hout).mpr hk, ?_⟩
    rintro ⟨hp, hpassed⟩
    apply hnot
    refine ⟨(hpending k hout).mp hp, ?_⟩
    -- the cursor never moves back, so what it had passed it still passes
    rintro ⟨c, hc, hle⟩
    have hselected := hlimit.admitted last (List.mem_of_getLast? hlast)
    have hlt : c < s.text last := not_le.mp fun h => hselected.2 ⟨c, hc, h⟩
    refine hpassed ⟨s.text last, by rw [hcursor]; rfl, ?_⟩
    rw [htext]
    exact hle.trans hlt.le

theorem lost_of_passed (hstep : Step le n s chunk s') (hlast : chunk.getLast? = some last)
    (hk : s.owed k) (hout : k ∉ chunk) (hle : s.text k ≤ s.text last) : s'.Lost k := by
  cases hstep with
  | idle => cases hlast
  | @advance _ last' _ _ hlast' htext hcursor _ howed _ =>
    obtain rfl : last' = last := Option.some.inj (hlast'.symm.trans hlast)
    refine ⟨(howed k hout).mpr hk, fun hsel => hsel.2 ⟨s.text last', by rw [hcursor]; rfl, ?_⟩⟩
    rw [htext]
    exact hle

theorem Exhausted.none_owed (hn : 0 < n) (h : Exhausted le n s) (hahead : s.Ahead) (k : κ) :
    ¬ s.owed k := by
  intro hk
  exact absurd (h.full hn k (hahead k hk)) List.not_mem_nil

theorem Step.not_owed (hstep : Step le n s chunk s') (hk : ¬ s.owed k) : ¬ s'.owed k := by
  cases hstep with
  | idle => exact hk
  | advance _ _ _ _ hdone howed =>
    by_cases hmem : k ∈ chunk
    · exact hdone k hmem
    · exact fun h => hk ((howed k hmem).mp h)

theorem Step.eq_of_zero (hstep : Step le 0 s chunk s') : chunk = [] ∧ s' = s := by
  cases hstep with
  | idle => exact ⟨rfl, rfl⟩
  | advance hlimit hlast =>
    have hnil := List.eq_nil_of_length_eq_zero (Nat.le_zero.mp hlimit.length_le)
    rw [hnil] at hlast
    cases hlast

/-- A run that ends on an empty chunk has done all its work exactly when every key owed work was
ahead at the start and no chunk left one behind; chunks of size zero do none. -/
theorem run_done_iff (hrun : Run (fun s chunk s' => Step le n s chunk s') s trace t)
    (hend : Exhausted le n t) :
    (∀ k, ¬ t.owed k) ↔
      (0 < n ∨ ∀ k, ¬ s.owed k) ∧ s.Ahead ∧ ∀ e ∈ trace, e.1.PassesOnlyDone e.2 := by
  constructor
  · intro hnone
    have hlost : ∀ k, ¬ s.Lost k := fun k hk =>
      hnone k (hrun.preserved (Lost · k) (fun _ _ _ h => h.lost) hk).1
    refine ⟨?_, fun k hk => by_contra fun hnot => hlost k ⟨hk, hnot⟩, ?_⟩
    · rcases Nat.eq_zero_or_pos n with rfl | hn
      · right
        have hsame := hrun.preserved (· = s) (fun _ _ _ h hs => h.eq_of_zero.2.trans hs) rfl
        rwa [← hsame]
      · exact .inl hn
    clear hlost
    induction hrun with
    | nil => simp
    | @cons s s' t chunk trace hstep hrest ih =>
      intro e he
      rcases List.mem_cons.mp he with rfl | he
      · intro last hlast k hk hout
        by_contra hle
        have hlost := lost_of_passed hstep hlast hk hout (not_lt.mp hle)
        exact hnone k (hrest.preserved (Lost · k) (fun _ _ _ h => h.lost) hlost).1
      · exact ih hend hnone e he
  · rintro ⟨hn | hnone, hahead, hpass⟩ k
    · exact hend.none_owed hn (hrun.invariant Ahead (fun _ _ _ h => h.ahead) hpass hahead) k
    · exact hrun.preserved (fun s => ¬ s.owed k) (fun _ _ _ h => h.not_owed) (hnone k)

end KeysetScan
