import Rektifier.Runs

universe w

variable {α : Type w}

/-- From the value it replaced to the value it left. -/
structure Link (α : Type w) where
  old : α
  new : α

/-- Each link goes on from where the one before ended. -/
def Chained (first : α) : List (Link α) → α → Prop
  | [], last => last = first
  | link :: links, last => link.old = first ∧ Chained link.new links last

namespace Chained

variable {first last last' : α} {links links' : List (Link α)} {link : Link α}

theorem append_iff : Chained first (links ++ links') last ↔
    ∃ mid, Chained first links mid ∧ Chained mid links' last := by
  induction links generalizing first with
  | nil =>
    constructor
    · intro h
      exact ⟨first, rfl, h⟩
    · rintro ⟨mid, hmid, h⟩
      cases hmid
      exact h
  | cons link links ih =>
    constructor
    · rintro ⟨hold, h⟩
      obtain ⟨mid, hfront, hback⟩ := ih.mp h
      exact ⟨mid, ⟨hold, hfront⟩, hback⟩
    · rintro ⟨mid, ⟨hold, hfront⟩, hback⟩
      exact ⟨hold, ih.mpr ⟨mid, hfront, hback⟩⟩

theorem last_unique (h : Chained first links last) (h' : Chained first links last') :
    last = last' := by
  induction links generalizing first with
  | nil => exact h.trans h'.symm
  | cons link links ih => exact ih h.2 h'.2

theorem concat_iff (h : Chained first links last) :
    Chained first (links ++ [link]) last' ↔ link.old = last ∧ last' = link.new := by
  rw [append_iff]
  constructor
  · rintro ⟨mid, hmid, hold, hlast⟩
    cases h.last_unique hmid
    exact ⟨hold, hlast⟩
  · rintro ⟨hold, hlast⟩
    exact ⟨last, h, hold, hlast⟩

end Chained

section

variable {σ : Type*} {ℓ : Type*} {step : σ → ℓ → σ → Prop} {value : σ → α}
  {links : σ → List (Link α)} {ok : σ → ℓ → Prop}

/-- Nothing, or one link. It is `ok` exactly when the link starts from the value before, and then it
ends in the value after. -/
def KeepsHistory (value : σ → α) (links : σ → List (Link α)) (ok : σ → ℓ → Prop) (s : σ) (l : ℓ)
    (s' : σ) : Prop :=
  (links s' = links s ∧ value s' = value s ∧ ok s l) ∨
  ∃ link, links s' = links s ++ [link] ∧ (ok s l ↔ link.old = value s) ∧
    (ok s l → value s' = link.new)

theorem KeepsHistory.extends {s s' : σ} {l : ℓ} (h : KeepsHistory value links ok s l s') :
    ∃ more, links s' = links s ++ more := by
  rcases h with ⟨hlinks, _⟩ | ⟨link, hlinks, _⟩
  · exact ⟨[], by rw [hlinks, List.append_nil]⟩
  · exact ⟨[link], hlinks⟩

variable {inv : σ → Prop} {s t : σ} {trace : List (σ × ℓ)} {first : α}

theorem Run.links_extend (hrun : Run step s trace t)
    (hkeep : ∀ s l s', step s l s' → inv s → inv s')
    (hstep : ∀ s l s', step s l s' → inv s → KeepsHistory value links ok s l s')
    (hinv : inv s) : ∃ more, links t = links s ++ more := by
  induction hrun with
  | nil s => exact ⟨[], (List.append_nil _).symm⟩
  | cons hfirst _ ih =>
    obtain ⟨more, hmore⟩ := (hstep _ _ _ hfirst hinv).extends
    obtain ⟨later, hlater⟩ := ih (hkeep _ _ _ hfirst hinv)
    exact ⟨more ++ later, by rw [hlater, hmore, List.append_assoc]⟩

/-- The links of a run form one chain exactly when every step is ok. -/
theorem Run.chained_iff (hrun : Run step s trace t)
    (hkeep : ∀ s l s', step s l s' → inv s → inv s')
    (hstep : ∀ s l s', step s l s' → inv s → KeepsHistory value links ok s l s')
    (hinv : inv s) (hstart : Chained first (links s) (value s)) :
    Chained first (links t) (value t) ↔ ∀ e ∈ trace, ok e.1 e.2 := by
  induction hrun with
  | nil s => simp [hstart]
  | @cons s s' t l trace hfirst hrest ih =>
    have hinv' := hkeep s l s' hfirst hinv
    rw [List.forall_mem_cons]
    rcases hstep s l s' hfirst hinv with ⟨hlinks, hvalue, hok⟩ | ⟨link, hlinks, hok, hvalue⟩
    · have hnext := ih hinv' (by rw [hlinks, hvalue]; exact hstart)
      rw [hnext]
      exact ⟨fun h => ⟨hok, h⟩, fun h => h.2⟩
    · by_cases hgood : ok s l
      · have hnext : Chained first (links s') (value s') := by
          rw [hlinks]
          exact hstart.concat_iff.mpr ⟨hok.mp hgood, hvalue hgood⟩
        rw [ih hinv' hnext]
        exact ⟨fun h => ⟨hgood, h⟩, fun h => h.2⟩
      · -- the broken link stays in the history of every later state
        constructor
        · intro h
          obtain ⟨more, hmore⟩ := hrest.links_extend hkeep hstep hinv'
          rw [hmore] at h
          obtain ⟨mid, hfront, _⟩ := Chained.append_iff.mp h
          rw [hlinks] at hfront
          exact absurd (hok.mpr (hstart.concat_iff.mp hfront).1) hgood
        · exact fun h => absurd h.1 hgood

end
