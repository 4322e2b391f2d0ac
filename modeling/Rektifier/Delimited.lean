import Mathlib.Tactic
import Mathlib.Data.List.Infix

namespace Delimited

open List

variable {α : Type*} {a o c : α}

theorem split_at_first {l l' r r' : List α} (hl : a ∉ l) (hl' : a ∉ l')
    (h : l ++ a :: r = l' ++ a :: r') : l = l' ∧ r = r' := by
  induction l generalizing l' with
  | nil =>
    cases l' with
    | nil => exact ⟨rfl, List.cons.inj h |>.2⟩
    | cons c l' =>
      have hc : a = c := (List.cons.inj h).1
      exact absurd (hc ▸ mem_cons_self) hl'
  | cons c l ih =>
    cases l' with
    | nil =>
      have hc : c = a := (List.cons.inj h).1
      exact absurd (hc ▸ mem_cons_self) hl
    | cons c' l' =>
      obtain ⟨hc, h⟩ := List.cons.inj h
      rw [mem_cons, not_or] at hl hl'
      obtain ⟨rfl, hr⟩ := ih hl.2 hl'.2 h
      exact ⟨by rw [hc], hr⟩

theorem split_at_last {l l' r r' : List α} (hr : a ∉ r) (hr' : a ∉ r')
    (h : l ++ a :: r = l' ++ a :: r') : l = l' ∧ r = r' := by
  have hreverse : r.reverse ++ a :: l.reverse = r'.reverse ++ a :: l'.reverse := by
    simpa using congrArg List.reverse h
  obtain ⟨htail, hfront⟩ := split_at_first (by simpa using hr) (by simpa using hr') hreverse
  exact ⟨reverse_injective hfront, reverse_injective htail⟩

theorem not_mem_intercalate {sep : List α} {xs : List (List α)} (hsep : a ∉ sep)
    (h : ∀ x ∈ xs, a ∉ x) : a ∉ sep.intercalate xs := by
  induction xs with
  | nil => simp
  | cons x xs ih =>
    obtain ⟨hfirst, hlater⟩ := forall_mem_cons.mp h
    cases xs with
    | nil => simpa using hfirst
    | cons x' xs =>
      rw [intercalate_cons_cons]
      simp only [mem_append, not_or]
      exact ⟨⟨hfirst, hsep⟩, ih hlater⟩

/-- A separator that no part holds shows where the parts end. -/
theorem intercalate_inj {sep : List α} {xs ys : List (List α)} (hxs : ∀ x ∈ xs, a ∉ x)
    (hys : ∀ y ∈ ys, a ∉ y) (hx : xs ≠ []) (hy : ys ≠ [])
    (h : (a :: sep).intercalate xs = (a :: sep).intercalate ys) : xs = ys := by
  induction xs generalizing ys with
  | nil => exact absurd rfl hx
  | cons x xs ih =>
    cases ys with
    | nil => exact absurd rfl hy
    | cons y ys =>
      obtain ⟨hfirst, hlater⟩ := forall_mem_cons.mp hxs
      obtain ⟨hfirst', hlater'⟩ := forall_mem_cons.mp hys
      cases xs with
      | nil =>
        cases ys with
        | nil => simpa using h
        | cons y' ys =>
          refine absurd ?_ hfirst
          rw [intercalate_singleton, intercalate_cons_cons] at h
          simp [h]
      | cons x' xs =>
        cases ys with
        | nil =>
          refine absurd ?_ hfirst'
          rw [intercalate_singleton, intercalate_cons_cons] at h
          simp [← h]
        | cons y' ys =>
          simp only [intercalate_cons_cons, append_assoc, cons_append] at h
          obtain ⟨rfl, hrest⟩ := split_at_first hfirst hfirst' h
          rw [ih hlater hlater' (by simp) (by simp) (append_cancel_left hrest)]

/-- Parts that are never empty are found even when there may be none. -/
theorem intercalate_inj_of_ne_nil {sep : List α} {xs ys : List (List α)}
    (hxs : ∀ x ∈ xs, x ≠ [] ∧ a ∉ x) (hys : ∀ y ∈ ys, y ≠ [] ∧ a ∉ y)
    (h : (a :: sep).intercalate xs = (a :: sep).intercalate ys) : xs = ys := by
  have hnone : ∀ zs : List (List α), (∀ z ∈ zs, z ≠ [] ∧ a ∉ z) →
      (a :: sep).intercalate zs = [] → zs = [] := by
    intro zs hzs hnil
    cases zs with
    | nil => rfl
    | cons z zs =>
      refine absurd ?_ (hzs z mem_cons_self).1
      cases zs with
      | nil => simpa using hnil
      | cons z' zs => simp [intercalate_cons_cons] at hnil
  by_cases hx : xs = []
  · rw [hx, hnone ys hys (by rw [← h, hx]; rfl)]
  · by_cases hy : ys = []
    · rw [hy, hnone xs hxs (by rw [h, hy]; rfl)]
    · exact intercalate_inj (fun x hmem => (hxs x hmem).2) (fun y hmem => (hys y hmem).2) hx hy h

/-- A text that starts with a mark is found behind what has no such mark. -/
theorem infix_append_of_start {l xs ys : List α} (h : a ∉ xs) :
    a :: l <:+: xs ++ ys ↔ a :: l <:+: ys := by
  rw [infix_append_iff]
  constructor
  · rintro (hin | hin | ⟨l₁, l₂, heq, hl₁, hl₂⟩)
    · exact absurd (hin.subset mem_cons_self) h
    · exact hin
    · cases l₁ with
      | nil => exact heq ▸ hl₂.isInfix
      | cons b l₁ =>
        cases (List.cons.inj heq).1
        exact absurd (hl₁.subset mem_cons_self) h
  · exact fun hin => .inr (.inl hin)

/-- A text that ends in a mark is found before what has no such mark. -/
theorem infix_append_of_end {l xs ys : List α} (h : a ∉ ys) :
    l ++ [a] <:+: xs ++ ys ↔ l ++ [a] <:+: xs := by
  have hstart : a :: l.reverse <:+: ys.reverse ++ xs.reverse ↔ a :: l.reverse <:+: xs.reverse :=
    infix_append_of_start (by simpa using h)
  rw [← reverse_append, ← singleton_append, ← reverse_singleton,
    ← reverse_append, reverse_infix, reverse_infix] at hstart
  exact hstart

/-- Before, in, or after the brackets. -/
theorem infix_bracketed {x xs k ys : List α} (hoc : o ≠ c) (hxo : o ∉ x) (hxc : c ∉ x)
    (hko : o ∉ k) (hkc : c ∉ k) :
    o :: (x ++ [c]) <:+: xs ++ o :: (k ++ c :: ys) ↔
      o :: (x ++ [c]) <:+: xs ∨ x = k ∨ o :: (x ++ [c]) <:+: ys := by
  have hinner : o :: (x ++ [c]) <:+: o :: (k ++ c :: ys) ↔
      x = k ∨ o :: (x ++ [c]) <:+: ys := by
    rw [infix_cons_iff, prefix_cons_inj, append_cons k c ys,
      infix_append_of_start (by simp [hko, hoc])]
    refine or_congr ?_ Iff.rfl
    constructor
    · rintro ⟨t, ht⟩
      rw [append_assoc, append_assoc, singleton_append, singleton_append] at ht
      exact (split_at_first hxc hkc ht).1
    · rintro rfl
      exact prefix_append _ _
  rw [← hinner, infix_append_iff]
  constructor
  · rintro (hin | hin | ⟨l₁, l₂, heq, hl₁, hl₂⟩)
    · exact .inl hin
    · exact .inr hin
    -- the text cannot run over the opening bracket, which it holds at its start only
    · cases l₁ with
      | nil => exact .inr (heq ▸ hl₂.isInfix)
      | cons b l₁ =>
        cases l₂ with
        | nil =>
          rw [append_nil] at heq
          exact .inl (heq ▸ hl₁.isInfix)
        | cons d l₂ =>
          obtain ⟨_, heq⟩ := List.cons.inj heq
          have hd : d = o := (cons_prefix_cons.mp hl₂).1
          have hmem : o ∈ x ++ [c] := by simp [heq, hd]
          rcases mem_append.mp hmem with hmem | hmem
          · exact absurd hmem hxo
          · exact absurd (mem_singleton.mp hmem) hoc
  · rintro (hin | hin)
    · exact .inl hin
    · exact .inr (.inl hin)

end Delimited
