import Mathlib.Data.List.Sort

universe u

namespace SortedPages

open List

variable {α : Type u} [LinearOrder α] {l : List α} {n : ℕ} {cursor : Option α} {a : α}

def after (l : List α) : Option α → List α
  | none => l
  | some a => l.filter fun x => a < x

theorem mem_after {x : α} : x ∈ after l cursor ↔ x ∈ l ∧ ∀ c ∈ cursor, c < x := by
  cases cursor with
  | none => simp [after]
  | some c => simp [after]

theorem after_sublist : (after l cursor).Sublist l := by
  cases cursor with
  | none => exact List.Sublist.refl l
  | some c => exact filter_sublist

/-- They are all behind the first one. -/
theorem drop_first_above (h : l.Pairwise (· ≤ ·)) (a : α) :
    l.drop ((l.findIdx? fun x => a < x).getD l.length) = l.filter fun x => a < x := by
  induction l with
  | nil => rfl
  | cons b l ih =>
    obtain ⟨hb, hl⟩ := pairwise_cons.mp h
    by_cases hab : a < b
    · have hall : ∀ x ∈ b :: l, decide (a < x) = true := by
        intro x hx
        rcases mem_cons.mp hx with rfl | hx
        · exact decide_eq_true hab
        · exact decide_eq_true (hab.trans_le (hb x hx))
      rw [filter_eq_self.mpr hall, List.findIdx?_cons, if_pos (decide_eq_true hab)]
      rfl
    · have hnot : ¬ decide (a < b) = true := by simpa using hab
      rw [List.findIdx?_cons, if_neg hnot, filter_cons, if_neg hnot, ← ih hl]
      cases l.findIdx? fun x => a < x <;> rfl

/-- The last of a page is the cursor of what is behind it. -/
theorem after_last (h : l.Pairwise (· < ·)) (hlast : ((after l cursor).take n).getLast? = some a) :
    after l (some a) = (after l cursor).drop n := by
  obtain ⟨init, hinit⟩ := List.getLast?_eq_some_iff.mp hlast
  have hmem : a ∈ after l cursor := mem_of_mem_take (mem_of_getLast? hlast)
  have hsorted : ((after l cursor).take n ++ (after l cursor).drop n).Pairwise (· < ·) := by
    rw [take_append_drop]
    exact h.sublist after_sublist
  obtain ⟨hpage, _, hbehind⟩ := pairwise_append.mp hsorted
  have hbelow : ((after l cursor).take n).filter (fun x => a < x) = [] := by
    rw [filter_eq_nil_iff]
    intro x hx
    rw [hinit] at hx hpage
    rcases mem_append.mp hx with hx | hx
    · simpa using ((pairwise_append.mp hpage).2.2 x hx a mem_cons_self).le
    · simp [mem_singleton.mp hx]
  have habove : ((after l cursor).drop n).filter (fun x => a < x) = (after l cursor).drop n := by
    refine filter_eq_self.mpr fun x hx => decide_eq_true ?_
    exact hbehind a (mem_of_getLast? hlast) x hx
  have hcursor : after l (some a) = (after l cursor).filter fun x => a < x := by
    cases cursor with
    | none => rfl
    | some c =>
      have hca : c < a := (mem_after.mp hmem).2 c rfl
      show l.filter _ = (l.filter _).filter _
      rw [filter_filter]
      refine filter_congr fun x _ => ?_
      by_cases hax : a < x
      · simp [hax, hca.trans hax]
      · simp [hax]
  rw [hcursor, ← take_append_drop n (after l cursor), filter_append, hbelow, habove,
    nil_append, take_append_drop]

end SortedPages
