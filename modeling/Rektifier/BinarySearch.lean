import Mathlib.Data.List.Basic
import Mathlib.Order.Basic

namespace BinarySearch

open List

variable {α : Type*} (cmp : α → Ordering) (items : List α)

/-- Of the `size` items from `base` on, the half that can hold an equal one is kept. An equal item
does not end the rounds. -/
def narrow (base size : Nat) : Nat :=
  if size ≤ 1 then base
  else
    narrow (if (items[base + size / 2]?).any (cmp · = .gt) then base else base + size / 2)
      (size - size / 2)
termination_by size
decreasing_by omega

/-- The place of an equal item, or where it belongs. -/
def search : Except Nat Nat :=
  if items = [] then .error 0
  else
    let base := narrow cmp items 0 items.length
    match (items[base]?).map cmp with
    | some .eq => .ok base
    | some .lt => .error (base + 1)
    | _ => .error base

/-- Less first, then equal, then greater. -/
def Ordered : Prop :=
  items.Pairwise fun a b => (cmp a = .gt → cmp b = .gt) ∧ (cmp b = .lt → cmp a = .lt)

variable {cmp items} {base size : Nat}

/-- What is past the items is greater; the first is not, unless nothing is before it. -/
structure Kept (cmp : α → Ordering) (items : List α) (base size : Nat) : Prop where
  nonempty : 0 < size
  within : base + size ≤ items.length
  past : ∀ i (h : i < items.length), base + size ≤ i → cmp items[i] = .gt
  first : ∀ h : base < items.length, 0 < base → cmp items[base] ≠ .gt

theorem Ordered.gt_of_le (h : Ordered cmp items) {i j : Nat} (hij : i ≤ j) (hj : j < items.length)
    (hgt : cmp items[i] = .gt) : cmp items[j] = .gt := by
  rcases Nat.eq_or_lt_of_le hij with rfl | hlt
  · exact hgt
  · exact (pairwise_iff_getElem.mp h i j (by omega) hj hlt).1 hgt

theorem Kept.half (hordered : Ordered cmp items) (h : Kept cmp items base size) (hsize : 1 < size) :
    Kept cmp items (if (items[base + size / 2]?).any (cmp · = .gt) then base else base + size / 2)
      (size - size / 2) := by
  obtain ⟨_, hwithin, hpast, hfirst⟩ := h
  have hmid : base + size / 2 < items.length := by omega
  rw [List.getElem?_eq_getElem hmid, Option.any_some]
  by_cases hgt : cmp items[base + size / 2] = .gt
  · rw [if_pos (decide_eq_true hgt)]
    refine ⟨by omega, by omega, fun i hi hle => ?_, hfirst⟩
    exact hordered.gt_of_le (by omega) hi hgt
  · rw [if_neg (by simpa using hgt)]
    refine ⟨by omega, by omega, fun i hi hle => hpast i hi (by omega), fun _ _ => hgt⟩

theorem Kept.narrow (hordered : Ordered cmp items) (h : Kept cmp items base size) :
    Kept cmp items (narrow cmp items base size) 1 := by
  fun_induction BinarySearch.narrow cmp items base size with
  | case1 base size hsize =>
    have hone : size = 1 := by have := h.nonempty; omega
    rwa [hone] at h
  | case2 base size hsize ih => exact ih (h.half hordered (by omega))

theorem Kept.start (hne : items ≠ []) : Kept cmp items 0 items.length where
  nonempty := length_pos_iff.mpr hne
  within := by omega
  past := fun i h hle => by omega
  first := fun _ h => absurd h (Nat.lt_irrefl 0)

theorem search_isOk_iff (hordered : Ordered cmp items) :
    (search cmp items).isOk ↔ ∃ item ∈ items, cmp item = .eq := by
  by_cases hne : items = []
  · simp [search, hne, Except.isOk, Except.toBool]
  have hstart : Kept cmp items 0 items.length := .start hne
  obtain ⟨_, hwithin, hpast, hfirst⟩ := hstart.narrow hordered
  have hbase : narrow cmp items 0 items.length < items.length := by omega
  have hfound : (search cmp items).isOk ↔
      cmp items[narrow cmp items 0 items.length] = .eq := by
    simp only [search, if_neg hne, List.getElem?_eq_getElem hbase, Option.map_some]
    cases cmp items[narrow cmp items 0 items.length] <;> simp [Except.isOk, Except.toBool]
  rw [hfound]
  constructor
  · exact fun heq => ⟨_, getElem_mem hbase, heq⟩
  · rintro ⟨item, hmem, heq⟩
    obtain ⟨i, hi, rfl⟩ := mem_iff_getElem.mp hmem
    rcases Nat.lt_trichotomy i (narrow cmp items 0 items.length) with hlt | rfl | hgt
    · have hnotGt := hfirst hbase (by omega)
      have hnotLt : cmp items[narrow cmp items 0 items.length] ≠ .lt := by
        intro h
        have := (pairwise_iff_getElem.mp hordered i _ hi hbase hlt).2 h
        rw [heq] at this
        cases this
      cases hcmp : cmp items[narrow cmp items 0 items.length] with
      | lt => exact absurd hcmp hnotLt
      | eq => rfl
      | gt => exact absurd hcmp hnotGt
    · exact heq
    · have := hpast i hi (by omega)
      rw [heq] at this
      cases this

end BinarySearch
