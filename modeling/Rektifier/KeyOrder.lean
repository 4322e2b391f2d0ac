import Rektifier.KeyConditionSpec

namespace Rektifier

open List

variable {w v : KeyValue}

def ComparisonOp.flip : ComparisonOp → ComparisonOp
  | .lt => .gt
  | .le => .ge
  | .gt => .lt
  | .ge => .le
  | op => op

theorem keyOrder_swap (v w : KeyValue) : keyOrder w v = (keyOrder v w).map Ordering.swap := by
  cases v <;> cases w <;> try rfl
  case s.s a b =>
    have hswap : compare b a = (compare a b).swap := Std.OrientedCmp.eq_swap
    simp [keyOrder, hswap]
  case n.n a b =>
    rcases ha : Decimal.parse a with _ | d <;> rcases hb : Decimal.parse b with _ | e <;>
      simp [keyOrder, ha, hb]
    exact Std.OrientedCmp.eq_swap
  case b.b a b =>
    have hswap : byteOrder b a = (byteOrder a b).swap := by
      unfold byteOrder
      exact Std.OrientedCmp.eq_swap
    simp [keyOrder, hswap]

theorem meets_swap (op : ComparisonOp) (ord : Option Ordering) :
    op.meets (ord.map Ordering.swap) = op.flip.meets ord := by
  rcases ord with _ | ord
  · cases op <;> rfl
  · cases op <;> cases ord <;> rfl

@[simp] theorem meets_none (op : ComparisonOp) : op.meets none = false := by
  cases op <;> rfl

def KeyValue.hasOrder : KeyValue → Bool
  | .n text => (Decimal.parse text).isSome
  | _ => true

theorem keyOrder_of_not_hasOrder (h : w.hasOrder = false) (v : KeyValue) :
    keyOrder v w = none := by
  cases w with
  | n s =>
    have hnone : Decimal.parse s = none := by simpa [KeyValue.hasOrder] using h
    cases v <;> simp [keyOrder, hnone]
  | _ => cases h

theorem keyOrder_self (h : v.hasOrder) : keyOrder v v = some .eq := by
  cases v with
  | n s =>
    obtain ⟨d, hd⟩ := Option.isSome_iff_exists.mp h
    simp [keyOrder, hd]
  | _ => simp [keyOrder, byteOrder]

theorem keyOrder_isSome (htype : v.keyType = w.keyType) (hv : v.hasOrder)
    (hw : w.hasOrder) : ∃ ord, keyOrder v w = some ord := by
  cases v <;> cases w <;> simp_all [keyOrder, KeyValue.keyType, KeyValue.hasOrder]
  rename_i a b
  obtain ⟨d, hd⟩ := Option.isSome_iff_exists.mp hv
  obtain ⟨e, he⟩ := Option.isSome_iff_exists.mp hw
  simp [hd, he]

theorem lt_append_of_ne_nil {α : Type} [LinearOrder α] {l t : List α} (ht : t ≠ []) :
    l < l ++ t := by
  obtain ⟨a, as, rfl⟩ := exists_cons_of_ne_nil ht
  have hlex : List.Lex (· < ·) (l ++ []) (l ++ a :: as) :=
    List.Lex.append_left (· < ·) List.Lex.nil l
  rwa [append_nil] at hlex

theorem exists_key_gt (h : w.hasOrder) : ∃ v : KeyValue,
    v.keyType = w.keyType ∧ v.hasOrder ∧ keyOrder v w = some .gt := by
  cases w with
  | s text =>
    refine ⟨.s (text ++ "a"), rfl, rfl, ?_⟩
    have hlt : text < text ++ "a" := by
      rw [String.lt_iff_toList_lt, String.toList_append]
      exact lt_append_of_ne_nil (cons_ne_nil _ _)
    simp [keyOrder, compare_gt_iff_gt.mpr hlt]
  | n text =>
    obtain ⟨d, hd⟩ := Option.isSome_iff_exists.mp h
    obtain ⟨above, e, he, hlt⟩ := Decimal.exists_parse_gt d.value
    refine ⟨.n above, rfl, by simp [KeyValue.hasOrder, he], ?_⟩
    simp [keyOrder, hd, he, compare_gt_iff_gt.mpr hlt]
  | b bytes =>
    refine ⟨.b (bytes ++ [0]), rfl, rfl, ?_⟩
    have hlt : bytes.map UInt8.toNat < (bytes ++ [0]).map UInt8.toNat := by
      rw [map_append]
      exact lt_append_of_ne_nil (cons_ne_nil _ _)
    simp only [keyOrder, byteOrder, compare_gt_iff_gt.mpr hlt]

/-- The empty text and binary, below which there is nothing. -/
def AttributeValue.isLeast : AttributeValue → Bool
  | .s v => v = ""
  | .b v => v = []
  | _ => false

theorem exists_key_lt (h : w.hasOrder) (hleast : (kvToAv w).isLeast = false) :
    ∃ v : KeyValue, v.keyType = w.keyType ∧ keyOrder v w = some .lt := by
  cases w with
  | s text =>
    refine ⟨.s "", rfl, ?_⟩
    have hne : text ≠ "" := by simpa [kvToAv, AttributeValue.isLeast] using hleast
    have hlt : "" < text := by
      rw [String.lt_iff_toList_lt]
      rcases htext : text.toList with _ | ⟨c, cs⟩
      · exact absurd (String.toList_eq_nil_iff.mp htext) hne
      · exact List.Lex.nil
    simp [keyOrder, compare_lt_iff_lt.mpr hlt]
  | n text =>
    obtain ⟨d, hd⟩ := Option.isSome_iff_exists.mp h
    obtain ⟨below, e, he, hlt⟩ := Decimal.exists_parse_lt d.value
    exact ⟨.n below, rfl, by simp [keyOrder, hd, he, compare_lt_iff_lt.mpr hlt]⟩
  | b bytes =>
    refine ⟨.b [], rfl, ?_⟩
    have hne : bytes ≠ [] := by simpa [kvToAv, AttributeValue.isLeast] using hleast
    have hlt : ([] : List UInt8).map UInt8.toNat < bytes.map UInt8.toNat := by
      rcases bytes with _ | ⟨c, cs⟩
      · exact absurd rfl hne
      · exact List.Lex.nil
    simp only [keyOrder, byteOrder, compare_lt_iff_lt.mpr hlt]

theorem not_lt_of_isLeast (hleast : (kvToAv w).isLeast) (v : KeyValue) :
    keyOrder v w ≠ some .lt := by
  cases w with
  | s text =>
    have heq : text = "" := by simpa [kvToAv, AttributeValue.isLeast] using hleast
    subst heq
    cases v with
    | s a =>
      intro h
      have hlt : a < "" := compare_lt_iff_lt.mp (by simpa [keyOrder] using h)
      rw [String.lt_iff_toList_lt] at hlt
      exact absurd hlt (not_lt_nil _)
    | _ => simp [keyOrder]
  | n text => cases hleast
  | b bytes =>
    have heq : bytes = [] := by simpa [kvToAv, AttributeValue.isLeast] using hleast
    subst heq
    cases v with
    | b a =>
      intro h
      have hlt : a.map UInt8.toNat < [] := compare_lt_iff_lt.mp (Option.some.inj h)
      exact absurd hlt (not_lt_nil _)
    | _ => simp [keyOrder]

theorem meets_ge_compare {α : Type} [LinearOrder α] (a b : α) :
    ComparisonOp.ge.meets (some (compare a b)) ↔ b ≤ a := by
  rcases lt_trichotomy a b with h | h | h
  · simp [compare_lt_iff_lt.mpr h, ComparisonOp.meets, h]
  · simp [ComparisonOp.meets, h]
  · simp [compare_gt_iff_gt.mpr h, ComparisonOp.meets, h.le]

theorem meets_le_compare {α : Type} [LinearOrder α] (a b : α) :
    ComparisonOp.le.meets (some (compare a b)) ↔ a ≤ b := by
  rcases lt_trichotomy a b with h | h | h
  · simp [compare_lt_iff_lt.mpr h, ComparisonOp.meets, h.le]
  · simp [ComparisonOp.meets, h]
  · simp [compare_gt_iff_gt.mpr h, ComparisonOp.meets, h]

theorem not_between_compare {α : Type} [LinearOrder α] {a lo hi : α} (h : compare lo hi = .gt)
    (hge : ComparisonOp.ge.meets (some (compare a lo))) :
    ComparisonOp.le.meets (some (compare a hi)) = false := by
  rw [Bool.eq_false_iff, Ne, meets_le_compare]
  have hlo := (meets_ge_compare a lo).mp hge
  exact not_le.mpr (lt_of_lt_of_le (compare_gt_iff_gt.mp h) hlo)

theorem not_between_of_gt {lo hi : KeyValue} (h : keyOrder lo hi = some .gt)
    (hge : ComparisonOp.ge.meets (keyOrder v lo)) :
    ComparisonOp.le.meets (keyOrder v hi) = false := by
  cases lo <;> cases hi <;> cases v <;> try first | rfl | cases h
  case s.s.s lo hi v => exact not_between_compare (Option.some.inj h) hge
  case b.b.b lo hi v => exact not_between_compare (Option.some.inj h) hge
  case n.n.n lo hi v =>
    rcases hv : Decimal.parse v with _ | c
    · simp [keyOrder, hv]
    rcases hlo : Decimal.parse lo with _ | d
    · simp [keyOrder, hlo] at h
    rcases hhi : Decimal.parse hi with _ | e
    · simp [keyOrder, hlo, hhi] at h
    simp only [keyOrder, hv, hlo, hhi, Option.bind_some, Option.map_some] at h hge ⊢
    exact not_between_compare (Option.some.inj h) hge

end Rektifier
