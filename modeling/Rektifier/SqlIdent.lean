import Mathlib
import Rektifier.SqlLiteral

namespace SqlIdent

open List

variable {n : Nat} {reserved : List Char → Bool} {cs : List Char}

def isStart (c : Char) : Bool := c.isAlpha || c = '_' || 128 ≤ c.toNat

def isPart (c : Char) : Bool := isStart c || c.isDigit || c = '$'

/-- One identifier that is written without quotes. -/
def isIdent : List Char → Bool
  | [] => false
  | c :: cs => isStart c && cs.all isPart

def byteSize (cs : List Char) : Nat := (cs.map Char.utf8Size).sum

/-- As many whole characters as fit into so many bytes. -/
def clip : Nat → List Char → List Char
  | _, [] => []
  | n, c :: cs => if c.utf8Size ≤ n then c :: clip (n - c.utf8Size) cs else []

def fold (cs : List Char) : List Char := cs.map Char.toLower

/-- Folded to lower case, cut to `n` bytes, and not reserved. -/
def unquoted (reserved : List Char → Bool) (n : Nat) (cs : List Char) : Option (List Char) :=
  if isIdent cs && !reserved (clip n (fold cs)) then some (clip n (fold cs)) else none

/-- An empty one is refused. -/
def quoted (n : Nat) : List Char → Option (List Char)
  | '"' :: cs => match SqlLiteral.body '"' cs with
    | some (c :: v, []) => some (clip n (c :: v))
    | _ => none
  | _ => none

theorem clip_of_le (h : byteSize cs ≤ n) : clip n cs = cs := by
  induction cs generalizing n with
  | nil => rfl
  | cons c cs ih =>
    simp only [byteSize, map_cons, sum_cons] at h
    rw [clip, if_pos (by omega), ih (by simp only [byteSize]; omega)]

theorem byteSize_clip (n : Nat) (cs : List Char) : byteSize (clip n cs) ≤ n := by
  induction cs generalizing n with
  | nil => exact Nat.zero_le n
  | cons c cs ih =>
    rw [clip]
    split
    next hc =>
      have hrest := ih (n - c.utf8Size)
      simp only [byteSize, map_cons, sum_cons] at hrest ⊢
      omega
    next => exact Nat.zero_le n

theorem clip_start (n : Nat) (cs : List Char) : clip n cs <+: cs := by
  induction cs generalizing n with
  | nil => exact nil_prefix
  | cons c cs ih =>
    rw [clip]
    split
    next => exact (prefix_cons_inj c).mpr (ih _)
    next => exact nil_prefix

theorem clip_eq_self_iff : clip n cs = cs ↔ byteSize cs ≤ n := by
  constructor
  · intro h
    have hle := byteSize_clip n cs
    rwa [h] at hle
  · exact clip_of_le

theorem toLower_preserves {p : Char → Bool} (halpha : ∀ c, c.isAlpha → p c) {c : Char}
    (h : p c) : p c.toLower := by
  by_cases hc : c.isUpper
  · refine halpha _ ?_
    rw [Char.isAlpha_toLower_eq_isAlpha, Char.isAlpha, hc]
    rfl
  · rwa [Char.toLower_eq_of_not_isUpper hc]

theorem isStart_of_isAlpha (c : Char) (h : c.isAlpha) : isStart c := by
  simp [isStart, h]

theorem isPart_of_isAlpha (c : Char) (h : c.isAlpha) : isPart c := by
  simp [isPart, isStart, h]

theorem isPart_of_isIdent (h : isIdent cs) :
    ∀ c ∈ cs, isPart c := by
  cases cs with
  | nil => exact nofun
  | cons c cs =>
    simp only [isIdent, Bool.and_eq_true, all_eq_true] at h
    exact forall_mem_cons.mpr ⟨by simp [isPart, h.1], h.2⟩

theorem isIdent_fold (h : isIdent cs) : isIdent (fold cs) := by
  cases cs with
  | nil => cases h
  | cons c cs =>
    simp only [isIdent, Bool.and_eq_true, all_eq_true] at h
    simp only [fold, map_cons, isIdent, Bool.and_eq_true, all_eq_true]
    refine ⟨toLower_preserves isStart_of_isAlpha h.1, ?_⟩
    intro d hd
    obtain ⟨d', hd', rfl⟩ := mem_map.mp hd
    exact toLower_preserves isPart_of_isAlpha (h.2 d' hd')

theorem isIdent_clip (hn : 4 ≤ n) (h : isIdent cs) :
    isIdent (clip n cs) := by
  cases cs with
  | nil => cases h
  | cons c cs =>
    have hc : c.utf8Size ≤ n := c.utf8Size_le_four.trans hn
    simp only [isIdent, Bool.and_eq_true, all_eq_true] at h
    simp only [clip, if_pos hc, isIdent, Bool.and_eq_true, all_eq_true]
    exact ⟨h.1, fun d hd => h.2 d ((clip_start _ cs).subset hd)⟩

theorem fold_clip_fold (n : Nat) (cs : List Char) : fold (clip n (fold cs)) = clip n (fold cs) := by
  have hlower : ∀ c ∈ clip n (fold cs), c.toLower = c := by
    intro c hc
    obtain ⟨d, _, rfl⟩ := mem_map.mp ((clip_start n (fold cs)).subset hc)
    exact Char.toLower_toLower_eq_toLower d
  exact (map_congr_left hlower).trans (map_id' _)

theorem unquoted_eq_self_iff :
    unquoted reserved n cs = some cs ↔
      isIdent cs ∧ fold cs = cs ∧ byteSize cs ≤ n ∧ reserved cs = false := by
  unfold unquoted
  constructor
  · intro h
    obtain ⟨hif, hself⟩ := Option.ite_none_right_eq_some.mp h
    have hclip : clip n (fold cs) = cs := Option.some.inj hself
    have hfold : fold cs = cs := by
      have hlen : (clip n (fold cs)).length = (fold cs).length := by
        rw [hclip, fold, length_map]
      exact ((clip_start n (fold cs)).eq_of_length hlen).symm.trans hclip
    rw [hfold] at hclip
    rw [hfold, hclip] at hif
    simp only [Bool.and_eq_true, Bool.not_eq_true'] at hif
    exact ⟨hif.1, hfold, clip_eq_self_iff.mp hclip, hif.2⟩
  · rintro ⟨hident, hfold, hsize, hreserved⟩
    rw [hfold, clip_of_le hsize, hident, hreserved]
    rfl

theorem unquoted_idem (hn : 4 ≤ n) {cs v : List Char}
    (h : unquoted reserved n cs = some v) : unquoted reserved n v = some v := by
  unfold unquoted at h
  obtain ⟨hif, hv⟩ := Option.ite_none_right_eq_some.mp h
  simp only [Bool.and_eq_true, Bool.not_eq_true'] at hif
  cases hv
  exact unquoted_eq_self_iff.mpr ⟨isIdent_clip hn (isIdent_fold hif.1), fold_clip_fold n cs,
    byteSize_clip n _, hif.2⟩

theorem quoted_double {v : List Char} (hne : v ≠ []) (hzero : '\x00' ∉ v) :
    quoted n ('"' :: (SqlLiteral.double '"' v ++ ['"'])) = some (clip n v) := by
  have hbody : SqlLiteral.body '"' (SqlLiteral.double '"' v ++ ['"']) = some (v, []) :=
    SqlLiteral.body_double hzero nofun
  cases v with
  | nil => exact absurd rfl hne
  | cons c v => rw [quoted, hbody]

end SqlIdent
