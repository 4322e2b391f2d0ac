import Mathlib.Tactic

def hexDigit (ten : Char) (n : Nat) : Char :=
  if n < 10 then Char.ofNat ('0'.toNat + n) else Char.ofNat (ten.toNat + (n - 10))

def hexByte (ten : Char) (b : UInt8) : List Char :=
  [hexDigit ten (b.toNat / 16), hexDigit ten (b.toNat % 16)]

def hexEncode (bytes : List UInt8) : List Char := bytes.flatMap (hexByte 'a')

namespace PercentCoding

open List

def utf8 (text : List Char) : List UInt8 := text.flatMap String.utf8EncodeChar

/-- A byte to be escaped, or not ASCII, as a percent sign and its digits. -/
def encodeByte (escaped : UInt8 → Bool) (b : UInt8) : List Char :=
  if escaped b || 128 ≤ b then '%' :: hexByte 'A' b else [Char.ofNat b.toNat]

def encodeBytes (escaped : UInt8 → Bool) (bytes : List UInt8) : List Char :=
  bytes.flatMap (encodeByte escaped)

def encode (escaped : UInt8 → Bool) (text : List Char) : List Char :=
  encodeBytes escaped (utf8 text)

def hexValue (b : UInt8) : Option Nat :=
  if 48 ≤ b ∧ b ≤ 57 then some (b.toNat - 48)
  else if 65 ≤ b ∧ b ≤ 70 then some (b.toNat - 55)
  else if 97 ≤ b ∧ b ≤ 102 then some (b.toNat - 87)
  else none

/-- A percent sign without two digits behind it stands for itself. -/
def decodeBytes : List UInt8 → List UInt8
  | [] => []
  | [b] => [b]
  | [b, c] => [b, c]
  | b :: c :: d :: rest =>
    match hexValue c, hexValue d with
    | some hi, some lo =>
      if b = 37 then UInt8.ofNat (16 * hi + lo) :: decodeBytes rest
      else b :: decodeBytes (c :: d :: rest)
    | _, _ => b :: decodeBytes (c :: d :: rest)

example : decodeBytes (utf8 "a%2Fb%zz%2".toList) = utf8 "a/b%zz%2".toList := by decide

section Hex

variable {ten : Char} {b b' : UInt8}

theorem hexDigit_inj (hten : ten = 'a' ∨ ten = 'A') {m n : Nat} (hm : m < 16) (hn : n < 16)
    (h : hexDigit ten m = hexDigit ten n) : m = n := by
  have hlower : ∀ m < 16, ∀ n < 16, hexDigit 'a' m = hexDigit 'a' n → m = n := by decide
  have hupper : ∀ m < 16, ∀ n < 16, hexDigit 'A' m = hexDigit 'A' n → m = n := by decide
  rcases hten with rfl | rfl
  · exact hlower m hm n hn h
  · exact hupper m hm n hn h

theorem hexByte_inj (hten : ten = 'a' ∨ ten = 'A') (h : hexByte ten b = hexByte ten b') :
    b = b' := by
  have hb := b.toNat_lt
  have hb' := b'.toNat_lt
  obtain ⟨hhi, hlo⟩ := List.cons.inj h
  have hhigh := hexDigit_inj hten (by omega) (by omega) hhi
  have hlow := hexDigit_inj hten (by omega) (by omega) (List.cons.inj hlo).1
  exact UInt8.toNat_inj.mp (by omega)

theorem isAlphanum_of_mem_hexByte (hten : ten = 'a' ∨ ten = 'A') {c : Char}
    (h : c ∈ hexByte ten b) : c.isAlphanum := by
  have hlower : ∀ n < 16, (hexDigit 'a' n).isAlphanum := by decide
  have hupper : ∀ n < 16, (hexDigit 'A' n).isAlphanum := by decide
  have hall : ∀ n < 16, (hexDigit ten n).isAlphanum := by
    rcases hten with rfl | rfl
    · exact hlower
    · exact hupper
  have hb := b.toNat_lt
  rcases mem_cons.mp h with rfl | h
  · exact hall _ (by omega)
  · rw [mem_singleton.mp h]
    exact hall _ (by omega)

theorem hexEncode_injective : Function.Injective hexEncode := by
  intro xs
  induction xs with
  | nil =>
    intro ys h
    cases ys with
    | nil => rfl
    | cons y ys => cases h
  | cons x xs ih =>
    intro ys h
    cases ys with
    | nil => cases h
    | cons y ys =>
      have hparts : hexByte 'a' x ++ hexEncode xs = hexByte 'a' y ++ hexEncode ys := h
      obtain ⟨hbyte, hrest⟩ := append_inj hparts rfl
      rw [hexByte_inj (.inl rfl) hbyte, ih hrest]

/-- The digits are in the order of the bytes. -/
theorem hexEncode_lt {xs ys : List UInt8} (h : xs.map UInt8.toNat < ys.map UInt8.toNat) :
    hexEncode xs < hexEncode ys := by
  have hdigit : ∀ m < 16, ∀ n < 16, m < n → hexDigit 'a' m < hexDigit 'a' n := by decide
  induction xs generalizing ys with
  | nil =>
    cases ys with
    | nil => exact absurd h (lt_irrefl _)
    | cons y ys => exact nil_lt_cons _ _
  | cons x xs ih =>
    cases ys with
    | nil => exact absurd h (not_lt_nil _)
    | cons y ys =>
      have hx := x.toNat_lt
      have hy := y.toNat_lt
      show hexDigit 'a' (x.toNat / 16) :: hexDigit 'a' (x.toNat % 16) :: hexEncode xs
        < hexDigit 'a' (y.toNat / 16) :: hexDigit 'a' (y.toNat % 16) :: hexEncode ys
      simp only [cons_lt_cons_iff]
      rcases cons_lt_cons_iff.mp h with hlt | ⟨heq, hrest⟩
      · by_cases hhigh : x.toNat / 16 = y.toNat / 16
        · exact .inr ⟨by rw [hhigh], .inl (hdigit _ (by omega) _ (by omega) (by omega))⟩
        · exact .inl (hdigit _ (by omega) _ (by omega) (by omega))
      · rw [heq]
        exact .inr ⟨rfl, .inr ⟨rfl, ih hrest⟩⟩

theorem isAlphanum_of_mem_hexEncode {bytes : List UInt8} {c : Char} (h : c ∈ hexEncode bytes) :
    c.isAlphanum := by
  obtain ⟨b, _, hc⟩ := mem_flatMap.mp h
  exact isAlphanum_of_mem_hexByte (.inl rfl) hc

end Hex

theorem utf8_injective : Function.Injective utf8 := by
  intro xs ys h
  have hbytes : xs.utf8Encode = ys.utf8Encode := congrArg List.toByteArray h
  have hstrings : String.ofList xs = String.ofList ys := String.toByteArray_inj.mp hbytes
  simpa using congrArg String.toList hstrings

theorem encode_append (escaped : UInt8 → Bool) (xs ys : List Char) :
    encode escaped (xs ++ ys) = encode escaped xs ++ encode escaped ys := by
  simp [encode, encodeBytes, utf8]

variable {escaped : UInt8 → Bool}

theorem ofNat_inj {m n : Nat} (hm : m < 128) (hn : n < 128) (h : Char.ofNat m = Char.ofNat n) :
    m = n := by
  have hval : ∀ k < 128, (Char.ofNat k).toNat = k := by decide
  rw [← hval m hm, ← hval n hn, h]

/-- Where the percent sign is escaped, a text shows its first byte. -/
theorem encodeByte_append_inj (hpercent : escaped 37) {b b' : UInt8} {r r' : List Char}
    (h : encodeByte escaped b ++ r = encodeByte escaped b' ++ r') : b = b' ∧ r = r' := by
  have hplain : ∀ {b : UInt8} {r r' : List Char}, ¬ (escaped b || decide (128 ≤ b)) = true →
      [Char.ofNat b.toNat] ++ r ≠ '%' :: r' := by
    intro b r r' hb heq
    rw [Bool.or_eq_true, not_or, decide_eq_true_eq, UInt8.not_le] at hb
    have hlt : b.toNat < 128 := hb.2
    have hsame : b.toNat = 37 := ofNat_inj hlt (by decide) (List.cons.inj heq).1
    rw [UInt8.toNat_inj.mp (hsame.trans (by decide : 37 = (37 : UInt8).toNat)), hpercent] at hb
    exact hb.1 rfl
  unfold encodeByte at h
  by_cases hb : (escaped b || decide (128 ≤ b)) = true <;>
    by_cases hb' : (escaped b' || decide (128 ≤ b')) = true
  · rw [if_pos hb, if_pos hb'] at h
    obtain ⟨hbyte, hr⟩ := append_inj (List.cons.inj h).2 rfl
    exact ⟨hexByte_inj (.inr rfl) hbyte, hr⟩
  · rw [if_pos hb, if_neg hb'] at h
    exact absurd h.symm (hplain hb')
  · rw [if_neg hb, if_pos hb'] at h
    exact absurd h (hplain hb)
  · rw [if_neg hb, if_neg hb'] at h
    obtain ⟨hchar, hr⟩ := List.cons.inj h
    rw [Bool.or_eq_true, not_or, decide_eq_true_eq, UInt8.not_le] at hb hb'
    exact ⟨UInt8.toNat_inj.mp (ofNat_inj hb.2 hb'.2 hchar), hr⟩

theorem encodeBytes_injective (hpercent : escaped 37) :
    Function.Injective (encodeBytes escaped) := by
  have hne : ∀ (b : UInt8) (r : List Char), encodeByte escaped b ++ r ≠ [] := by
    intro b r h
    unfold encodeByte at h
    split at h <;> cases h
  intro xs
  induction xs with
  | nil =>
    intro ys h
    cases ys with
    | nil => rfl
    | cons y ys => exact absurd h.symm (hne y _)
  | cons x xs ih =>
    intro ys h
    cases ys with
    | nil => exact absurd h (hne x _)
    | cons y ys =>
      obtain ⟨hbyte, hrest⟩ := encodeByte_append_inj hpercent h
      rw [hbyte, ih hrest]

theorem encode_injective (hpercent : escaped 37) : Function.Injective (encode escaped) :=
  (encodeBytes_injective hpercent).comp utf8_injective

/-- An escaped character does not occur in an encoded text. -/
theorem not_mem_encode {c : Char} (hescaped : escaped (UInt8.ofNat c.toNat)) (hpercent : c ≠ '%')
    (hdigit : c.isAlphanum = false) (text : List Char) : c ∉ encode escaped text := by
  intro h
  obtain ⟨b, _, hc⟩ := mem_flatMap.mp h
  unfold encodeByte at hc
  split at hc
  next =>
    rcases mem_cons.mp hc with rfl | hc
    · exact hpercent rfl
    · rw [isAlphanum_of_mem_hexByte (.inr rfl) hc] at hdigit
      cases hdigit
  next hplain =>
    rw [mem_singleton.mp hc] at hescaped
    rw [Bool.or_eq_true, not_or, decide_eq_true_eq, UInt8.not_le] at hplain
    have hval : ∀ k < 128, (Char.ofNat k).toNat = k := by decide
    rw [hval b.toNat hplain.2, UInt8.ofNat_toNat] at hescaped
    exact hplain.1 hescaped

end PercentCoding
