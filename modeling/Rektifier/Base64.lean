import Mathlib.Tactic.IntervalCases

namespace Base64

def digit (n : Nat) : Char :=
  if n < 26 then Char.ofNat ('A'.toNat + n)
  else if n < 52 then Char.ofNat ('a'.toNat + (n - 26))
  else if n < 62 then Char.ofNat ('0'.toNat + (n - 52))
  else if n = 62 then '+' else '/'

/-- Three bytes as four digits, the last group padded. -/
def encodeChars : List UInt8 → List Char
  | [] => []
  | [a] =>
    let n := a.toNat * 16
    [digit (n / 64), digit (n % 64), '=', '=']
  | [a, b] =>
    let n := (a.toNat * 256 + b.toNat) * 4
    [digit (n / 4096), digit (n / 64 % 64), digit (n % 64), '=']
  | a :: b :: c :: rest =>
    let n := a.toNat * 65536 + b.toNat * 256 + c.toNat
    digit (n / 262144) :: digit (n / 4096 % 64) :: digit (n / 64 % 64) :: digit (n % 64) ::
      encodeChars rest

def encode (bytes : List UInt8) : String := String.ofList (encodeChars bytes)

example : encode [77, 97, 110, 33] = "TWFuIQ==" := by decide

def index (c : Char) : Option Nat :=
  if c.isUpper then some (c.toNat - 'A'.toNat)
  else if c.isLower then some (c.toNat - 'a'.toNat + 26)
  else if c.isDigit then some (c.toNat - '0'.toNat + 52)
  else if c = '+' then some 62
  else if c = '/' then some 63
  else none

/-- Padding only in the last group, whose unused bits are zero. -/
def decodeChars : List Char → Option (List UInt8)
  | [] => some []
  | a :: b :: c :: d :: rest => do
    let a ← index a
    let b ← index b
    if d = '=' then
      if rest ≠ [] then none
      else if c = '=' then
        if b % 16 = 0 then some [UInt8.ofNat ((a * 64 + b) / 16)] else none
      else
        let c ← index c
        let n := (a * 4096 + b * 64 + c) / 4
        if c % 4 = 0 then some [UInt8.ofNat (n / 256), UInt8.ofNat (n % 256)] else none
    else
      let c ← index c
      let d ← index d
      let n := a * 262144 + b * 4096 + c * 64 + d
      let tail ← decodeChars rest
      some (UInt8.ofNat (n / 65536) :: UInt8.ofNat (n / 256 % 256) :: UInt8.ofNat (n % 256) :: tail)
  | _ => none

def decode (s : String) : Option (List UInt8) := decodeChars s.toList

theorem index_digit {n : Nat} (h : n < 64) : index (digit n) = some n := by
  revert n
  decide

theorem digit_ne_pad {n : Nat} (h : n < 64) : digit n ≠ '=' := by
  revert n
  decide

theorem ofNat_eq {a : UInt8} {n : Nat} (h : n = a.toNat) : UInt8.ofNat n = a := by
  rw [h, UInt8.ofNat_toNat]

theorem four_digits (n : Nat) :
    n / 262144 * 262144 + n / 4096 % 64 * 4096 + n / 64 % 64 * 64 + n % 64 = n := by
  have h1 : n / 4096 = n / 64 / 64 := by rw [Nat.div_div_eq_div_mul]
  have h2 : n / 262144 = n / 64 / 64 / 64 := by
    rw [Nat.div_div_eq_div_mul, Nat.div_div_eq_div_mul]
  rw [h1, h2]
  have := Nat.div_add_mod n 64
  have := Nat.div_add_mod (n / 64) 64
  have := Nat.div_add_mod (n / 64 / 64) 64
  omega

theorem decodeChars_encodeChars (bytes : List UInt8) :
    decodeChars (encodeChars bytes) = some bytes := by
  induction bytes using encodeChars.induct with
  | case1 => rfl
  | case2 a =>
    have ha := a.toNat_lt
    rw [encodeChars]
    generalize hg : a.toNat * 16 = n
    have h1 : n / 64 < 64 := by omega
    have h2 : n % 64 < 64 := by omega
    have hzero : n % 64 % 16 = 0 := by omega
    have hr : UInt8.ofNat ((n / 64 * 64 + n % 64) / 16) = a := ofNat_eq (by omega)
    simp only [decodeChars, index_digit h1, index_digit h2, hr, hzero, if_true, Option.bind_eq_bind,
      Option.bind_some, ne_eq, not_true, if_false]
  | case3 a b =>
    have ha := a.toNat_lt
    have hb := b.toNat_lt
    rw [encodeChars]
    generalize hg : (a.toNat * 256 + b.toNat) * 4 = n
    have h1 : n / 4096 < 64 := by omega
    have h2 : n / 64 % 64 < 64 := by omega
    have h3 : n % 64 < 64 := by omega
    have hzero : n % 64 % 4 = 0 := by omega
    have hn : n / 4096 * 4096 + n / 64 % 64 * 64 + n % 64 = n := by omega
    have hx : UInt8.ofNat (n / 4 / 256) = a := ofNat_eq (by omega)
    have hy : UInt8.ofNat (n / 4 % 256) = b := ofNat_eq (by omega)
    simp only [decodeChars, index_digit h1, index_digit h2, index_digit h3, digit_ne_pad h3, hn, hx, hy,
      hzero, if_true, Option.bind_eq_bind, Option.bind_some, ne_eq, not_true, if_false]
  | case4 a b c rest ih =>
    have ha := a.toNat_lt
    have hb := b.toNat_lt
    have hc := c.toNat_lt
    rw [encodeChars]
    generalize hg : a.toNat * 65536 + b.toNat * 256 + c.toNat = n
    have h1 : n / 262144 < 64 := by omega
    have h2 : n / 4096 % 64 < 64 := by omega
    have h3 : n / 64 % 64 < 64 := by omega
    have h4 : n % 64 < 64 := by omega
    have hx : UInt8.ofNat (n / 65536) = a := ofNat_eq (by omega)
    have hy : UInt8.ofNat (n / 256 % 256) = b := ofNat_eq (by omega)
    have hz : UInt8.ofNat (n % 256) = c := ofNat_eq (by omega)
    simp [decodeChars, index_digit h1, index_digit h2, index_digit h3, index_digit h4,
      digit_ne_pad h4, ih, four_digits, hx, hy, hz]

theorem decode_encode (bytes : List UInt8) : decode (encode bytes) = some bytes := by
  rw [decode, encode, String.toList_ofList, decodeChars_encodeChars]

end Base64
