import Rektifier.Decimal
import Mathlib.Order.WithBot

/-- A `numeric`, with the digits it prints. -/
inductive Numeric where
  | finite (d : Decimal)
  | infinity (neg : Bool)
  | nan
deriving DecidableEq

namespace Numeric

/-- `-Infinity`, the numbers, `Infinity` and `NaN`, in their order. -/
abbrev Value := WithTop (WithTop (WithBot ℚ))

def ofRat (q : ℚ) : Value := ((q : WithBot ℚ) : WithTop (WithBot ℚ))

def value : Numeric → Value
  | finite d => ofRat d.value
  | infinity true => ((⊥ : WithBot ℚ) : WithTop (WithBot ℚ))
  | infinity false => (⊤ : WithTop (WithBot ℚ))
  | nan => ⊤

def toText : Numeric → String
  | finite d => d.toText
  | infinity neg => if neg then "-Infinity" else "Infinity"
  | nan => "NaN"

def isSpace (c : Char) : Bool := c = ' ' || '\t' ≤ c && c ≤ '\r'

/-- Digits with single underscores before or between them, and the text after. -/
def digitRun (digit : Char → Bool) : List Char → List Char × List Char
  | '_' :: c :: cs =>
    if digit c then (c :: (digitRun digit cs).1, (digitRun digit cs).2) else ([], '_' :: c :: cs)
  | c :: cs => if digit c then (c :: (digitRun digit cs).1, (digitRun digit cs).2) else ([], c :: cs)
  | [] => ([], [])

def decimalRun (cs : List Char) : List Char × List Char :=
  if cs.head?.any Char.isDigit then digitRun Char.isDigit cs else ([], cs)

/-- One above `PG_INT32_MAX / 2` is out of range. -/
def exponent : List Char → Option (Int × List Char)
  | [] => some (0, [])
  | c :: cs =>
    if c = 'e' ∨ c = 'E' then
      let (neg, ds) := Decimal.splitSign cs
      let (run, rest) := decimalRun ds
      if run ≠ [] ∧ Decimal.ofDigits run ≤ 1073741823 then
        some (Decimal.signed neg (Decimal.ofDigits run), rest)
      else none
    else some (0, c :: cs)

def decimal (neg : Bool) (cs : List Char) : Option (Numeric × List Char) :=
  let (ip, rest) := decimalRun cs
  let (fp, rest) := match rest with
    | '.' :: r => decimalRun r
    | r => ([], r)
  if ip = [] ∧ fp = [] then none
  else (exponent rest).map fun e =>
    (finite (Decimal.ofMantissa neg (Decimal.ofDigits (ip ++ fp)) fp.length e.1), e.2)

def isDigitOf (base : Nat) (c : Char) : Bool :=
  c.isDigit && Decimal.digitVal c < base || base = 16 && 'a' ≤ c.toLower && c.toLower ≤ 'f'

def digitOf (c : Char) : Nat :=
  if c.isDigit then Decimal.digitVal c else c.toLower.toNat - 'a'.toNat + 10

/-- The integer behind `0x`, `0o` or `0b`. -/
def nonDecimal (base : Nat) (neg : Bool) (cs : List Char) : Option (Numeric × List Char) :=
  let (run, rest) := digitRun (isDigitOf base) cs
  if run = [] then none
  else some (finite ⟨Decimal.signed neg (run.foldl (fun n c => base * n + digitOf c) 0), 0⟩, rest)

def afterWord (word cs : List Char) : Option (List Char) :=
  if (cs.take word.length).map Char.toLower = word then some (cs.drop word.length) else none

/-- `NaN` without a sign, `Infinity` or `inf` with one or none, in any case. -/
def special (text : List Char) (neg : Bool) (cs : List Char) : Option (Numeric × List Char) :=
  ((afterWord "nan".toList text).map fun rest => (nan, rest)).or <|
  ((afterWord "infinity".toList cs).map fun rest => (infinity neg, rest)).or <|
  (afterWord "inf".toList cs).map fun rest => (infinity neg, rest)

/-- 131072 digits before the point and 16383 behind it. -/
def inRange : Numeric → Bool
  | finite d => (Nat.toDigits 10 d.unscaled.natAbs).length ≤ 131072 + d.scale && d.scale ≤ 16383
  | _ => true

/-- `numeric_in` of PostgreSQL 17; `none` for a malformed or an overflowing number. -/
def parse (s : String) : Option Numeric :=
  let text := s.toList.dropWhile isSpace
  let (neg, cs) := Decimal.splitSign text
  let read := match cs with
    | '0' :: 'x' :: r | '0' :: 'X' :: r => nonDecimal 16 neg r
    | '0' :: 'o' :: r | '0' :: 'O' :: r => nonDecimal 8 neg r
    | '0' :: 'b' :: r | '0' :: 'B' :: r => nonDecimal 2 neg r
    | c :: _ => if c.isDigit || c = '.' then decimal neg cs else special text neg cs
    | [] => none
  read.bind fun r => if r.2.all isSpace && r.1.inRange then some r.1 else none

example : parse " 1_000.50 " = some (finite ⟨100050, 2⟩) := by decide
example : parse "0x_1F" = some (finite ⟨31, 0⟩) := by decide
example : parse "-inf" = some (infinity true) := by decide
example : parse "1e1073741824" = none := by decide
example : parse "1__0" = none := by decide

theorem ofRat_le {p q : ℚ} : ofRat p ≤ ofRat q ↔ p ≤ q := by
  simp [ofRat]

theorem ofRat_inj {p q : ℚ} : ofRat p = ofRat q ↔ p = q := by
  simp [ofRat]

theorem compare_ofRat (p q : ℚ) : compare (ofRat p) (ofRat q) = compare p q := by
  rcases lt_trichotomy p q with h | rfl | h
  · rw [compare_lt_iff_lt.mpr h, compare_lt_iff_lt]
    simpa [ofRat] using h
  · simp
  · rw [compare_gt_iff_gt.mpr h, compare_gt_iff_gt]
    simpa [ofRat] using h

end Numeric
