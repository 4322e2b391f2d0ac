import Mathlib.Tactic
import Mathlib.Data.Rat.Floor
import Mathlib.Data.List.TakeWhile

/-- As PostgreSQL `numeric` keeps it: `unscaled / 10 ^ scale`. -/
structure Decimal where
  unscaled : Int
  scale : Nat
deriving DecidableEq, Repr

namespace Decimal

open List

def value (d : Decimal) : ℚ := d.unscaled / 10 ^ d.scale

def digitVal (c : Char) : Nat := c.toNat - '0'.toNat

def ofDigits (cs : List Char) : Nat := cs.foldl (fun n c => 10 * n + digitVal c) 0

def splitSign : List Char → Bool × List Char
  | '-' :: cs => (true, cs)
  | '+' :: cs => (false, cs)
  | cs => (false, cs)

def signed (neg : Bool) (n : Nat) : Int := if neg then -(n : Int) else n

/-- Nothing, or `e` with a signed run of digits. -/
def parseExponent : List Char → Option Int
  | [] => some 0
  | c :: cs =>
    if c = 'e' ∨ c = 'E' then
      let (neg, ds) := splitSign cs
      if ds ≠ [] ∧ ds.all Char.isDigit then some (signed neg (ofDigits ds)) else none
    else none

/-- `mantissa * 10 ^ (e - fracLen)`, with its display scale. -/
def ofMantissa (neg : Bool) (mantissa fracLen : Nat) (e : Int) : Decimal :=
  if e ≤ fracLen then ⟨signed neg mantissa, (fracLen - e).toNat⟩
  else ⟨signed neg (mantissa * 10 ^ (e - fracLen).toNat), 0⟩

/-- At least one digit, with optional sign, fraction and exponent. -/
def parse (s : String) : Option Decimal :=
  let (neg, cs) := splitSign s.toList
  let (ip, rest) := cs.span Char.isDigit
  let (fp, rest) := match rest with
    | '.' :: r => r.span Char.isDigit
    | r => ([], r)
  if ip = [] ∧ fp = [] then none
  else (parseExponent rest).map (ofMantissa neg (ofDigits (ip ++ fp)) fp.length)

/-- An optional minus, the integer digits, and `scale` fraction digits. -/
def toText (d : Decimal) : String :=
  let ds := Nat.toDigits 10 d.unscaled.natAbs
  let padded := List.replicate (d.scale + 1 - ds.length) '0' ++ ds
  let cut := padded.length - d.scale
  let body := if d.scale = 0 then padded else padded.take cut ++ '.' :: padded.drop cut
  String.ofList (if d.unscaled < 0 then '-' :: body else body)

example : parse "-12.50" = some ⟨-1250, 2⟩ := by decide
example : parse "1e3" = some ⟨1000, 0⟩ := by decide
example : toText ⟨-5, 2⟩ = "-0.05" := by decide

theorem ofDigits_nines (n : Nat) (acc : Nat) :
    (List.replicate n '9').foldl (fun n c => 10 * n + digitVal c) acc + 1 = (acc + 1) * 10 ^ n := by
  induction n generalizing acc with
  | zero => simp
  | succ n ih =>
    have hnine : digitVal '9' = 9 := rfl
    rw [replicate_succ, foldl_cons, ih, hnine]
    ring

theorem span_nines (n : Nat) :
    (List.replicate n '9').span Char.isDigit = (List.replicate n '9', []) := by
  rw [span_eq_takeWhile_dropWhile]
  have hall : ∀ c ∈ List.replicate n '9', c.isDigit := by
    intro c hc
    rw [eq_of_mem_replicate hc]
    rfl
  have htake : (List.replicate n '9').takeWhile Char.isDigit = List.replicate n '9' :=
    takeWhile_eq_self_iff.mpr hall
  rw [htake, dropWhile_eq_nil_iff.mpr hall]

def nines (neg : Bool) (n : Nat) : String :=
  String.ofList ((if neg then ['-'] else []) ++ List.replicate (n + 1) '9')

theorem parse_nines (neg : Bool) (n : Nat) :
    parse (nines neg n) = some ⟨signed neg (10 ^ (n + 1) - 1), 0⟩ := by
  have hsplit : splitSign (nines neg n).toList = (neg, List.replicate (n + 1) '9') := by
    rw [nines, String.toList_ofList]
    cases neg
    · rfl
    · rfl
  have hdigits : ofDigits (List.replicate (n + 1) '9') = 10 ^ (n + 1) - 1 := by
    have h := ofDigits_nines (n + 1) 0
    rw [ofDigits]
    omega
  unfold parse
  rw [hsplit]
  simp only [span_nines, parseExponent, append_nil, hdigits]
  simp [ofMantissa, replicate_succ]

theorem exists_parse_gt (q : ℚ) : ∃ s d, parse s = some d ∧ q < d.value := by
  obtain ⟨n, hn⟩ := exists_nat_gt q
  refine ⟨nines false n, _, parse_nines false n, hn.trans_le ?_⟩
  have hpow : n + 1 ≤ 10 ^ (n + 1) := (Nat.lt_pow_self (by norm_num : 1 < 10)).le
  have hle : n ≤ 10 ^ (n + 1) - 1 := by omega
  simp only [value, signed, pow_zero, div_one, Bool.false_eq_true, if_false]
  exact_mod_cast hle

theorem exists_parse_lt (q : ℚ) : ∃ s d, parse s = some d ∧ d.value < q := by
  obtain ⟨n, hn⟩ := exists_nat_gt (-q)
  refine ⟨nines true n, _, parse_nines true n, ?_⟩
  have hpow : n + 1 ≤ 10 ^ (n + 1) := (Nat.lt_pow_self (by norm_num : 1 < 10)).le
  have hle : n ≤ 10 ^ (n + 1) - 1 := by omega
  have hcast : (n : ℚ) ≤ ((10 ^ (n + 1) - 1 : ℕ) : ℚ) := by exact_mod_cast hle
  simp only [value, signed, pow_zero, div_one, if_true]
  push_cast at hcast ⊢
  linarith

end Decimal
