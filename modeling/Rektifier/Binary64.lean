import Rektifier.Decimal
import Mathlib.Data.Int.Log

/-- IEEE binary64, the two zeros identified. -/
inductive Binary64 where
  | nan
  | inf (neg : Bool)
  | finite (q : ℚ)
deriving DecidableEq

namespace Binary64

def roundHalfEven (q : ℚ) : ℤ :=
  let r := q - ⌊q⌋
  if r < 1 / 2 then ⌊q⌋
  else if 1 / 2 < r then ⌊q⌋ + 1
  else if Even ⌊q⌋ then ⌊q⌋ else ⌊q⌋ + 1

def ulpExponent (q : ℚ) : ℤ := max (Int.log 2 |q| - 52) (-1074)

/-- Rounded to 53 bits of mantissa. -/
def roundRat (q : ℚ) : ℚ := roundHalfEven (q / 2 ^ ulpExponent q) * 2 ^ ulpExponent q

def ofRat (q : ℚ) : Binary64 :=
  if 2 ^ 1024 ≤ |roundRat q| then inf (q < 0) else finite (roundRat q)

def lower (s : String) : List Char := s.toList.map Char.toLower

/-- The text forms `str::parse::<f64>` accepts. -/
def parse (s : String) : Option Binary64 :=
  match Decimal.parse s with
  | some d => some (ofRat d.value)
  | none =>
    let (neg, cs) := Decimal.splitSign (lower s)
    if cs = "inf".toList ∨ cs = "infinity".toList then some (inf neg)
    else if cs = "nan".toList then some nan
    else none

def partialCmp : Binary64 → Binary64 → Option Ordering
  | nan, _ => none
  | _, nan => none
  | inf true, inf true => some .eq
  | inf true, _ => some .lt
  | _, inf true => some .gt
  | inf false, inf false => some .eq
  | inf false, _ => some .gt
  | _, inf false => some .lt
  | finite p, finite q => some (compare p q)

def add : Binary64 → Binary64 → Binary64
  | nan, _ => nan
  | _, nan => nan
  | inf a, inf b => if a = b then inf a else nan
  | inf a, _ => inf a
  | _, inf b => inf b
  | finite p, finite q => ofRat (p + q)

def neg : Binary64 → Binary64
  | nan => nan
  | inf a => inf (!a)
  | finite q => finite (-q)

def sub (a b : Binary64) : Binary64 := add a (neg b)

/-- Cut after `digits` digits, rounded to the side that reads back as `q`. -/
def shortCandidate (q : ℚ) (digits : Nat) : Option Decimal :=
  let e : ℤ := Int.log 10 q - digits + 1
  let n := ⌊q / 10 ^ e⌋.toNat
  let below := Decimal.ofMantissa false n 0 e
  let above := Decimal.ofMantissa false (n + 1) 0 e
  if ofRat below.value = finite q then
    if ofRat above.value = finite q ∧ above.value - q < q - below.value then some above
    else some below
  else if ofRat above.value = finite q then some above
  else none

/-- The shortest numeral that reads back as `q`. -/
def shortest (q : ℚ) : Decimal :=
  ((List.range 17).findSome? fun i => shortCandidate q (i + 1)).getD ⟨0, 0⟩

/-- `format!("{f}")`: never in exponent form. -/
def display : Binary64 → String
  | nan => "NaN"
  | inf a => if a then "-inf" else "inf"
  | finite q => (if q < 0 then "-" else "") ++ (shortest |q|).toText

def toInt? : Binary64 → Option ℤ
  | finite q => if q.den = 1 then some q.num else none
  | _ => none

def Exact (q : ℚ) : Prop := ofRat q = finite q

instance (q : ℚ) : Decidable (Exact q) := inferInstanceAs (Decidable (_ = _))

theorem roundHalfEven_intCast (n : ℤ) : roundHalfEven n = n := by
  simp [roundHalfEven]

/-- A multiple of its last-bit unit is not moved by rounding. -/
theorem roundRat_of_multiple {q : ℚ} {m : ℤ} (h : q = m * 2 ^ ulpExponent q) :
    roundRat q = q := by
  have hpos : (2 : ℚ) ^ ulpExponent q ≠ 0 := zpow_ne_zero _ (by norm_num)
  have hdiv : q / 2 ^ ulpExponent q = m := by
    rw [div_eq_iff hpos]
    exact h
  rw [roundRat, hdiv, roundHalfEven_intCast]
  exact h.symm

theorem ulpExponent_nonpos {n : ℤ} (h : |n| < 2 ^ 53) : ulpExponent (n : ℚ) ≤ 0 := by
  have hb : |(n : ℚ)| < (2 : ℕ) ^ (53 : ℤ) := by
    rw [← Int.cast_abs]
    exact_mod_cast h
  have hl : Int.log 2 |(n : ℚ)| ≤ 52 := by
    by_cases hz : n = 0
    · simp [hz]
    · have hp : 0 < |(n : ℚ)| := by
        rw [abs_pos]
        exact_mod_cast hz
      have := (Int.lt_zpow_iff_log_lt (by norm_num : 1 < 2) hp).mp hb
      omega
  simp only [ulpExponent, sup_le_iff]
  omega

theorem exact_of_abs_lt {n : ℤ} (h : |n| < 2 ^ 53) : Exact n := by
  have hu := ulpExponent_nonpos h
  have hr : roundRat (n : ℚ) = n := by
    apply roundRat_of_multiple (m := n * 2 ^ (-ulpExponent (n : ℚ)).toNat)
    push_cast
    rw [mul_assoc, ← zpow_natCast, Int.toNat_of_nonneg (by omega), ← zpow_add₀ (by norm_num)]
    simp
  have hb : ¬ (2 : ℚ) ^ 1024 ≤ |(n : ℚ)| := by
    have : |(n : ℚ)| < 2 ^ 53 := by
      rw [← Int.cast_abs]
      exact_mod_cast h
    exact not_le.mpr (this.trans (pow_lt_pow_right₀ (by norm_num) (by norm_num)))
  simp [Exact, ofRat, hr, hb]

theorem parse_of_decimal {s : String} {d : Decimal} (h : Decimal.parse s = some d) :
    parse s = some (ofRat d.value) := by
  simp [parse, h]

@[simp] theorem partialCmp_finite (p q : ℚ) :
    partialCmp (finite p) (finite q) = some (compare p q) := rfl

end Binary64
