import Mathlib
import Rektifier.Catalog
import Rektifier.Delimited

namespace Rektifier

open List

variable {name p : String} {kind : IndexKind}

def deriveLsiIndexName (hex8 : String → String) (pgTable name : String) : String :=
  deriveIndexName hex8 "_lsi_" pgTable name

inductive IndexKind where
  | lsi | gsi
deriving DecidableEq

def IndexKind.middle : IndexKind → String
  | .lsi => "_lsi_"
  | .gsi => "_gsi_"

/-- A table, or an index by its table and its own name. -/
inductive NamedRelation where
  | table (pgTable : String)
  | index (pgTable : String) (kind : IndexKind) (name : String)
deriving DecidableEq

namespace NamedRelation

def pgName (hex8 : String → String) : NamedRelation → String
  | .table pgTable => pgTable
  | .index pgTable kind name => deriveIndexName hex8 kind.middle pgTable name

/-- The name before it is cut. -/
def spelling : NamedRelation → String
  | .table pgTable => pgTable
  | .index pgTable kind name =>
    pgTable ++ kind.middle ++ String.ofList (sanitizeName name) ++ "_idx"

/-- What the digest is taken of. -/
def digested : NamedRelation → String
  | .table pgTable => pgTable
  | .index pgTable kind name => pgTable ++ "::" ++ kind.middle ++ name

def pgTable : NamedRelation → String
  | .table pgTable | .index pgTable _ _ => pgTable

/-- Cut to fit, in so far as the table's name leaves room. -/
def shortened (hex8 : String → String) : NamedRelation → String
  | .table pgTable => pgTable
  | .index pgTable kind name =>
    pgTable ++ kind.middle ++ String.ofList ((sanitizeName name).take (45 - pgTable.utf8ByteSize))
      ++ "_" ++ hex8 (pgTable ++ "::" ++ kind.middle ++ name) ++ "_idx"

def Fits (r : NamedRelation) : Prop := r.spelling.utf8ByteSize ≤ pgIdentMax

instance (r : NamedRelation) : Decidable r.Fits := inferInstanceAs (Decidable (_ ≤ _))

end NamedRelation

def IsHex8 (hex8 : String → String) : Prop :=
  ∀ x, (hex8 x).toList.length = 8 ∧ ∀ c ∈ (hex8 x).toList, c ∈ "0123456789abcdef".toList

def isNameChar (c : Char) : Bool := c.isAlphanum || c = '_'

theorem utf8Size_of_isNameChar {c : Char} (h : isNameChar c) : c.utf8Size = 1 := by
  refine Char.utf8Size_eq_one_iff.mpr ?_
  simp only [isNameChar, Char.isAlphanum, Char.isAlpha, Char.isUpper, Char.isLower, Char.isDigit,
    Bool.or_eq_true, Bool.and_eq_true, decide_eq_true_eq] at h
  rcases h with ((⟨_, h⟩ | ⟨_, h⟩) | ⟨_, h⟩) | rfl
  · exact UInt32.le_trans h (by decide)
  · exact UInt32.le_trans h (by decide)
  · exact UInt32.le_trans h (by decide)
  · decide

theorem size_of_nameChars {s : String} (h : ∀ c ∈ s.toList, isNameChar c) :
    s.utf8ByteSize = s.toList.length := by
  obtain ⟨cs, rfl⟩ : ∃ cs, s = String.ofList cs := ⟨s.toList, String.ofList_toList.symm⟩
  rw [String.toList_ofList] at h ⊢
  induction cs with
  | nil => rfl
  | cons c cs ih =>
    obtain ⟨hc, hcs⟩ := forall_mem_cons.mp h
    rw [String.ofList_cons, String.utf8ByteSize_append, String.utf8ByteSize_singleton,
      utf8Size_of_isNameChar hc, ih hcs, length_cons]
    omega

theorem sanitizeName_mem {c : Char} (h : c ∈ sanitizeName name) :
    c.isLower ∨ c.isDigit ∨ c = '_' := by
  have hmem := (dropWhile_suffix (fun c : Char => decide (c = '_'))).subset h
  obtain ⟨d, _, rfl⟩ := mem_map.mp hmem
  split
  next hd =>
    simp only [Char.isAlphanum, Bool.or_eq_true] at hd
    rcases hd with hd | hd
    · simp [hd]
    · have hlower : ¬ d.isUpper := by
        simp only [Char.isDigit, Char.isUpper, Bool.and_eq_true, decide_eq_true_eq] at hd ⊢
        exact fun hupper => absurd (UInt32.le_trans hupper.1 hd.2) (by decide)
      rw [Char.toLower_eq_of_not_isUpper hlower]
      exact .inr (.inl hd)
  next => exact .inr (.inr rfl)

theorem sanitizeName_chars (name : String) : ∀ c ∈ sanitizeName name, isNameChar c := by
  intro c hc
  rcases sanitizeName_mem hc with h | h | h <;>
    simp [isNameChar, Char.isAlphanum, Char.isAlpha, h]

theorem size_sanitized {cs : List Char} (h : cs ⊆ sanitizeName name) :
    (String.ofList cs).utf8ByteSize = cs.length := by
  have hsize := size_of_nameChars (s := String.ofList cs)
  rw [String.toList_ofList] at hsize
  exact hsize fun c hc => sanitizeName_chars name c (h hc)

/-- The table, the kind, a part of the name and perhaps a digest. -/
theorem deriveIndexName_cases (hex8 : String → String) (middle pgTable name : String) :
    (∃ cs, cs ⊆ sanitizeName name ∧
      deriveIndexName hex8 middle pgTable name = pgTable ++ middle ++ String.ofList cs ++ "_idx") ∨
    ∃ cs x, cs ⊆ sanitizeName name ∧
      deriveIndexName hex8 middle pgTable name
        = pgTable ++ middle ++ String.ofList cs ++ "_" ++ hex8 x ++ "_idx" := by
  by_cases h : (pgTable ++ middle ++ String.ofList (sanitizeName name) ++ "_idx").utf8ByteSize
      ≤ pgIdentMax
  · exact .inl ⟨_, List.Subset.refl _, if_pos h⟩
  · exact .inr ⟨_, _, take_subset _ _, if_neg h⟩

theorem pgName_of_fits {hex8 : String → String} {r : NamedRelation} (h : r.Fits) :
    r.pgName hex8 = r.spelling := by
  cases r with
  | table p => rfl
  | index p kind name => exact if_pos h

section

variable {hex8 : String → String} (hhex : IsHex8 hex8)

include hhex

theorem hex8_chars (x : String) : ∀ c ∈ (hex8 x).toList, isNameChar c := by
  intro c hc
  have hdigits : "0123456789abcdef".toList.all isNameChar := by decide
  exact all_eq_true.mp hdigits c ((hhex x).2 c hc)

theorem size_hex8 (x : String) : (hex8 x).utf8ByteSize = 8 := by
  rw [size_of_nameChars (hex8_chars hhex x), (hhex x).1]

theorem sanitizePgTableName_spec (name : String) :
    (sanitizePgTableName hex8 name).utf8ByteSize ≤ pgIdentMax ∧
      ∀ c ∈ (sanitizePgTableName hex8 name).toList, isNameChar c := by
  have hstart : "rekt_t_".toList.all isNameChar := by decide
  unfold sanitizePgTableName
  simp only
  split
  next hfits =>
    refine ⟨hfits, ?_⟩
    intro c hc
    simp only [String.toList_append, String.toList_ofList, mem_append] at hc
    rcases hc with hc | hc
    · exact all_eq_true.mp hstart c hc
    · exact sanitizeName_chars name c hc
  next =>
    have hbody : (String.ofList ((sanitizeName name).take 47)).utf8ByteSize ≤ 47 := by
      rw [size_sanitized (take_subset 47 _)]
      exact length_take_le 47 _
    constructor
    · have hseven : "rekt_t_".utf8ByteSize = 7 := by decide
      have hone : "_".utf8ByteSize = 1 := by decide
      simp only [String.utf8ByteSize_append, size_hex8 hhex, hseven, hone, pgIdentMax]
      omega
    · intro c hc
      simp only [String.toList_append, String.toList_ofList, mem_append] at hc
      rcases hc with ((hc | hc) | hc) | hc
      · exact all_eq_true.mp hstart c hc
      · exact sanitizeName_chars name c (mem_of_mem_take hc)
      · have hsep : "_".toList.all isNameChar := by decide
        exact all_eq_true.mp hsep c hc
      · exact hex8_chars hhex name c hc

/-- A long name is shortened, and then fits exactly if the table's name leaves room. -/
theorem pgName_of_long
    (h : ¬ (NamedRelation.index p kind name).Fits) :
    (NamedRelation.index p kind name).pgName hex8
      = (NamedRelation.index p kind name).shortened hex8 ∧
    (((NamedRelation.index p kind name).pgName hex8).utf8ByteSize ≤ pgIdentMax
      ↔ p.utf8ByteSize ≤ 45) := by
  have hname : (NamedRelation.index p kind name).pgName hex8 = _ := if_neg h
  have hmiddle : kind.middle.utf8ByteSize = 5 := by cases kind <;> decide
  have hsep : "_".utf8ByteSize = 1 := by decide
  have hend : "_idx".utf8ByteSize = 4 := by decide
  have hroom : pgIdentMax - (p.utf8ByteSize + 5 + 1 + 8 + 4) = 45 - p.utf8ByteSize := by
    rw [pgIdentMax]
    omega
  simp only [size_hex8 hhex, hmiddle, hroom] at hname
  constructor
  · exact hname
  · rw [hname]
    simp only [String.utf8ByteSize_append, size_hex8 hhex, hmiddle, hsep, hend,
      size_sanitized (take_subset _ _), length_take, pgIdentMax]
    omega

end

theorem colon_not_mem (h : ∀ c ∈ p.toList, isNameChar c) : ':' ∉ p.toList :=
  fun hmem => absurd (h ':' hmem) (by decide)

theorem digested_inj {p' name' : String} {kind' : IndexKind}
    (hp : ':' ∉ p.toList) (hp' : ':' ∉ p'.toList)
    (h : (NamedRelation.index p kind name).digested
      = (NamedRelation.index p' kind' name').digested) :
    NamedRelation.index p kind name = .index p' kind' name' := by
  have hlist := congrArg String.toList h
  have hcolons : "::".toList = [':', ':'] := by decide
  simp only [NamedRelation.digested, String.toList_append, append_assoc, hcolons,
    cons_append, nil_append] at hlist
  obtain ⟨htable, hrest⟩ := Delimited.split_at_first hp hp' hlist
  have hrest := (List.cons.inj hrest).2
  have hlen : kind.middle.toList.length = kind'.middle.toList.length := by
    cases kind <;> cases kind' <;> decide
  obtain ⟨hkind, hname⟩ := append_inj hrest hlen
  have hkind : kind = kind' := by
    cases kind <;> cases kind' <;> first | rfl | exact absurd hkind (by decide)
  rw [String.toList_injective htable, hkind, String.toList_injective hname]

theorem hex8_of_shortened_eq {hex8 : String → String} (hhex : IsHex8 hex8)
    {p' name' : String}
    {kind' : IndexKind} (h : (NamedRelation.index p kind name).shortened hex8
      = (NamedRelation.index p' kind' name').shortened hex8) :
    hex8 (NamedRelation.index p kind name).digested
      = hex8 (NamedRelation.index p' kind' name').digested := by
  have hlist := congrArg String.toList h
  simp only [NamedRelation.shortened, String.toList_append] at hlist
  have hcut := append_cancel_right hlist
  simp only [NamedRelation.digested]
  refine String.toList_injective (append_inj_right' hcut ?_)
  rw [(hhex _).1, (hhex _).1]

end Rektifier
