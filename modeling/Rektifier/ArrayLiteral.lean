import Mathlib.Data.List.DropRight
import Rektifier.SqlLiteral

namespace SqlLiteral

open List

variable {cs v rest w : List Char}

def isSpace (c : Char) : Bool :=
  c = ' ' || c = '\t' || c = '\n' || c = '\r' || c = '\x0b' || c = '\x0c'

def isDelimiter (c : Char) : Bool := c = ',' || c = '\x7b' || c = '\x7d'

inductive Elem where
  | null
  | text (v : List Char)
deriving DecidableEq

/-- An element from after its opening quote. -/
def quoted : List Char → Option (List Char × List Char)
  | [] => none
  | ['\\'] => none
  | '\\' :: c :: cs => push c (quoted cs)
  | '"' :: cs => some ([], cs.dropWhile isSpace)
  | c :: cs => push c (quoted cs)

/-- An element without quotes; a flag says which characters are escaped. -/
def unquoted : List Char → Option (List (Char × Bool) × List Char)
  | [] => none
  | ['\\'] => none
  | '\\' :: c :: cs => push (c, true) (unquoted cs)
  | '"' :: _ => none
  | c :: cs => if isDelimiter c then some ([], c :: cs) else push (c, false) (unquoted cs)

/-- Without trailing blanks; NULL in any case, unless part of it is escaped. -/
def finish (cs : List (Char × Bool)) : Elem :=
  let kept := cs.rdropWhile fun c => !c.2 && isSpace c.1
  if kept.all (fun c => !c.2) && kept.map (fun c => c.1.toLower) = ['n', 'u', 'l', 'l'] then .null
  else .text (kept.map Prod.fst)

def element (cs : List Char) : Option (Elem × List Char) :=
  match cs.dropWhile isSpace with
  | [] => none
  | '"' :: cs => (quoted cs).map fun r => (.text r.1, r.2)
  | c :: cs =>
    if isDelimiter c then none else (unquoted (c :: cs)).map fun r => (finish r.1, r.2)

/-- The elements from after the opening brace, at most so many. -/
def elements : Nat → List Char → Option (List Elem)
  | 0, _ => none
  | n + 1, cs => do
    let (e, rest) ← element cs
    match rest with
    | ',' :: rest => (elements n rest).map (e :: ·)
    | '\x7d' :: rest => if rest.all isSpace then some [e] else none
    | _ => none

/-- A one-dimensional array literal of texts. -/
def arrayIn (cs : List Char) : Option (List Elem) :=
  match cs.dropWhile isSpace with
  | '\x7b' :: cs =>
    match cs.dropWhile isSpace with
    | '\x7d' :: rest => if rest.all isSpace then some [] else none
    | _ => elements (cs.length + 1) cs
  | _ => none

example : arrayIn "\x7ba b , \"c,d\", nUll,e\\,f \x7d".toList = some
    [.text "a b".toList, .text "c,d".toList, .null, .text "e,f".toList] := by decide

def ordinary (c : Char) : Bool := c ≠ '"' && c ≠ '\\' && !isDelimiter c

/-- An element that stands for itself. -/
structure PlainElem (v : List Char) : Prop where
  ordinary : ∀ c ∈ v, ordinary c = true
  first : ∃ c cs, v = c :: cs ∧ isSpace c = false
  last : v.rdropWhile isSpace = v
  notNull : v.map Char.toLower ≠ ['n', 'u', 'l', 'l']

theorem quoted_bound (h : quoted cs = some (v, rest)) :
    v.length + 1 + rest.length ≤ cs.length := by
  fun_induction quoted cs generalizing v rest with
  | case1 => cases h
  | case2 => cases h
  | case3 c cs ih | case5 c cs _ _ _ ih =>
    obtain ⟨w, hw, rfl⟩ := push_eq_some h
    have hlen := ih hw
    simp only [List.length_cons]
    omega
  | case4 cs =>
    cases h
    have hlen := (List.dropWhile_suffix (l := cs) isSpace).length_le
    simp only [List.length_cons, List.length_nil]
    omega

theorem unquoted_char {c : Char} (hc : ordinary c) :
    unquoted (c :: cs) = push (c, false) (unquoted cs) := by
  simp only [ordinary, Bool.and_eq_true, decide_eq_true_eq, Bool.not_eq_true'] at hc
  obtain ⟨⟨hquote, hback⟩, hdelim⟩ := hc
  rw [unquoted.eq_5 c cs (fun h _ => hback h) (fun _ _ h _ => hback h) hquote, hdelim]
  rfl

theorem unquoted_append {d : Char} (hv : ∀ c ∈ v, ordinary c)
    (hd : isDelimiter d) :
    unquoted (v ++ d :: rest) = some (v.map fun c => (c, false), d :: rest) := by
  induction v with
  | nil =>
    have hd' : d ≠ '\\' ∧ d ≠ '"' := by
      constructor <;> rintro rfl <;> cases hd
    rw [nil_append, unquoted.eq_5 d rest (fun h _ => hd'.1 h) (fun _ _ h _ => hd'.1 h) hd'.2, hd]
    rfl
  | cons c v ih =>
    rw [cons_append, unquoted_char (hv c mem_cons_self),
      ih fun c' hc' => hv c' (mem_cons_of_mem _ hc')]
    rfl

theorem unquoted_bound {v : List (Char × Bool)}
    (h : unquoted cs = some (v, rest)) :
    v.length + rest.length ≤ cs.length ∧ (cs.length = v.length + rest.length →
      ∃ w, v = w.map (fun c => (c, false)) ∧ cs = w ++ rest ∧ ∀ c ∈ w, ordinary c = true) := by
  fun_induction unquoted cs generalizing v rest with
  | case1 => cases h
  | case2 => cases h
  | case3 c cs ih =>
    obtain ⟨w, hw, rfl⟩ := push_eq_some h
    have hlen := (ih hw).1
    simp only [length_cons]
    exact ⟨by omega, fun heq => by omega⟩
  | case4 => cases h
  | case5 c cs =>
    cases h
    exact ⟨by simp, fun _ => ⟨[], rfl, rfl, nofun⟩⟩
  | case6 c cs hback hback' hquote hdelim ih =>
    obtain ⟨v', hv', rfl⟩ := push_eq_some h
    obtain ⟨hlen, hplain⟩ := ih hv'
    simp only [length_cons]
    refine ⟨by omega, ?_⟩
    intro heq
    obtain ⟨w, rfl, rfl, hordinary⟩ := hplain (by omega)
    refine ⟨c :: w, rfl, rfl, forall_mem_cons.mpr ⟨?_, hordinary⟩⟩
    have hne : c ≠ '\\' := by
      intro hc
      cases htail : w ++ rest with
      | nil => exact hback hc htail
      | cons c' cs => exact hback' c' cs hc htail
    have hquote : c ≠ '"' := hquote
    simp [ordinary, hne, hquote, hdelim]

theorem unquoted_stops {v : List (Char × Bool)}
    (h : unquoted cs = some (v, rest)) : ∃ d tail, rest = d :: tail ∧ isDelimiter d := by
  fun_induction unquoted cs generalizing v rest with
  | case1 => cases h
  | case2 => cases h
  | case3 c cs ih | case6 c cs _ _ _ _ ih =>
    obtain ⟨w, hw, rfl⟩ := push_eq_some h
    exact ih hw
  | case4 => cases h
  | case5 c cs _ _ _ hdelim =>
    cases h
    exact ⟨c, cs, rfl, hdelim⟩

theorem finish_unescaped (v : List Char) : finish (v.map fun c => (c, false)) =
    if (v.rdropWhile isSpace).map Char.toLower = ['n', 'u', 'l', 'l'] then .null
    else .text (v.rdropWhile isSpace) := by
  have hkept : (v.map fun c => (c, false)).rdropWhile (fun c => !c.2 && isSpace c.1)
      = (v.rdropWhile isSpace).map fun c => (c, false) := by
    simp only [List.rdropWhile, ← List.map_reverse, List.dropWhile_map]
    rfl
  simp only [finish, hkept, List.map_map]
  simp [Function.comp_def]

theorem finish_length {cs : List (Char × Bool)} (h : finish cs = .text v) :
    v.length ≤ cs.length := by
  unfold finish at h
  simp only at h
  split at h
  next => cases h
  next =>
    cases h
    have hkept := List.rdropWhile_prefix (fun c : Char × Bool => !c.2 && isSpace c.1) cs
    rw [List.length_map]
    exact hkept.length_le

theorem element_append {d : Char} (hv : PlainElem v)
    (hd : isDelimiter d) : element (v ++ d :: rest) = some (.text v, d :: rest) := by
  obtain ⟨c, cs, rfl, hspace⟩ := hv.first
  have hc := hv.ordinary c List.mem_cons_self
  have hread : unquoted (c :: cs ++ d :: rest) = _ := unquoted_append hv.ordinary hd
  have hplain : c ≠ '"' ∧ isDelimiter c = false := by
    simp only [ordinary, Bool.and_eq_true, decide_eq_true_eq, Bool.not_eq_true'] at hc
    exact ⟨hc.1.1, hc.2⟩
  have hdrop : (c :: cs ++ d :: rest).dropWhile isSpace = c :: (cs ++ d :: rest) := by
    rw [cons_append, dropWhile_cons_of_neg (by simp [hspace])]
  rw [element, hdrop]
  split
  next h => cases h
  next h => cases h; exact absurd rfl hplain.1
  next c' cs' _ h =>
    cases h
    rw [hplain.2, ← cons_append, hread, if_neg (by decide), Option.map_some, finish_unescaped,
      hv.last, if_neg hv.notNull]

theorem element_bound (h : element cs = some (.text v, rest)) :
    v.length + rest.length ≤ cs.length ∧
      (cs.length = v.length + rest.length → cs = v ++ rest ∧ PlainElem v) := by
  have hsuffix := dropWhile_suffix (l := cs) isSpace
  have hshort := hsuffix.length_le
  unfold element at h
  split at h
  next => cases h
  next cs' hdrop =>
    obtain ⟨⟨w, rest'⟩, hw, h⟩ := Option.map_eq_some_iff.mp h
    simp only [Prod.mk.injEq, Elem.text.injEq] at h
    obtain ⟨rfl, rfl⟩ := h
    have hlen := quoted_bound hw
    rw [hdrop, length_cons] at hshort
    exact ⟨by omega, fun heq => by omega⟩
  next c cs' hc hdrop =>
    split at h
    next => cases h
    next hdelim =>
      obtain ⟨⟨u, rest'⟩, hu, h⟩ := Option.map_eq_some_iff.mp h
      simp only [Prod.mk.injEq] at h
      obtain ⟨hfinish, rfl⟩ := h
      obtain ⟨hlen, hplain⟩ := unquoted_bound hu
      have hkept := finish_length hfinish
      rw [hdrop] at hshort
      refine ⟨by omega, ?_⟩
      intro heq
      obtain ⟨w, rfl, hcs, hordinary⟩ := hplain (by omega)
      have hwhole : c :: cs' = cs := by
        rw [← hdrop]
        exact hsuffix.eq_of_length (by rw [hdrop]; omega)
      rw [length_map] at hlen hkept
      rw [finish_unescaped] at hfinish
      split at hfinish
      next => cases hfinish
      next hnull =>
        cases hfinish
        have hstart := rdropWhile_prefix isSpace w
        have hlast : w.rdropWhile isSpace = w :=
          hstart.eq_of_length (by rw [hcs, length_append] at hshort; omega)
        rw [hlast] at hnull ⊢
        refine ⟨hwhole.symm.trans hcs, hordinary, ?_, hlast, hnull⟩
        cases w with
        | nil =>
          obtain ⟨d, tail, rfl, hd⟩ := unquoted_stops hu
          cases hcs
          exact absurd hd hdelim
        | cons c' w =>
          cases hcs
          have hhead := List.head?_dropWhile_not isSpace cs
          rw [hdrop] at hhead
          exact ⟨c, w, rfl, by simpa using hhead⟩

theorem elements_pair_bound {n : Nat}
    (h : elements n cs = some [.text v, .text w]) : v.length + w.length + 2 ≤ cs.length ∧
      (cs.length = v.length + w.length + 2 → cs = v ++ ',' :: w ++ ['\x7d'] ∧ PlainElem v) := by
  obtain _ | n := n
  · cases h
  obtain ⟨⟨e, rest⟩, he, h⟩ := Option.bind_eq_some_iff.mp h
  simp only at h
  split at h
  next tail =>
    obtain ⟨es, hes, h⟩ := Option.map_eq_some_iff.mp h
    cases h
    obtain ⟨hfirst, hplain⟩ := element_bound he
    obtain _ | n := n
    · cases hes
    obtain ⟨⟨e', rest'⟩, he', h⟩ := Option.bind_eq_some_iff.mp hes
    simp only at h
    split at h
    next =>
      obtain ⟨es', hes', h⟩ := Option.map_eq_some_iff.mp h
      cases h
      obtain _ | n := n
      · cases hes'
      obtain ⟨r, _, h⟩ := Option.bind_eq_some_iff.mp hes'
      simp only at h
      split at h
      · obtain ⟨_, _, h⟩ := Option.map_eq_some_iff.mp h
        cases h
      · split at h <;> cases h
      · cases h
    next tail' =>
      split at h
      next =>
        cases h
        obtain ⟨hsecond, hplain'⟩ := element_bound he'
        simp only [length_cons] at hfirst hsecond hplain hplain'
        refine ⟨by omega, ?_⟩
        intro heq
        obtain ⟨hcs, hv⟩ := hplain (by omega)
        obtain ⟨htail, _⟩ := hplain' (by omega)
        have hend : tail' = [] := length_eq_zero_iff.mp (by omega)
        rw [hcs, htail, hend]
        exact ⟨by simp, hv⟩
      next => cases h
    next => cases h
  next tail =>
    split at h <;> cases h
  next => cases h

theorem elements_pair (hv : PlainElem v) (hw : PlainElem w) (n : Nat) :
    elements (n + 2) (v ++ ',' :: w ++ ['\x7d']) = some [.text v, .text w] := by
  have hfirst : element (v ++ ',' :: w ++ ['\x7d']) = some (.text v, ',' :: (w ++ ['\x7d'])) := by
    rw [append_assoc]
    exact element_append hv rfl
  have hsecond : element (w ++ ['\x7d']) = some (.text w, ['\x7d']) := element_append hw rfl
  have hlast : elements (n + 1) (w ++ ['\x7d']) = some [.text w] := by
    rw [elements, hsecond]
    rfl
  rw [elements, hfirst]
  exact congrArg (Option.map (Elem.text v :: ·)) hlast

theorem arrayIn_pair_bound (h : arrayIn cs = some [.text v, .text w]) :
    v.length + w.length + 3 ≤ cs.length ∧ (cs.length = v.length + w.length + 3 →
      cs = '\x7b' :: (v ++ ',' :: w ++ ['\x7d']) ∧ PlainElem v) := by
  have hsuffix := dropWhile_suffix (l := cs) isSpace
  have hshort := hsuffix.length_le
  unfold arrayIn at h
  split at h
  next cs' hdrop =>
    split at h
    next => split at h <;> cases h
    next =>
      obtain ⟨hlen, hplain⟩ := elements_pair_bound h
      rw [hdrop, length_cons] at hshort
      refine ⟨by omega, ?_⟩
      intro heq
      obtain ⟨hcs, hv⟩ := hplain (by omega)
      have hwhole : '\x7b' :: cs' = cs := by
        rw [← hdrop]
        exact hsuffix.eq_of_length (by rw [hdrop, length_cons]; omega)
      exact ⟨by rw [← hwhole, hcs], hv⟩
  next => cases h

theorem arrayIn_pair (hv : PlainElem v) (hw : PlainElem w) :
    arrayIn ('\x7b' :: (v ++ ',' :: w ++ ['\x7d'])) = some [.text v, .text w] := by
  obtain ⟨c, cs, rfl, hspace⟩ := hv.first
  have hc := hv.ordinary c mem_cons_self
  have hne : c ≠ '\x7d' := by
    rintro rfl
    cases hc
  have hdrop : (c :: cs ++ ',' :: w ++ ['\x7d']).dropWhile isSpace
      = c :: (cs ++ ',' :: w ++ ['\x7d']) := by
    rw [cons_append, cons_append, dropWhile_cons_of_neg (by simp [hspace])]
  have hbrace : ('\x7b' :: (c :: cs ++ ',' :: w ++ ['\x7d'])).dropWhile isSpace
      = '\x7b' :: (c :: cs ++ ',' :: w ++ ['\x7d']) := rfl
  rw [arrayIn, hbrace]
  simp only [hdrop]
  split
  next heq => cases heq; exact absurd rfl hne
  next =>
    have hfuel : (c :: cs ++ ',' :: w ++ ['\x7d']).length + 1
        = (cs.length + w.length + 2) + 2 := by
      simp only [length_append, length_cons, length_nil]
      omega
    rw [hfuel]
    exact elements_pair hv hw _

/-- A two-element literal is read as these two elements, and nothing behind it, exactly if the first
stands for itself in both syntaxes. -/
theorem literal_pair_iff (hw : PlainElem w) (hquote : '\'' ∉ w)
    (hzero : '\x00' ∉ w) (hrest : rest.head? ≠ some '\'') :
    (∃ content,
      body '\'' ('\x7b' :: (v ++ ',' :: w ++ ['\x7d']) ++ '\'' :: rest) = some (content, rest) ∧
      arrayIn content = some [.text v, .text w]) ↔ PlainElem v ∧ '\'' ∉ v ∧ '\x00' ∉ v := by
  constructor
  · rintro ⟨content, hbody, harray⟩
    obtain ⟨hread, hsame⟩ := body_bound hbody
    obtain ⟨hlong, hplain⟩ := arrayIn_pair_bound harray
    simp only [length_append, length_cons, length_nil] at hread hsame
    obtain ⟨_, hv⟩ := hplain (by omega)
    obtain ⟨hcontent, hnoQuote, hnoZero⟩ := hsame (by omega)
    have heq := append_cancel_right hcontent
    rw [← heq] at hnoQuote hnoZero
    simp only [mem_cons, mem_append, not_or] at hnoQuote hnoZero
    exact ⟨hv, hnoQuote.2.1.1, hnoZero.2.1.1⟩
  · rintro ⟨hv, hnoQuote, hnoZero⟩
    refine ⟨_, body_append ?_ ?_ hrest, arrayIn_pair hv hw⟩
    · simp [hnoQuote, hquote]
    · simp [hnoZero, hzero]

end SqlLiteral
