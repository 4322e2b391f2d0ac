import Mathlib.Tactic

namespace SqlLiteral

open List

variable {v rest : List Char}

def push {α β : Type} (a : α) (r : Option (List α × β)) : Option (List α × β) :=
  r.map fun p => (a :: p.1, p.2)

theorem push_eq_some {α β : Type} {a : α} {r : Option (List α × β)} {v : List α} {rest : β}
    (h : push a r = some (v, rest)) : ∃ w, r = some (w, rest) ∧ v = a :: w := by
  obtain ⟨⟨w, rest'⟩, hr, h⟩ := Option.map_eq_some_iff.mp h
  cases h
  exact ⟨w, hr, rfl⟩

/-- From after its opening quote: the value and the text behind it. A doubled quote stands for a
quote; a NUL ends the text. -/
def body (q : Char) : List Char → Option (List Char × List Char)
  | [] => none
  | [c] => if c = q then some ([], []) else none
  | c :: d :: cs =>
    if c = q then if d = q then push q (body q cs) else some ([], d :: cs)
    else if c = '\x00' then none
    else push c (body q (d :: cs))

def double (q : Char) (v : List Char) : List Char :=
  v.flatMap fun c => if c = q then [q, q] else [c]

variable {q : Char}

theorem double_eq_self (h : q ∉ v) : double q v = v := by
  induction v with
  | nil => rfl
  | cons c v ih =>
    rw [mem_cons, not_or] at h
    rw [double, flatMap_cons, if_neg (Ne.symm h.1)]
    exact congrArg _ (ih h.2)

theorem length_le_double (v : List Char) : v.length ≤ (double q v).length := by
  induction v with
  | nil => exact Nat.le_refl 0
  | cons c v ih =>
    rw [double, flatMap_cons, length_append, length_cons]
    have hone : 1 ≤ (if c = q then [q, q] else [c]).length := by split <;> simp
    simp only [double] at ih
    omega

theorem mem_of_mem_double {c : Char} (h : c ∈ double q v) : c ∈ v := by
  obtain ⟨d, hd, hc⟩ := mem_flatMap.mp h
  split at hc
  next heq =>
    have hq : c = q := by simpa using hc
    rw [hq, ← heq]
    exact hd
  next =>
    rw [mem_singleton.mp hc]
    exact hd

/-- The closing quote shows where a doubled value ends. -/
theorem double_append_inj {v' rest' : List Char} (hrest : rest.head? ≠ some q)
    (hrest' : rest'.head? ≠ some q) (h : double q v ++ q :: rest = double q v' ++ q :: rest') :
    v = v' ∧ rest = rest' := by
  have hcons : ∀ (c : Char) (v : List Char),
      double q (c :: v) = (if c = q then [q, q] else [c]) ++ double q v := fun _ _ => rfl
  have hother : ∀ (c : Char) (v r r' : List Char), r.head? ≠ some q →
      q :: r ≠ double q (c :: v) ++ q :: r' := by
    intro c v r r' hr heq
    rw [hcons] at heq
    split at heq
    next =>
      obtain ⟨_, heq⟩ := List.cons.inj heq
      exact hr (by rw [heq]; rfl)
    next hne => exact hne (List.cons.inj heq).1.symm
  induction v generalizing v' with
  | nil =>
    cases v' with
    | nil => exact ⟨rfl, (List.cons.inj h).2⟩
    | cons c' v' => exact absurd h (hother c' v' rest rest' hrest)
  | cons c v ih =>
    cases v' with
    | nil => exact absurd h.symm (hother c v rest' rest hrest')
    | cons c' v' =>
      rw [hcons, hcons] at h
      by_cases hc : c = q <;> by_cases hc' : c' = q
      · rw [if_pos hc, if_pos hc'] at h
        obtain ⟨rfl, hr⟩ := ih (List.cons.inj (List.cons.inj h).2).2
        exact ⟨by rw [hc, hc'], hr⟩
      · rw [if_pos hc, if_neg hc'] at h
        exact absurd (List.cons.inj h).1.symm hc'
      · rw [if_neg hc, if_pos hc'] at h
        exact absurd (List.cons.inj h).1 hc
      · rw [if_neg hc, if_neg hc'] at h
        obtain ⟨hfirst, hlater⟩ := List.cons.inj h
        obtain ⟨rfl, hr⟩ := ih hlater
        exact ⟨by rw [hfirst], hr⟩

theorem body_close (hrest : rest.head? ≠ some q) :
    body q (q :: rest) = some ([], rest) := by
  cases rest with
  | nil => rw [body, if_pos rfl]
  | cons c cs =>
    have hc : c ≠ q := fun h => hrest (congrArg some h)
    rw [body, if_pos rfl, if_neg hc]

theorem body_quote (cs : List Char) : body q (q :: q :: cs) = push q (body q cs) := by
  rw [body, if_pos rfl, if_pos rfl]

theorem body_char {c : Char} {cs : List Char} (hquote : c ≠ q) (hzero : c ≠ '\x00') :
    body q (c :: cs) = push c (body q cs) := by
  cases cs with
  | nil =>
    have hlast : body q [c] = none := by rw [body, if_neg hquote]
    rw [hlast]
    rfl
  | cons d cs => rw [body, if_neg hquote, if_neg hzero]

theorem body_double (hzero : '\x00' ∉ v) (hrest : rest.head? ≠ some q) :
    body q (double q v ++ q :: rest) = some (v, rest) := by
  induction v with
  | nil => exact body_close hrest
  | cons c v ih =>
    rw [mem_cons, not_or] at hzero
    have hv := ih hzero.2
    rw [double, flatMap_cons]
    by_cases hc : c = q
    · rw [if_pos hc]
      show body q (q :: q :: (double q v ++ q :: rest)) = _
      rw [body_quote, hv, hc]
      rfl
    · rw [if_neg hc]
      show body q (c :: (double q v ++ q :: rest)) = _
      rw [body_char hc (Ne.symm hzero.1), hv]
      rfl

theorem body_append (hquote : q ∉ v) (hzero : '\x00' ∉ v)
    (hrest : rest.head? ≠ some q) : body q (v ++ q :: rest) = some (v, rest) := by
  have h := body_double hzero hrest
  rwa [double_eq_self hquote] at h

/-- What is read is no longer than the text, and as long only if it is the text. -/
theorem body_bound {cs : List Char} (h : body q cs = some (v, rest)) :
    v.length + 1 + rest.length ≤ cs.length ∧ (cs.length = v.length + 1 + rest.length →
      cs = v ++ q :: rest ∧ q ∉ v ∧ '\x00' ∉ v) := by
  fun_induction body q cs generalizing v rest with
  | case1 => cases h
  | case2 =>
    cases h
    exact ⟨by simp, fun _ => by simp⟩
  | case3 => cases h
  | case4 cs ih =>
    obtain ⟨w, hw, rfl⟩ := push_eq_some h
    have hlen := (ih hw).1
    simp only [length_cons]
    exact ⟨by omega, fun heq => by omega⟩
  | case5 d cs =>
    cases h
    exact ⟨by simp only [length_cons, length_nil]; omega, fun _ => by simp⟩
  | case6 => cases h
  | case7 c d cs hquote hzero ih =>
    obtain ⟨w, hw, rfl⟩ := push_eq_some h
    obtain ⟨hlen, hplain⟩ := ih hw
    simp only [length_cons] at hlen hplain ⊢
    refine ⟨by omega, ?_⟩
    intro heq
    obtain ⟨hcs, hnoQuote, hnoZero⟩ := hplain (by omega)
    simp only [hcs, cons_append, mem_cons, not_or, true_and]
    exact ⟨⟨fun h => hquote h.symm, hnoQuote⟩, fun h => hzero h.symm, hnoZero⟩

end SqlLiteral
