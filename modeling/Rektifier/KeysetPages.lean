import Mathlib.Data.List.Sort
import Mathlib.Data.List.Perm.Basic
import Mathlib.Data.List.Perm.Subperm
import Mathlib.Tactic

universe u v

variable {ρ : Type u} {α : Type v}

/-- An order of rows by rank; rows of one rank come as they like. -/
structure RowSort [LinearOrder α] (rank : ρ → α) where
  sort : List ρ → List ρ
  perm : ∀ l, (sort l).Perm l
  sorted : ∀ l, (sort l).Pairwise fun a b => rank a ≤ rank b

/-- Rows of one rank as they are stored. -/
def RowSort.stable [LinearOrder α] (rank : ρ → α) : RowSort rank where
  sort l := l.insertionSort fun a b => rank a ≤ rank b
  perm l := List.perm_insertionSort _ l
  sorted l := List.pairwise_insertionSort _ l

theorem length_filter_lt_le [LinearOrder α] {rank : ρ → α} {l : List ρ}
    (hsorted : l.Pairwise fun a b => rank a ≤ rank b) {i : ℕ} {x : ρ} (hx : l[i]? = some x)
    (p : ρ → Bool) : (l.filter fun r => p r && decide (rank r < rank x)).length ≤ i := by
  have hi : i < l.length := (List.getElem?_eq_some_iff.mp hx).1
  have hsplit : l.take i ++ x :: l.drop (i + 1) = l := by
    have hdrop : l.drop i = x :: l.drop (i + 1) := by
      rw [List.drop_eq_getElem_cons hi, (List.getElem?_eq_some_iff.mp hx).2]
    rw [← hdrop, List.take_append_drop]
  have hbehind : ((x :: l.drop (i + 1)).filter fun r => p r && decide (rank r < rank x)) = [] := by
    rw [List.filter_eq_nil_iff]
    intro r hr
    rw [← hsplit] at hsorted
    have hle : rank x ≤ rank r := by
      rcases List.mem_cons.mp hr with rfl | hr
      · exact le_rfl
      · exact (List.pairwise_cons.mp (List.pairwise_append.mp hsorted).2.1).1 r hr
    simp [not_lt.mpr hle]
  calc (l.filter fun r => p r && decide (rank r < rank x)).length
      = ((l.take i ++ x :: l.drop (i + 1)).filter
          fun r => p r && decide (rank r < rank x)).length := by rw [hsplit]
    _ = ((l.take i).filter fun r => p r && decide (rank r < rank x)).length := by
      rw [List.filter_append, hbehind, List.append_nil]
    _ ≤ i := (List.length_filter_le _ _).trans (List.length_take_le _ _)

/-- The first rows all satisfy a predicate exactly when enough of those that do come before every
other row. -/
theorem RowSort.take_all_iff [LinearOrder α] {rank : ρ → α} (order : RowSort rank) {p : ρ → Bool}
    {rows : List ρ} {n : ℕ} (happart : ∀ x ∈ rows, ∀ y ∈ rows, p x → p y = false →
      rank x ≠ rank y) :
    (∀ r ∈ (order.sort rows).take n, p r) ↔ ∀ y ∈ rows, p y = false →
      n ≤ (rows.filter fun r => p r && decide (rank r < rank y)).length := by
  have hperm := order.perm rows
  have hlength : ∀ y, (rows.filter fun r => p r && decide (rank r < rank y)).length
      = ((order.sort rows).filter fun r => p r && decide (rank r < rank y)).length :=
    fun y => (hperm.filter _).length_eq.symm
  constructor
  · intro hall y hy hnot
    rw [hlength]
    have hbehind : y ∈ (order.sort rows).drop n := by
      have hmem := hperm.mem_iff.mpr hy
      rw [← List.take_append_drop n (order.sort rows), List.mem_append] at hmem
      rcases hmem with hmem | hmem
      · rw [hall y hmem] at hnot
        cases hnot
      · exact hmem
    have hfirst : ∀ r ∈ (order.sort rows).take n, (p r && decide (rank r < rank y)) = true := by
      intro r hr
      have hsorted := order.sorted rows
      rw [← List.take_append_drop n (order.sort rows)] at hsorted
      have hle := (List.pairwise_append.mp hsorted).2.2 r hr y hbehind
      have hrow : r ∈ rows := hperm.mem_iff.mp (List.mem_of_mem_take hr)
      have hlt := lt_of_le_of_ne hle (happart r hrow y hy (hall r hr) hnot)
      simp [hall r hr, hlt]
    have hsub : ((order.sort rows).take n).Sublist
        ((order.sort rows).filter fun r => p r && decide (rank r < rank y)) := by
      rw [← List.filter_eq_self.mpr hfirst]
      exact (List.take_sublist _ _).filter _
    have hlong : n ≤ ((order.sort rows).take n).length := by
      have hpos := List.length_pos_of_mem hbehind
      rw [List.length_drop] at hpos
      rw [List.length_take]
      omega
    exact hlong.trans hsub.length_le
  · intro h r hr
    by_contra hnot
    obtain ⟨i, hi⟩ := List.getElem?_of_mem hr
    have hrow : r ∈ rows := hperm.mem_iff.mp (List.mem_of_mem_take hr)
    have henough := h r hrow (by simpa using hnot)
    rw [hlength] at henough
    rw [List.getElem?_take] at hi
    split at hi
    · have hfew := length_filter_lt_le (order.sorted rows) hi p
      omega
    · cases hi

/-- The rank of a page's last row is the next page's cursor, if the row carries one. -/
structure KeysetPages (ρ : Type u) (α : Type v) [LinearOrder α] where
  rank : ρ → α
  carries : ρ → Bool
  order : RowSort rank

namespace KeysetPages

variable [LinearOrder α] (k : KeysetPages ρ α) {n fuel : ℕ} {rows out : List ρ} {cursor : Option α}

def after (cursor : Option α) (r : ρ) : Bool :=
  match cursor with
  | none => true
  | some a => k.carries r && decide (a < k.rank r)

def ahead (rows : List ρ) (cursor : Option α) : List ρ :=
  k.order.sort (rows.filter (k.after cursor))

def page (n : ℕ) (rows : List ρ) (cursor : Option α) : List ρ := (k.ahead rows cursor).take n

/-- Only a full page has a next one. -/
def next (n : ℕ) (rows : List ρ) (cursor : Option α) : Option α :=
  if (k.page n rows cursor).length = n then
    (k.page n rows cursor).getLast?.bind fun r => if k.carries r then some (k.rank r) else none
  else none

/-- All pages from a cursor on; `none` when fuel runs out. -/
def pages (n : ℕ) (rows : List ρ) : ℕ → Option α → Option (List ρ)
  | 0, _ => none
  | fuel + 1, cursor =>
    match k.next n rows cursor with
    | none => some (k.page n rows cursor)
    | some a => (pages n rows fuel (some a)).map (k.page n rows cursor ++ ·)

theorem ahead_perm : (k.ahead rows cursor).Perm (rows.filter (k.after cursor)) := k.order.perm _

theorem ahead_sorted : (k.ahead rows cursor).Pairwise fun a b => k.rank a ≤ k.rank b :=
  k.order.sorted _

theorem next_eq_some {a : α} (h : k.next n rows cursor = some a) :
    (k.page n rows cursor).length = n ∧
      ∃ r, (k.page n rows cursor).getLast? = some r ∧ k.carries r ∧ k.rank r = a := by
  unfold next at h
  split at h
  · rename_i hlen
    obtain ⟨r, hlast, hr⟩ := Option.bind_eq_some_iff.mp h
    split at hr
    · rename_i hcarries
      exact ⟨hlen, r, hlast, hcarries, Option.some.inj hr⟩
    · cases hr
  · cases h

/-- A later cursor leaves only rows the earlier one left. -/
theorem filter_after_of_next {a : α} (h : k.next n rows cursor = some a) :
    rows.filter (k.after (some a)) = (rows.filter (k.after cursor)).filter (k.after (some a)) := by
  obtain ⟨_, r, hlast, _, rfl⟩ := k.next_eq_some h
  have hr : k.after cursor r := by
    have hmem := List.mem_of_mem_take (List.mem_of_getLast? hlast)
    exact (List.mem_filter.mp (k.ahead_perm.mem_iff.mp hmem)).2
  rw [List.filter_filter]
  refine List.filter_congr fun x _ => ?_
  rcases hx : k.after (some (k.rank r)) x with _ | _
  · simp
  · rcases cursor with _ | b
    · simp [after]
    · simp only [after, Bool.and_eq_true, decide_eq_true_eq] at hx hr ⊢
      simp [hx.1, hr.2.trans hx.2]

theorem page_not_after {a : α} (h : k.next n rows cursor = some a) {x : ρ}
    (hx : x ∈ k.page n rows cursor) : k.after (some a) x = false := by
  obtain ⟨_, r, hlast, _, rfl⟩ := k.next_eq_some h
  have hsorted : (k.page n rows cursor).Pairwise fun a b => k.rank a ≤ k.rank b :=
    k.ahead_sorted.sublist (List.take_sublist _ _)
  obtain ⟨init, heq⟩ := List.getLast?_eq_some_iff.mp hlast
  have hle : k.rank x ≤ k.rank r := by
    rw [heq] at hx hsorted
    rcases List.mem_append.mp hx with hx | hx
    · exact (List.pairwise_append.mp hsorted).2.2 x hx r List.mem_cons_self
    · rw [List.mem_singleton.mp hx]
  simp [after, not_lt.mpr hle]

/-- The rows after a page's cursor stood behind the page. -/
theorem filter_after_perm {a : α} (h : k.next n rows cursor = some a) :
    (rows.filter (k.after (some a))).Perm
      (((k.ahead rows cursor).drop n).filter (k.after (some a))) := by
  rw [k.filter_after_of_next h]
  have hsplit : (k.page n rows cursor ++ (k.ahead rows cursor).drop n).Perm
      (rows.filter (k.after cursor)) := by
    rw [page, List.take_append_drop]
    exact k.ahead_perm
  have hfilter := (hsplit.filter (k.after (some a))).symm
  rw [List.filter_append] at hfilter
  have hpage : (k.page n rows cursor).filter (k.after (some a)) = [] := by
    rw [List.filter_eq_nil_iff]
    intro x hx
    simp [k.page_not_after h hx]
  rwa [hpage, List.nil_append] at hfilter

theorem pages_ends (hn : 0 < n) (hfuel : (rows.filter (k.after cursor)).length < fuel) :
    ∃ out, k.pages n rows fuel cursor = some out := by
  induction fuel generalizing cursor with
  | zero => exact absurd hfuel (Nat.not_lt_zero _)
  | succ fuel ih =>
    rw [pages]
    rcases hnext : k.next n rows cursor with _ | a
    · exact ⟨_, rfl⟩
    · obtain ⟨hlen, _⟩ := k.next_eq_some hnext
      have hperm := (k.filter_after_perm hnext).length_eq
      have hfilter := List.length_filter_le (k.after (some a)) ((k.ahead rows cursor).drop n)
      have hahead : (k.ahead rows cursor).length = (rows.filter (k.after cursor)).length :=
        k.ahead_perm.length_eq
      have hpage : (k.page n rows cursor).length ≤ (k.ahead rows cursor).length := by
        rw [page]
        exact List.length_take_le' _ _
      rw [List.length_drop] at hfilter
      have hfewer : (rows.filter (k.after (some a))).length < fuel := by omega
      obtain ⟨out, hout⟩ := ih hfewer
      exact ⟨k.page n rows cursor ++ out, by simp only [hout, Option.map_some]⟩

theorem pages_subperm (h : k.pages n rows fuel cursor = some out) :
    out.Subperm (rows.filter (k.after cursor)) := by
  induction fuel generalizing cursor out with
  | zero => cases h
  | succ fuel ih =>
    rw [pages] at h
    split at h
    · cases h
      exact (List.take_sublist _ _).subperm.trans k.ahead_perm.subperm
    · rename_i a hnext
      obtain ⟨out', hout', rfl⟩ := Option.map_eq_some_iff.mp h
      have hrest : out'.Subperm ((k.ahead rows cursor).drop n) :=
        ((ih hout').trans (k.filter_after_perm hnext).subperm).trans List.filter_sublist.subperm
      have hall := List.Subperm.append (List.Subperm.refl (k.page n rows cursor)) hrest
      rw [page, List.take_append_drop] at hall
      exact hall.trans k.ahead_perm.subperm

/-- No row with a cursor stands behind a multiple of the page size together with a row of its rank,
or with one without a cursor, before it. -/
def Unsplit (n : ℕ) (l : List ρ) : Prop :=
  ∀ j, ∀ q ∈ l[(j + 1) * n - 1]?, ∀ r ∈ l.drop ((j + 1) * n), k.carries r = true →
    k.carries q = true ∧ k.rank q < k.rank r

/-- Rows without a cursor all come before the others, or all after. -/
def SparseApart (rows : List ρ) : Prop :=
  (∀ x ∈ rows, ∀ y ∈ rows, k.carries x = true → k.carries y = false → k.rank x < k.rank y) ∨
  (∀ x ∈ rows, ∀ y ∈ rows, k.carries x = true → k.carries y = false → k.rank y < k.rank x)

theorem unsplit_congr {l l' : List ρ} (hl : ∀ r ∈ l, k.carries r)
    (hl' : ∀ r ∈ l', k.carries r) (hrank : l.map k.rank = l'.map k.rank)
    (h : k.Unsplit n l) : k.Unsplit n l' := by
  intro j q hq r hr _
  refine ⟨hl' q (List.mem_of_getElem? hq), ?_⟩
  have hqRank : k.rank q ∈ (l.map k.rank)[(j + 1) * n - 1]? := by
    rw [hrank, List.getElem?_map, hq]
    rfl
  have hrRank : k.rank r ∈ (l.map k.rank).drop ((j + 1) * n) := by
    rw [hrank, ← List.map_drop]
    exact List.mem_map_of_mem hr
  rw [List.getElem?_map] at hqRank
  obtain ⟨q₀, hq₀, hqeq⟩ := Option.map_eq_some_iff.mp hqRank
  rw [← List.map_drop] at hrRank
  obtain ⟨r₀, hr₀, hreq⟩ := List.mem_map.mp hrRank
  rw [← hqeq, ← hreq]
  exact (h j q₀ hq₀ r₀ hr₀ (hl r₀ (List.mem_of_mem_drop hr₀))).2

theorem filter_carries_append {l : List ρ}
    (h : l.Pairwise fun x y => k.carries x = false → k.carries y = false) :
    l = l.filter k.carries ++ l.filter fun r => !k.carries r := by
  induction l with
  | nil => rfl
  | cons x l ih =>
    obtain ⟨hx, hl⟩ := List.pairwise_cons.mp h
    rcases hcarries : k.carries x with _ | _
    · have hnone : l.filter k.carries = [] := by
        rw [List.filter_eq_nil_iff]
        intro y hy
        simp [hx y hy hcarries]
      have hall := ih hl
      rw [hnone, List.nil_append] at hall
      rw [List.filter_cons_of_neg (by simp [hcarries]), hnone, List.nil_append,
        List.filter_cons_of_pos (by simp [hcarries]), ← hall]
    · rw [List.filter_cons_of_pos hcarries, List.filter_cons_of_neg (by simp [hcarries]),
        List.cons_append, ← ih hl]

theorem page_append_drop : k.page n rows cursor ++ (k.ahead rows cursor).drop n
    = k.ahead rows cursor := List.take_append_drop _ _

theorem getElem?_of_getLast?_page {r : ρ} (hlen : (k.page n rows cursor).length = n)
    (hlast : (k.page n rows cursor).getLast? = some r) :
    (k.ahead rows cursor)[n - 1]? = some r := by
  rw [List.getLast?_eq_getElem?, hlen, page, List.getElem?_take] at hlast
  split at hlast
  · exact hlast
  · cases hlast

theorem sparse_last_of_carries {r : ρ} (hsparse : k.SparseApart rows)
    (hlast : (k.page n rows cursor).getLast? = some r) (hr : k.carries r) :
    ((k.ahead rows cursor).drop n).Pairwise fun x y => k.carries x = false → k.carries y = false := by
  have hmem : ∀ x ∈ k.ahead rows cursor, x ∈ rows := fun x hx =>
    (List.mem_filter.mp (k.ahead_perm.mem_iff.mp hx)).1
  have hdrop : ∀ x ∈ (k.ahead rows cursor).drop n, x ∈ rows := fun x hx =>
    hmem x (List.mem_of_mem_drop hx)
  have hrRows : r ∈ rows := hmem r (List.mem_of_mem_take (List.mem_of_getLast? hlast))
  have hrank : ∀ x ∈ (k.ahead rows cursor).drop n, k.rank r ≤ k.rank x := by
    have hsorted : (k.ahead rows cursor).Pairwise fun a b => k.rank a ≤ k.rank b := k.ahead_sorted
    rw [← k.page_append_drop (n := n)] at hsorted
    intro x hx
    exact (List.pairwise_append.mp hsorted).2.2 r (List.mem_of_getLast? hlast) x hx
  have hsorted : ((k.ahead rows cursor).drop n).Pairwise fun a b => k.rank a ≤ k.rank b :=
    k.ahead_sorted.sublist (List.drop_sublist _ _)
  refine (List.pairwise_iff_forall_sublist.mpr ?_)
  intro x y hxy hx
  have hxm := hxy.subset (List.mem_cons_self)
  have hym := hxy.subset (List.mem_cons_of_mem _ List.mem_cons_self)
  have hle : k.rank x ≤ k.rank y := List.pairwise_iff_forall_sublist.mp hsorted hxy
  rcases hy : k.carries y with _ | _
  · rfl
  · rcases hsparse with hafter | hbefore
    · exact absurd hle (not_le.mpr (hafter y (hdrop y hym) x (hdrop x hxm) hy hx))
    · exact absurd (hrank x hxm) (not_le.mpr (hbefore r hrRows x (hdrop x hxm) hr hx))

/-- The positions behind a first page, counted in the rows left. -/
theorem unsplit_drop {l kept junk : List ρ} {q : ρ} (hn : 0 < n) (hq : l[n - 1]? = some q)
    (hdrop : l.drop n = kept ++ junk) (hjunk : ∀ r ∈ junk, k.carries r = false) :
    k.Unsplit n l ↔
      (∀ r ∈ l.drop n, k.carries r → k.carries q ∧ k.rank q < k.rank r) ∧
      k.Unsplit n kept := by
  have hdropAt : ∀ j, l.drop ((j + 1 + 1) * n) = (kept ++ junk).drop ((j + 1) * n) := by
    intro j
    rw [← hdrop, List.drop_drop]
    congr 1
    ring
  have hgetAt : ∀ j, l[(j + 1 + 1) * n - 1]? = (kept ++ junk)[(j + 1) * n - 1]? := by
    intro j
    rw [← hdrop, List.getElem?_drop]
    congr 1
    have hpos : n ≤ (j + 1) * n := Nat.le_mul_of_pos_left n (Nat.succ_pos j)
    rw [Nat.add_mul (j + 1) 1 n, Nat.one_mul]
    omega
  -- a row that carries a cursor behind a position of the whole is one of the kept rows
  have hkept : ∀ j r, r ∈ (kept ++ junk).drop ((j + 1) * n) → k.carries r →
      r ∈ kept.drop ((j + 1) * n) := by
    intro j r hr hcarries
    rw [List.drop_append] at hr
    rcases List.mem_append.mp hr with hr | hr
    · exact hr
    · rw [hjunk r (List.mem_of_mem_drop hr)] at hcarries
      cases hcarries
  have hgetKept : ∀ j r, r ∈ kept.drop ((j + 1) * n) →
      (kept ++ junk)[(j + 1) * n - 1]? = kept[(j + 1) * n - 1]? := by
    intro j r hr
    have hlen : (j + 1) * n < kept.length := by
      have hpos := List.length_pos_of_mem hr
      rw [List.length_drop] at hpos
      omega
    rw [List.getElem?_append_left (by omega)]
  constructor
  · intro h
    refine ⟨fun r hr hcarries => ?_, fun j p hp r hr hcarries => ?_⟩
    · refine h 0 q ?_ r ?_ hcarries
      · rw [Nat.zero_add, Nat.one_mul]
        exact hq
      · rwa [Nat.zero_add, Nat.one_mul]
    · refine h (j + 1) p ?_ r ?_ hcarries
      · rw [hgetAt, hgetKept j r hr]
        exact hp
      · rw [hdropAt, List.drop_append]
        exact List.mem_append_left _ hr
  · rintro ⟨hfirst, hrest⟩ j p hp r hr hcarries
    rcases j with _ | j
    · rw [Nat.zero_add, Nat.one_mul] at hp hr
      cases hq.symm.trans hp
      exact hfirst r hr hcarries
    · rw [hdropAt] at hr
      have hr' := hkept j r hr hcarries
      rw [hgetAt, hgetKept j r hr'] at hp
      exact hrest j p hp r hr' hcarries

theorem unsplit_step {a : α} (hn : 0 < n) (hsparse : k.SparseApart rows)
    (hnext : k.next n rows cursor = some a) : k.Unsplit n (k.ahead rows cursor) ↔
      (∀ r ∈ (k.ahead rows cursor).drop n, k.carries r → k.after (some a) r) ∧
      k.Unsplit n (k.ahead rows (some a)) := by
  obtain ⟨hlen, q, hlast, hq, rfl⟩ := k.next_eq_some hnext
  have hsplit := k.filter_carries_append (k.sparse_last_of_carries hsparse hlast hq)
  have hjunk : ∀ r ∈ ((k.ahead rows cursor).drop n).filter (fun r => !k.carries r),
      k.carries r = false := by
    intro r hr
    simpa using (List.mem_filter.mp hr).2
  rw [k.unsplit_drop hn (k.getElem?_of_getLast?_page hlen hlast) hsplit hjunk]
  have hfirst : (∀ r ∈ (k.ahead rows cursor).drop n, k.carries r →
      k.carries q ∧ k.rank q < k.rank r) ↔
      ∀ r ∈ (k.ahead rows cursor).drop n, k.carries r → k.after (some (k.rank q)) r := by
    refine forall₂_congr fun r _ => forall_congr' fun hcarries => ?_
    simp [after, hcarries, hq]
  rw [hfirst]
  refine and_congr_right fun hall => ?_
  have hkept : ((k.ahead rows cursor).drop n).filter k.carries
      = ((k.ahead rows cursor).drop n).filter (k.after (some (k.rank q))) := by
    refine List.filter_congr fun r hr => ?_
    rcases hcarries : k.carries r with _ | _
    · simp [after, hcarries]
    · exact (hall r hr hcarries).symm
  have hperm : (k.ahead rows (some (k.rank q))).Perm
      (((k.ahead rows cursor).drop n).filter k.carries) := by
    rw [hkept]
    exact k.ahead_perm.trans (k.filter_after_perm hnext)
  have hkeptSorted : (((k.ahead rows cursor).drop n).filter k.carries).Pairwise
      fun a b => k.rank a ≤ k.rank b :=
    k.ahead_sorted.sublist (List.filter_sublist.trans (List.drop_sublist _ _))
  have hcarry : ∀ r ∈ ((k.ahead rows cursor).drop n).filter k.carries, k.carries r :=
    fun r hr => (List.mem_filter.mp hr).2
  have hcarry' : ∀ r ∈ k.ahead rows (some (k.rank q)), k.carries r :=
    fun r hr => hcarry r (hperm.mem_iff.mp hr)
  -- two sorted lists of the same rows have the same ranks
  have hranks : (k.ahead rows (some (k.rank q))).map k.rank
      = (((k.ahead rows cursor).drop n).filter k.carries).map k.rank := by
    have hsorted : ((k.ahead rows (some (k.rank q))).map k.rank).Pairwise (· ≤ ·) :=
      List.pairwise_map.mpr k.ahead_sorted
    exact List.Perm.eq_of_pairwise' hsorted (List.pairwise_map.mpr hkeptSorted) (hperm.map k.rank)
  exact ⟨k.unsplit_congr hcarry hcarry' hranks.symm, k.unsplit_congr hcarry' hcarry hranks⟩

theorem filter_carries_after (l : List ρ) (a : α) :
    (l.filter (k.after (some a))).filter k.carries = l.filter (k.after (some a)) := by
  rw [List.filter_filter]
  refine List.filter_congr fun r _ => ?_
  rcases hcarries : k.carries r with _ | _ <;> simp [after, hcarries]

theorem filter_after_eq {l : List ρ} {a : α}
    (h : (l.filter k.carries).length ≤ (l.filter (k.after (some a))).length) :
    l.filter (k.after (some a)) = l.filter k.carries := by
  have hsub : (l.filter (k.after (some a))).Sublist (l.filter k.carries) := by
    rw [← k.filter_carries_after]
    exact List.filter_sublist.filter k.carries
  exact hsub.eq_of_length_le h

theorem page_of_long (hn : 0 < n) (hlong : n ≤ (k.ahead rows cursor).length) :
    (k.page n rows cursor).length = n ∧ ∃ q, (k.page n rows cursor).getLast? = some q := by
  have hlen : (k.page n rows cursor).length = n := by
    rw [page, List.length_take]
    omega
  refine ⟨hlen, ?_⟩
  rw [← Option.isSome_iff_exists, List.getLast?_isSome, ← List.length_pos_iff_ne_nil, hlen]
  exact hn

/-- A page without a next one is complete exactly when no row behind it carries a cursor. -/
theorem unsplit_iff_of_next_none (hn : 0 < n) (hnext : k.next n rows cursor = none) :
    k.Unsplit n (k.ahead rows cursor) ↔ ∀ r ∈ (k.ahead rows cursor).drop n, k.carries r = false := by
  constructor
  · intro h r hr
    by_contra hcarries
    rw [Bool.not_eq_false] at hcarries
    have hpos := List.length_pos_of_mem hr
    rw [List.length_drop] at hpos
    obtain ⟨hlen, q, hlast⟩ := k.page_of_long hn (Nat.le_of_lt (Nat.lt_of_sub_pos hpos))
    have hq := (h 0 q (by
      rw [Nat.zero_add, Nat.one_mul]
      exact k.getElem?_of_getLast?_page hlen hlast) r (by rwa [Nat.zero_add, Nat.one_mul])
      hcarries).1
    simp [next, hlen, hlast, hq] at hnext
  · intro h j q _ r hr hcarries
    have hr' : r ∈ (k.ahead rows cursor).drop n := by
      have hsplit : (j + 1) * n = n + j * n := by ring
      rw [hsplit, ← List.drop_drop] at hr
      exact List.mem_of_mem_drop hr
    rw [h r hr'] at hcarries
    cases hcarries

/-- All pages together have every row with a cursor exactly when none is split from the rows before
it. -/
theorem pages_complete_iff (hn : 0 < n) (hsparse : k.SparseApart rows)
    (h : k.pages n rows fuel cursor = some out) :
    (out.filter k.carries).Perm ((rows.filter (k.after cursor)).filter k.carries) ↔
      k.Unsplit n (k.ahead rows cursor) := by
  induction fuel generalizing cursor out with
  | zero => cases h
  | succ fuel ih =>
    have hcancel : ∀ shown : List ρ,
        ((k.page n rows cursor ++ shown).filter k.carries).Perm
          ((rows.filter (k.after cursor)).filter k.carries) ↔
        (shown.filter k.carries).Perm (((k.ahead rows cursor).drop n).filter k.carries) := by
      intro shown
      have hahead : ((k.ahead rows cursor).filter k.carries).Perm
          ((rows.filter (k.after cursor)).filter k.carries) := k.ahead_perm.filter k.carries
      rw [← k.page_append_drop (n := n), List.filter_append] at hahead
      rw [List.filter_append]
      exact ⟨fun hp => (List.perm_append_left_iff _).mp (hp.trans hahead.symm),
        fun hp => ((List.perm_append_left_iff _).mpr hp).trans hahead⟩
    rw [pages] at h
    split at h
    · rename_i hnext
      cases h
      have hpage := hcancel []
      rw [List.append_nil] at hpage
      rw [hpage, k.unsplit_iff_of_next_none hn hnext, List.filter_nil, List.nil_perm,
        List.filter_eq_nil_iff]
      simp
    · rename_i a hnext
      obtain ⟨out', hout', rfl⟩ := Option.map_eq_some_iff.mp h
      rw [hcancel, k.unsplit_step hn hsparse hnext, ← ih hout']
      have hafter : ((rows.filter (k.after (some a))).filter k.carries).Perm
          (((k.ahead rows cursor).drop n).filter (k.after (some a))) := by
        have hperm := (k.filter_after_perm hnext).filter k.carries
        rwa [k.filter_carries_after ((k.ahead rows cursor).drop n)] at hperm
      constructor
      · intro hp
        have hshown : (out'.filter k.carries).length
            ≤ (((k.ahead rows cursor).drop n).filter (k.after (some a))).length := by
          rw [← hafter.length_eq]
          exact ((k.pages_subperm hout').filter k.carries).length_le
        rw [hp.length_eq] at hshown
        have heq := k.filter_after_eq hshown
        refine ⟨fun r hr hcarries => ?_, ?_⟩
        · have hmem : r ∈ ((k.ahead rows cursor).drop n).filter k.carries :=
            List.mem_filter.mpr ⟨hr, hcarries⟩
          rw [← heq] at hmem
          exact (List.mem_filter.mp hmem).2
        · rw [← heq] at hp
          exact hp.trans hafter.symm
      · rintro ⟨hall, hp⟩
        have heq : ((k.ahead rows cursor).drop n).filter (k.after (some a))
            = ((k.ahead rows cursor).drop n).filter k.carries := by
          refine List.filter_congr fun r hr => ?_
          rcases hcarries : k.carries r with _ | _
          · simp [after, hcarries]
          · exact hall r hr hcarries
        rw [heq] at hafter
        exact hp.trans hafter

def pageList (n : ℕ) (rows : List ρ) : ℕ → Option α → Option (List (List ρ))
  | 0, _ => none
  | fuel + 1, cursor =>
    match k.next n rows cursor with
    | none => some [k.page n rows cursor]
    | some a => (pageList n rows fuel (some a)).map (k.page n rows cursor :: ·)

theorem pages_eq_flatten :
    k.pages n rows fuel cursor = (k.pageList n rows fuel cursor).map List.flatten := by
  induction fuel generalizing cursor with
  | zero => rfl
  | succ fuel ih =>
    rw [pages, pageList]
    split
    · simp
    · rw [ih, Option.map_map, Option.map_map]
      rfl

theorem ahead_strict (hdistinct : (rows.map k.rank).Nodup) :
    (k.ahead rows cursor).Pairwise fun a b => k.rank a < k.rank b := by
  have hnodup : ((k.ahead rows cursor).map k.rank).Nodup := by
    rw [(k.ahead_perm.map k.rank).nodup_iff]
    exact hdistinct.sublist (List.filter_sublist.map _)
  exact (k.ahead_sorted.and (List.pairwise_map.mp hnodup)).imp fun h => lt_of_le_of_ne h.1 h.2

theorem ahead_next {a : α} (hcarries : ∀ r ∈ rows, k.carries r)
    (hdistinct : (rows.map k.rank).Nodup) (hnext : k.next n rows cursor = some a) :
    k.ahead rows (some a) = (k.ahead rows cursor).drop n := by
  obtain ⟨_, q, hlast, _, rfl⟩ := k.next_eq_some hnext
  have hstrict : (k.ahead rows cursor).Pairwise fun a b => k.rank a < k.rank b :=
    k.ahead_strict hdistinct
  have hbehind : ∀ r ∈ (k.ahead rows cursor).drop n, k.after (some (k.rank q)) r := by
    intro r hr
    have hrow := (List.mem_filter.mp (k.ahead_perm.mem_iff.mp (List.mem_of_mem_drop hr))).1
    rw [← k.page_append_drop (n := n)] at hstrict
    have hlt := (List.pairwise_append.mp hstrict).2.2 q (List.mem_of_getLast? hlast) r hr
    simp [after, hcarries r hrow, hlt]
  have hperm := k.ahead_perm.trans (k.filter_after_perm hnext)
  rw [List.filter_eq_self.mpr hbehind] at hperm
  refine hperm.eq_of_pairwise (fun _ _ _ _ hab hba => absurd hab hba.asymm)
    (k.ahead_strict hdistinct) (hstrict.sublist (List.drop_sublist _ _))

theorem page_of_next_none (hcarries : ∀ r ∈ rows, k.carries r) (hn : 0 < n)
    (hnext : k.next n rows cursor = none) :
    k.page n rows cursor = k.ahead rows cursor := by
  rw [page, List.take_eq_self_iff]
  by_contra hlong
  obtain ⟨hlen, q, hlast⟩ := k.page_of_long hn (Nat.le_of_not_le hlong)
  have hrow := (List.mem_filter.mp (k.ahead_perm.mem_iff.mp
    (List.mem_of_mem_take (List.mem_of_getLast? hlast)))).1
  simp [next, hlen, hlast, hcarries q hrow] at hnext

theorem pages_exact (hcarries : ∀ r ∈ rows, k.carries r)
    (hdistinct : (rows.map k.rank).Nodup) (hn : 0 < n) (h : k.pages n rows fuel cursor = some out) :
    out = k.ahead rows cursor := by
  induction fuel generalizing cursor out with
  | zero => cases h
  | succ fuel ih =>
    rw [pages] at h
    split at h
    next hnext =>
      cases h
      exact k.page_of_next_none hcarries hn hnext
    next a hnext =>
      obtain ⟨out', hout', rfl⟩ := Option.map_eq_some_iff.mp h
      rw [ih hout', k.ahead_next hcarries hdistinct hnext, k.page_append_drop]

end KeysetPages
