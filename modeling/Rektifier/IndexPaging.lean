import Rektifier.IndexPages

namespace Rektifier

open List

section

variable [LinearOrder PgValue] {shape : TableShape} {forward : Bool}
  {order : RowSort (queryRank shape forward)} {rows : List (ShapeRow shape)} {pk : KeyValue}
  {cond : Option SkCondition} {limit : Option Nat} {esk : Option (KeyValue × Option KeyValue)}
  {filter : Option (Json → Bool)} {cursor : Option (SortRank forward)}
  {selects : ShapeRow shape → Bool}

/-- `query_raw` from each page's last key, until none is returned. -/
def queryAll (order : RowSort (queryRank shape forward)) (rows : List (ShapeRow shape))
    (pk : KeyValue) (cond : Option SkCondition) (limit : Option Nat)
    (filter : Option (Json → Bool)) :
    Nat → Option (KeyValue × Option KeyValue) → Except BackendError (Option (List Json))
  | 0, _ => .ok none
  | fuel + 1, esk => do
    let outcome ← queryRaw order rows pk cond limit esk filter
    match outcome.lastEvaluatedKey with
    | none => return some outcome.items
    | some key =>
      (queryAll order rows pk cond limit filter fuel (some key)).map
        (Option.map (outcome.items ++ ·))

theorem queryRaw_eq (hwhere : queryWhere pk cond none forward = .ok selects)
    (hshape : cond.isSome → shape.sk.isSome) (hlimit : 0 < limit.getD defaultLimit)
    (hcursor : CursorAt shape forward esk cursor) :
    queryRaw order rows pk cond limit esk filter = .ok (pageOutcome shape filter
      (limit.getD defaultLimit) (((queryPages order).page (limit.getD defaultLimit)
        (rows.filter (inPartition pk cond)) cursor).map ShapeRow.data)) := by
  have hexpected : ¬ ((cond.isSome && shape.sk.isNone)) := by
    rw [Bool.and_eq_true, Option.isNone_iff_eq_none]
    rintro ⟨hcond, hnone⟩
    simpa [hnone] using hshape hcond
  unfold queryRaw
  rw [if_neg hexpected]
  cases hcursor with
  | start =>
    have hall : (rows.filter (inPartition pk cond)).filter ((queryPages order).after none)
        = rows.filter (inPartition pk cond) := filter_eq_self.mpr fun _ _ => rfl
    rw [if_neg (by simp), hwhere, queryWhere_eq hwhere, KeysetPages.page, KeysetPages.ahead, hall]
    rfl
  | hash hnone =>
    have hempty : (rows.filter (inPartition pk cond)).filter
        ((queryPages order).after (some (.of forward none))) = [] := by
      rw [filter_eq_nil_iff]
      intro row _
      have hsk : row.skCol = none := by
        have hcol := row.sk_eq
        rw [skColumn, hnone] at hcol
        exact (Except.ok.inj hcol).symm
      simp [KeysetPages.after, queryPages, queryRank, hsk]
    have hnil : order.sort [] = [] := perm_nil.mp (order.perm [])
    have hne : ¬ (0 = limit.getD defaultLimit) := by omega
    rw [if_pos (by simp [hnone]), KeysetPages.page, KeysetPages.ahead, hempty]
    simp only [queryPages, hnil, take_nil, map_nil, pageOutcome, length_nil,
      if_neg hne]
    cases filter <;> rfl
  | sort hsome hsk =>
    rw [if_neg (by simp [Option.isNone_iff_eq_none, Option.isSome_iff_ne_none.mp hsome]),
      queryWhere_esk hsome hwhere hsk order, KeysetPages.page, KeysetPages.ahead, filter_filter]
    simp only [Bool.and_comm]
    rfl

theorem pageOutcome_next (order : RowSort (queryRank shape forward)) (n : Nat)
    (rows : List (ShapeRow shape)) (cursor : Option (SortRank forward))
    (filter : Option (Json → Bool)) :
    CursorAt shape forward
      (pageOutcome shape filter n (((queryPages order).page n rows cursor).map
        ShapeRow.data)).lastEvaluatedKey
      ((queryPages order).next n rows cursor) := by
  unfold KeysetPages.next
  simp only [pageOutcome, length_map, List.getLast?_map]
  split
  · rcases hlast : ((queryPages order).page n rows cursor).getLast? with _ | row
    · exact .start
    · rcases row.lek_cases with ⟨hcarries, hlek, _⟩ |
          ⟨hcarries, key, b, _, _, ⟨hnone, hsk, hlek⟩ | ⟨hsome, sk, c, hsk, hpg, hlek⟩⟩
      · simp only [Option.map_some, Option.bind_some, hlek, queryPages, hcarries]
        exact .start
      · simp only [Option.map_some, Option.bind_some, hlek, queryPages, hcarries, if_true,
          queryRank, hsk]
        exact .hash hnone
      · simp only [Option.map_some, Option.bind_some, hlek, queryPages, hcarries, if_true,
          queryRank, hsk]
        exact .sort hsome hpg
  · exact .start

theorem queryAll_eq (hwhere : queryWhere pk cond none forward = .ok selects)
    (hshape : cond.isSome → shape.sk.isSome) (hlimit : 0 < limit.getD defaultLimit)
    (fuel : Nat) (hcursor : CursorAt shape forward esk cursor) :
    queryAll order rows pk cond limit filter fuel esk = .ok (((queryPages order).pages
      (limit.getD defaultLimit) (rows.filter (inPartition pk cond)) fuel cursor).map fun out =>
        (out.map ShapeRow.data).filter fun data => filter.all fun f => f data) := by
  induction fuel generalizing esk cursor with
  | zero => rfl
  | succ fuel ih =>
    have hnext := pageOutcome_next order (limit.getD defaultLimit)
      (rows.filter (inPartition pk cond)) cursor filter
    rw [queryAll, queryRaw_eq hwhere hshape hlimit hcursor, KeysetPages.pages]
    simp only [bind, Except.bind, pageOutcome_items]
    generalize (pageOutcome shape filter _ _).lastEvaluatedKey = lek at hnext ⊢
    rcases hpage : (queryPages order).next (limit.getD defaultLimit)
        (rows.filter (inPartition pk cond)) cursor with _ | a
    · rw [hpage] at hnext
      cases hnext
      rfl
    · rw [hpage] at hnext
      obtain ⟨key, rfl⟩ : ∃ key, lek = some key := by
        cases hnext
        · exact ⟨_, rfl⟩
        · exact ⟨_, rfl⟩
      simp only [ih hnext, Except.map, Option.map_map]
      congr 2
      funext out
      simp

theorem sparseApart_inPartition :
    (queryPages order).SparseApart (rows.filter (inPartition pk cond)) := by
  have hcolumns : ∀ x ∈ rows.filter (inPartition pk cond), ∀ y ∈ rows.filter (inPartition pk cond),
      carriesKey shape x.data → carriesKey shape y.data = false →
      ∃ b, x.skCol = some b ∧ y.skCol = none := by
    intro x hx y hy hcarries hsparse
    have hxIn := (mem_filter.mp hx).2
    have hyIn := (mem_filter.mp hy).2
    rw [← Bool.not_eq_true, carriesKey_iff hyIn] at hsparse
    push Not at hsparse
    have hsome := (carriesKey_iff hxIn).mp hcarries hsparse.1
    obtain ⟨b, hb⟩ := Option.ne_none_iff_exists'.mp hsome
    exact ⟨b, hb, hsparse.2⟩
  cases forward with
  | true =>
    refine .inl fun x hx y hy hcarries hsparse => ?_
    obtain ⟨b, hxCol, hyCol⟩ := hcolumns x hx y hy hcarries hsparse
    simp only [queryPages, queryRank, hxCol, hyCol]
    exact sortRank_lt_none b
  | false =>
    refine .inr fun x hx y hy hcarries hsparse => ?_
    obtain ⟨b, hxCol, hyCol⟩ := hcolumns x hx y hy hcarries hsparse
    simp only [queryPages, queryRank, hxCol, hyCol]
    exact sortRank_none_lt b

/-- Paging through an index ends and, whatever the filter, returns every matching row with the
index's key exactly once, if and only if no page ends between rows of one sort value, or at a row
without one that others with it follow. -/
theorem index_paging_complete_iff (hwhere : queryWhere pk cond none forward = .ok selects)
    (hshape : cond.isSome = true → shape.sk.isSome = true)
    (hlimit : 0 < limit.getD defaultLimit) :
    (∀ filter : Option (Json → Bool), ∃ fuel items,
      queryAll order rows pk cond limit filter fuel none = .ok (some items) ∧
      (items.filter (carriesKey shape)).Perm
        (((rows.filter (inPartition pk cond)).map ShapeRow.data).filter fun data =>
          carriesKey shape data && filter.all fun f => f data)) ↔
    (queryPages order).Unsplit (limit.getD defaultLimit)
      (order.sort (rows.filter (inPartition pk cond))) := by
  have hall : (rows.filter (inPartition pk cond)).filter ((queryPages order).after none)
      = rows.filter (inPartition pk cond) := filter_eq_self.mpr fun _ _ => rfl
  -- rows and their data are the same, and so are the rows that carry the key
  have hdata : ∀ l : List (ShapeRow shape), (l.map ShapeRow.data).filter (carriesKey shape)
      = (l.filter (queryPages order).carries).map ShapeRow.data := fun l => filter_map
  have hcomplete : ∀ {fuel : Nat} {out : List (ShapeRow shape)},
      (queryPages order).pages (limit.getD defaultLimit) (rows.filter (inPartition pk cond)) fuel
        none = some out →
      (((out.map ShapeRow.data).filter (carriesKey shape)).Perm
        (((rows.filter (inPartition pk cond)).map ShapeRow.data).filter (carriesKey shape)) ↔
      (queryPages order).Unsplit (limit.getD defaultLimit)
        (order.sort (rows.filter (inPartition pk cond)))) := by
    intro fuel out hpages
    have hiff := (queryPages order).pages_complete_iff hlimit sparseApart_inPartition hpages
    rw [KeysetPages.ahead, hall] at hiff
    rw [hdata, hdata, map_perm_map_iff ShapeRow.data_injective]
    exact hiff
  constructor
  · intro h
    obtain ⟨fuel, items, hitems, hperm⟩ := h none
    rw [queryAll_eq hwhere hshape hlimit fuel .start] at hitems
    obtain ⟨out, hout, rfl⟩ := Option.map_eq_some_iff.mp (Except.ok.inj hitems)
    refine (hcomplete hout).mp ?_
    simpa using hperm
  · intro h filter
    obtain ⟨fuel, out, hout⟩ : ∃ fuel out, (queryPages order).pages (limit.getD defaultLimit)
        (rows.filter (inPartition pk cond)) fuel none = some out :=
      ⟨_, (queryPages order).pages_ends hlimit (Nat.lt_succ_self _)⟩
    refine ⟨fuel, (out.map ShapeRow.data).filter fun data => filter.all fun f => f data, ?_, ?_⟩
    · rw [queryAll_eq hwhere hshape hlimit fuel .start, hout]
      rfl
    · have hperm := ((hcomplete hout).mpr h).filter fun data => filter.all fun f => f data
      rw [filter_filter, filter_filter] at hperm
      rw [filter_filter]
      simpa only [Bool.and_comm] using hperm

end

section

attribute [local instance] PgValue.cOrder

def openOrder (customer placed : String) : ShapeRow (buildIndexShape statusSchema statusIndex) :=
  ⟨orderItem customer placed "open", some (.text "open"), some (.text placed), rfl, rfl⟩

def openOrders : List (ShapeRow (buildIndexShape statusSchema statusIndex)) :=
  [openOrder "c1" "2024", openOrder "c2" "2025"]

theorem index_paging_complete_sample :
    openOrders.filter (inPartition (.s "open") none) = openOrders ∧
    ∀ filter : Option (Json → Bool), ∃ fuel items,
    queryAll (RowSort.stable (queryRank _ true)) openOrders (.s "open") none (some 1) filter fuel
      none = .ok (some items) ∧
    (items.filter (carriesKey (buildIndexShape statusSchema statusIndex))).Perm
      (((openOrders.filter (inPartition (.s "open") none)).map ShapeRow.data).filter fun data =>
        carriesKey (buildIndexShape statusSchema statusIndex) data &&
          filter.all fun f => f data) := by
  refine ⟨rfl, Iff.mpr (index_paging_complete_iff rfl ?_ Nat.one_pos) ?_⟩
  · nofun
  · intro j q hq r hr hcarries
    rcases j with _ | _ | j
    · cases hq
      rw [mem_singleton.mp hr]
      exact ⟨rfl, by decide⟩
    · cases hr
    · cases hr

/-- Of two orders placed at the same time the second is never returned. -/
theorem tied_order_lost :
    queryAll (RowSort.stable (queryRank _ true)) [openOrder "c1" "2024", openOrder "c2" "2024"]
      (.s "open") none (some 1) none 3 none = .ok (some [orderItem "c1" "2024" "open"]) ∧
    inPartition (.s "open") none (openOrder "c2" "2024") = true ∧
    carriesKey (buildIndexShape statusSchema statusIndex) (orderItem "c2" "2024" "open") = true :=
  ⟨rfl, rfl, rfl⟩

end

end Rektifier
