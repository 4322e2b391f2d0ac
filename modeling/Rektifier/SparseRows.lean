import Rektifier.IndexPages

namespace Rektifier

open List

section

variable {shape : TableShape} {n matching : Nat}

/-- Only items with the index's whole key, and a key to go on from where the limit ended the
page. -/
def PageKeyed (shape : TableShape) (n matching : Nat) (outcome : QueryOutcome) : Prop :=
  (∀ item ∈ outcome.items, carriesKey shape item = true) ∧
    (outcome.scannedCount = n → n < matching → outcome.lastEvaluatedKey ≠ none)

/-- A page is keyed under every filter exactly when every row read carries the key. -/
theorem pageOutcome_keyed_iff (hn : 0 < n) (scanned : List (ShapeRow shape)) :
    (∀ filter : Option (Json → Bool),
      PageKeyed shape n matching (pageOutcome shape filter n (scanned.map ShapeRow.data))) ↔
    ∀ row ∈ scanned, carriesKey shape row.data := by
  constructor
  · intro h row hrow
    refine (h none).1 row.data ?_
    rw [pageOutcome_items]
    simpa using ⟨row, hrow, rfl⟩
  · intro hall filter
    refine ⟨fun item hitem => ?_, fun hfull _ => ?_⟩
    · rw [pageOutcome_items] at hitem
      obtain ⟨row, hrow, rfl⟩ := mem_map.mp (mem_of_mem_filter hitem)
      exact hall row hrow
    · have hlength : scanned.length = n := by simpa [pageOutcome] using hfull
      obtain ⟨row, hlast⟩ : ∃ row, scanned.getLast? = some row := by
        rw [← Option.isSome_iff_exists, List.getLast?_isSome]
        rintro rfl
        simp at hlength
        omega
      have hcarries := hall row (mem_of_getLast? hlast)
      rcases row.lek_cases with ⟨hsparse, _⟩ | ⟨_, pk, b, _, _, ⟨_, _, hlek⟩ | ⟨_, sk, c, _, _, hlek⟩⟩
      · rw [hcarries] at hsparse
        cases hsparse
      · simp [pageOutcome, hlength, hlast, hlek]
      · simp [pageOutcome, hlength, hlast, hlek]

theorem scanRank_ne {x y : ShapeRow shape} (hcarries : carriesKey shape x.data)
    (hsparse : carriesKey shape y.data = false) : scanRank shape x ≠ scanRank shape y := by
  intro heq
  have hcols : (x.pkCol, x.skCol) = (y.pkCol, y.skCol) := heq
  obtain ⟨hpk, hsk⟩ := Prod.mk.inj hcols
  rcases y.lek_cases with ⟨_, _, hnone⟩ | ⟨hyCarries, _⟩
  · rcases x.lek_cases with ⟨hxSparse, _⟩ | ⟨_, _, b, hxPk, _, hxSk⟩
    · rw [hcarries] at hxSparse
      cases hxSparse
    · rcases hnone with hnone | ⟨hshape, hnone⟩
      · rw [hxPk, hnone] at hpk
        cases hpk
      · rcases hxSk with ⟨hhash, _⟩ | ⟨_, _, c, hxSk, _⟩
        · simp [hhash] at hshape
        · rw [hxSk, hnone] at hsk
          cases hsk
  · rw [hyCarries] at hsparse
    cases hsparse

/-- Each sparse row has a full page of rows with the whole key before it. -/
def SparseBehind {α : Type} [LinearOrder α] (rank : ShapeRow shape → α) (n : Nat)
    (rows : List (ShapeRow shape)) : Prop :=
  ∀ row ∈ rows, carriesKey shape row.data = false →
    n ≤ (rows.filter fun r => carriesKey shape r.data && decide (rank r < rank row)).length

instance {α : Type} [LinearOrder α] (rank : ShapeRow shape → α) (n : Nat)
    (rows : List (ShapeRow shape)) : Decidable (SparseBehind rank n rows) :=
  inferInstanceAs (Decidable (∀ row ∈ rows, carriesKey shape row.data = false → n ≤ _))

theorem sparseBehind_of_all {α : Type} [LinearOrder α] {rank : ShapeRow shape → α}
    {rows : List (ShapeRow shape)} (h : ∀ row ∈ rows, carriesKey shape row.data) :
    SparseBehind rank n rows := by
  intro row hrow hsparse
  rw [h row hrow] at hsparse
  cases hsparse

end

section

variable [LinearOrder PgValue] {shape : TableShape} {forward : Bool} {pk : KeyValue}
  {cond : Option SkCondition} {esk : Option (KeyValue × Option KeyValue)}
  {selects : ShapeRow shape → Bool} {rows : List (ShapeRow shape)}

theorem queryWhere_inPartition (h : queryWhere pk cond esk forward = .ok selects)
    {row : ShapeRow shape} (hrow : selects row) : inPartition pk none row := by
  obtain ⟨partition, hpk, h⟩ := Fallible.bind_ok h
  obtain ⟨sort, _, h⟩ := Fallible.bind_ok h
  obtain ⟨start, _, h⟩ := Fallible.bind_ok h
  cases h
  simp only [Bool.and_eq_true, decide_eq_true_eq] at hrow
  simp [inPartition, hpk, hrow.1.1, Except.toOption]

theorem queryRank_ne (h : queryWhere pk cond esk forward = .ok selects) {x y : ShapeRow shape}
    (hx : selects x) (hy : selects y) (hcarries : carriesKey shape x.data)
    (hsparse : carriesKey shape y.data = false) :
    queryRank shape forward x ≠ queryRank shape forward y := by
  rw [carriesKey_iff (queryWhere_inPartition h hx)] at hcarries
  rw [← Bool.not_eq_true, carriesKey_iff (queryWhere_inPartition h hy)] at hsparse
  push Not at hsparse
  intro heq
  have hcol : x.skCol = y.skCol := heq
  exact hcarries hsparse.1 (hcol.trans hsparse.2)

theorem queryRaw_of_where {order : RowSort (queryRank shape forward)} {limit : Option Nat}
    (hwhere : queryWhere pk cond esk forward = .ok selects)
    (hcond : cond.isSome → shape.sk.isSome)
    (hesk : esk.isSome → shape.sk.isSome) (filter : Option (Json → Bool)) :
    queryRaw order rows pk cond limit esk filter = .ok (pageOutcome shape filter
      (limit.getD defaultLimit)
      (((order.sort (rows.filter selects)).take (limit.getD defaultLimit)).map ShapeRow.data)) := by
  have hexpected : ¬ ((cond.isSome && shape.sk.isNone)) := by
    rw [Bool.and_eq_true, Option.isNone_iff_eq_none]
    rintro ⟨hsome, hnone⟩
    simpa [hnone] using hcond hsome
  have hsort : ¬ ((shape.sk.isNone && esk.isSome)) := by
    rw [Bool.and_eq_true, Option.isNone_iff_eq_none]
    rintro ⟨hnone, hsome⟩
    simpa [hnone] using hesk hsome
  rw [queryRaw, if_neg hexpected, if_neg hsort, hwhere]
  rfl

/-- A Query or Scan over an index returns only items that carry its key, and a last key wherever the
limit ended the page, under every filter, if and only if every matching row without the whole key
has a full page of rows with it before it. -/
theorem index_page_keyed_iff (shape : TableShape) :
    (∀ (forward : Bool) (order : RowSort (queryRank shape forward)) (rows : List (ShapeRow shape))
      (pk : KeyValue) (cond : Option SkCondition) (limit : Option Nat)
      (esk : Option (KeyValue × Option KeyValue)) (selects : ShapeRow shape → Bool),
      (cond.isSome = true → shape.sk.isSome = true) → 0 < limit.getD defaultLimit →
      queryWhere pk cond esk forward = .ok selects →
      ((∀ filter, ∃ outcome, queryRaw order rows pk cond limit esk filter = .ok outcome ∧
          PageKeyed shape (limit.getD defaultLimit) (rows.filter selects).length outcome) ↔
        SparseBehind (queryRank shape forward) (limit.getD defaultLimit) (rows.filter selects))) ∧
    (∀ (order : RowSort (scanRank shape)) (rows : List (ShapeRow shape)) (limit : Option Nat)
      (esk : Option (KeyValue × Option KeyValue)) (selects : ShapeRow shape → Bool),
      0 < limit.getD defaultLimit → scanWhere esk = .ok selects →
      ((∀ filter, ∃ outcome, scanRaw order rows filter limit esk = .ok outcome ∧
          PageKeyed shape (limit.getD defaultLimit) (rows.filter selects).length outcome) ↔
        SparseBehind (scanRank shape) (limit.getD defaultLimit) (rows.filter selects))) := by
  constructor
  · intro forward order rows pk cond limit esk selects hcond hlimit hwhere
    have hselected : ∀ x ∈ rows.filter selects, selects x = true :=
      fun x hx => (mem_filter.mp hx).2
    by_cases hesk : esk.isSome = true → shape.sk.isSome = true
    · rw [SparseBehind, ← order.take_all_iff fun x hx y hy hcarries hsparse =>
        queryRank_ne hwhere (hselected x hx) (hselected y hy) hcarries hsparse]
      simp only [queryRaw_of_where hwhere hcond hesk, Except.ok.injEq, exists_eq_left']
      exact pageOutcome_keyed_iff hlimit _
    · -- a hash-only index is taken for a unique one: after a start key nothing is read
      push Not at hesk
      obtain ⟨hsome, hnone⟩ := hesk
      have hall : ∀ row ∈ rows.filter selects, carriesKey shape row.data = true := by
        intro row hrow
        refine (carriesKey_iff (queryWhere_inPartition hwhere (hselected row hrow))).mpr ?_
        exact fun h => absurd h hnone
      refine ⟨fun _ => sparseBehind_of_all hall, fun _ filter => ⟨⟨[], 0, 0, none⟩, ?_, ?_⟩⟩
      · have hexpected : ¬ ((cond.isSome && shape.sk.isNone) = true) := by
          rw [Bool.and_eq_true]
          exact fun h => hnone (hcond h.1)
        rw [queryRaw, if_neg hexpected, if_pos (by simpa [hsome] using hnone)]
      · refine ⟨nofun, fun hzero => ?_⟩
        have hzero : 0 = limit.getD defaultLimit := hzero
        omega
  · intro order rows limit esk selects hlimit hwhere
    rw [SparseBehind, ← order.take_all_iff fun _ _ _ _ hcarries hsparse =>
      scanRank_ne hcarries hsparse]
    have hscan : ∀ filter, scanRaw order rows filter limit esk = .ok (pageOutcome shape filter
        (limit.getD defaultLimit)
        (((order.sort (rows.filter selects)).take (limit.getD defaultLimit)).map
          ShapeRow.data)) := by
      intro filter
      rw [scanRaw, hwhere]
      rfl
    simp only [hscan, Except.ok.injEq, exists_eq_left']
    exact pageOutcome_keyed_iff hlimit _

end

section

attribute [local instance] PgValue.cOrder

/-- Orders by status and the day they were shipped. -/
def shippedShape : TableShape :=
  buildIndexShape statusSchema (some ⟨"by-shipping", some ⟨"status", .s⟩, some ⟨"shipped", .s⟩⟩)

def shippedItem : Json :=
  .obj [("customer", .obj [("S", .str "c1")]), ("placed", .obj [("S", .str "2024")]),
    ("shipped", .obj [("S", .str "2025")]), ("status", .obj [("S", .str "open")])]

def shippedRow : ShapeRow shippedShape :=
  ⟨shippedItem, some (.text "open"), some (.text "2025"), rfl, rfl⟩

def unshippedRow : ShapeRow shippedShape :=
  ⟨orderItem "c2" "2024" "open", some (.text "open"), none, rfl, rfl⟩

theorem index_page_keyed_sample :
    (∀ filter, ∃ outcome, queryRaw (RowSort.stable (queryRank shippedShape true))
        [unshippedRow, shippedRow] (.s "open") none (some 1) none filter = .ok outcome ∧
      PageKeyed shippedShape 1 2 outcome) ∧
    (∀ filter, ∃ outcome, scanRaw (RowSort.stable (scanRank shippedShape))
        [unshippedRow, shippedRow] filter (some 1) none = .ok outcome ∧
      PageKeyed shippedShape 1 2 outcome) := by
  constructor
  · refine ((index_page_keyed_iff shippedShape).1 true _ _ (.s "open") none (some 1) none _ nofun
      Nat.one_pos rfl).mpr ?_
    decide
  · refine ((index_page_keyed_iff shippedShape).2 _ _ (some 1) none _ Nat.one_pos rfl).mpr ?_
    decide

/-- Backwards, the order without shipping day comes first, and with it the page ends for good. -/
theorem sparse_row_ends_paging :
    queryRaw (RowSort.stable (queryRank shippedShape false)) [unshippedRow, shippedRow] (.s "open")
      none (some 1) none none = .ok ⟨[orderItem "c2" "2024" "open"], 1, 1, none⟩ ∧
    carriesKey shippedShape (orderItem "c2" "2024" "open") = false ∧
    carriesKey shippedShape shippedItem = true :=
  ⟨rfl, rfl, rfl⟩

end

end Rektifier
