import Rektifier.IndexPaging

namespace Rektifier

open List

variable {shape : TableShape} {filter : Option (Json → Bool)}

/-- Called again with each page's last key, until none is returned. -/
def callAll (call : Option (KeyValue × Option KeyValue) → Except BackendError QueryOutcome) :
    Nat → Option (KeyValue × Option KeyValue) → Except BackendError (Option (List QueryOutcome))
  | 0, _ => .ok none
  | fuel + 1, esk => do
    let outcome ← call esk
    match outcome.lastEvaluatedKey with
    | none => return some [outcome]
    | some key => (callAll call fuel (some key)).map (Option.map (outcome :: ·))

/-- All matching rows in strict order of rank, filtered, and each counted. -/
def AllRows {α : Type*} [LT α] (rank : ShapeRow shape → α) (matching : List (ShapeRow shape))
    (filter : Option (Json → Bool)) (outcomes : List QueryOutcome) : Prop :=
  (∃ sorted : List (ShapeRow shape), sorted.Perm matching ∧
    sorted.Pairwise (fun a b => rank a < rank b) ∧
    outcomes.flatMap QueryOutcome.items =
      (sorted.map ShapeRow.data).filter fun data => filter.all fun f => f data) ∧
  (outcomes.map QueryOutcome.scannedCount).sum = matching.length

section Calls

variable {α : Type*} [LinearOrder α] {k : KeysetPages (ShapeRow shape) α} {n : Nat}
  {rows : List (ShapeRow shape)}
  {call : Option (KeyValue × Option KeyValue) → Except BackendError QueryOutcome}
  {C : Option (KeyValue × Option KeyValue) → Option α → Prop}

def pageResult (shape : TableShape) (filter : Option (Json → Bool)) (n : Nat)
    (page : List (ShapeRow shape)) : QueryOutcome :=
  pageOutcome shape filter n (page.map ShapeRow.data)

theorem pageResult_items (page : List (ShapeRow shape)) :
    (pageResult shape filter n page).items =
      (page.map ShapeRow.data).filter fun data => filter.all fun f => f data := pageOutcome_items

variable (hcall : ∀ esk cursor, C esk cursor →
    call esk = .ok (pageResult shape filter n (k.page n rows cursor)))
  (hnext : ∀ cursor, C (pageResult shape filter n (k.page n rows cursor)).lastEvaluatedKey
    (k.next n rows cursor))
  (hnone : ∀ esk cursor, C esk cursor → (esk = none ↔ cursor = none))

include hcall hnext hnone

/-- Calls that read the page at their start key read page after page. -/
theorem callAll_eq (fuel : Nat) {esk : Option (KeyValue × Option KeyValue)} {cursor : Option α}
    (hat : C esk cursor) :
    callAll call fuel esk =
      .ok ((k.pageList n rows fuel cursor).map (List.map (pageResult shape filter n))) := by
  induction fuel generalizing esk cursor with
  | zero => rfl
  | succ fuel ih =>
    have hafter := hnext cursor
    have hend := hnone _ _ hafter
    rw [callAll, hcall esk cursor hat, KeysetPages.pageList, Fallible.ok_bind]
    cases hlek : (pageResult shape filter n (k.page n rows cursor)).lastEvaluatedKey with
    | none =>
      rw [hend.mp hlek]
      rfl
    | some key =>
      cases hcursor : k.next n rows cursor with
      | none =>
        rw [hend.mpr hcursor] at hlek
        cases hlek
      | some a =>
        rw [hlek, hcursor] at hafter
        simp only [ih hafter, Except.map, Option.map_map]
        rfl

theorem callAll_complete (hn : 0 < n) (hcarries : ∀ r ∈ rows, k.carries r)
    (hdistinct : (rows.map k.rank).Nodup) (hstart : C none none) :
    ∃ fuel outcomes, callAll call fuel none = .ok (some outcomes) ∧
      AllRows k.rank rows filter outcomes := by
  obtain ⟨fuel, out, hout⟩ : ∃ fuel out, k.pages n rows fuel none = some out :=
    ⟨_, k.pages_ends hn (Nat.lt_succ_self _)⟩
  have hahead : out = k.ahead rows none := k.pages_exact hcarries hdistinct hn hout
  rw [k.pages_eq_flatten] at hout
  obtain ⟨pages, hpages, rfl⟩ := Option.map_eq_some_iff.mp hout
  have hall : rows.filter (k.after none) = rows := filter_eq_self.mpr fun _ _ => rfl
  have hperm : pages.flatten.Perm rows := by
    have hsorted : (k.ahead rows none).Perm (rows.filter (k.after none)) := k.ahead_perm
    rwa [hall, ← hahead] at hsorted
  refine ⟨fuel, pages.map (pageResult shape filter n), ?_, ⟨pages.flatten, hperm, ?_, ?_⟩, ?_⟩
  · rw [callAll_eq hcall hnext hnone fuel hstart, hpages]
    rfl
  · rw [hahead]
    exact k.ahead_strict hdistinct
  · rw [flatMap_map]
    simp only [pageResult_items]
    rw [map_flatten, filter_flatten, flatMap_def, map_map]
    rfl
  · have hcount : QueryOutcome.scannedCount ∘ pageResult shape filter n = List.length := by
      funext page
      simp [pageResult, pageOutcome]
    rw [← hperm.length_eq, map_map, hcount, length_flatten]

end Calls

/-- Every row has its key, no two the same. -/
structure KeyedRows (shape : TableShape) (rows : List (ShapeRow shape)) : Prop where
  carries : ∀ row ∈ rows, carriesKey shape row.data = true
  unique : (rows.map fun row => (row.pkCol, row.skCol)).Nodup

theorem CursorAt.none_iff {forward : Bool} {esk : Option (KeyValue × Option KeyValue)}
    {cursor : Option (SortRank forward)} (h : CursorAt shape forward esk cursor) :
    esk = none ↔ cursor = none := by
  cases h <;> simp

def keyRank (pk sk : Option PgValue) : WithTop PgValue ×ₗ WithTop PgValue := toLex (pk, sk)

inductive ScanCursorAt (shape : TableShape) : Option (KeyValue × Option KeyValue) →
    Option (WithTop PgValue ×ₗ WithTop PgValue) → Prop
  | start : ScanCursorAt shape none none
  | hash {pk : KeyValue} {a : PgValue} : shape.sk = none → pk.pg = .ok a →
      ScanCursorAt shape (some (pk, none)) (some (keyRank (some a) none))
  | sort {pk sk : KeyValue} {a b : PgValue} : shape.sk.isSome = true → pk.pg = .ok a →
      sk.pg = .ok b → ScanCursorAt shape (some (pk, some sk)) (some (keyRank (some a) (some b)))

theorem ScanCursorAt.none_iff {esk : Option (KeyValue × Option KeyValue)}
    {cursor : Option (WithTop PgValue ×ₗ WithTop PgValue)} (h : ScanCursorAt shape esk cursor) :
    esk = none ↔ cursor = none := by
  cases h <;> simp

/-- Both columns, or the one of a hash-only table. -/
theorem columns_of_carriesKey {row : ShapeRow shape} (h : carriesKey shape row.data) :
    ∃ x, row.pkCol = some x ∧ (shape.sk = none ∧ row.skCol = none ∨
      shape.sk.isSome ∧ ∃ y, row.skCol = some y) := by
  rcases row.lek_cases with ⟨hnot, _⟩ | ⟨_, _, x, hpk, _, ⟨hnone, hsk, _⟩ | ⟨hsome, _, y, hsk, _⟩⟩
  · rw [h] at hnot
    cases hnot
  · exact ⟨x, hpk, .inl ⟨hnone, hsk⟩⟩
  · exact ⟨x, hpk, .inr ⟨hsome, y, hsk⟩⟩

section Reads

variable [LinearOrder PgValue] {forward : Bool} {rows : List (ShapeRow shape)} {pk : KeyValue}
  {cond : Option SkCondition} {limit : Option Nat}
variable {esk : Option (KeyValue × Option KeyValue)}
  {cursor : Option (WithTop PgValue ×ₗ WithTop PgValue)}

theorem inPartition_pkCol {row row' : ShapeRow shape} (h : inPartition pk cond row)
    (h' : inPartition pk cond row') : row.pkCol = row'.pkCol := by
  unfold inPartition at h h'
  cases hpk : pk.pg.toOption with
  | none => simp [hpk] at h
  | some b =>
    simp only [hpk, Option.any_some, Bool.and_eq_true, decide_eq_true_eq] at h h'
    rw [h.1, h'.1]

theorem KeyedRows.queryRank_nodup (h : KeyedRows shape rows) :
    ((rows.filter (inPartition pk cond)).map (queryRank shape forward)).Nodup := by
  have hkeys : ((rows.filter (inPartition pk cond)).map
      fun row => (row.pkCol, row.skCol)).Nodup :=
    h.unique.sublist (filter_sublist.map _)
  refine List.Nodup.map_on ?_ (List.Nodup.of_map _ hkeys)
  intro row hrow row' hrow' hrank
  have hpk := inPartition_pkCol (mem_filter.mp hrow).2 (mem_filter.mp hrow').2
  have hsk : row.skCol = row'.skCol := hrank
  exact inj_on_of_nodup_map hkeys hrow hrow' (Prod.ext hpk hsk)

/-- Paging in the order of the primary key. -/
def scanPages (order : RowSort (scanRank shape)) :
    KeysetPages (ShapeRow shape) (WithTop PgValue ×ₗ WithTop PgValue) :=
  ⟨scanRank shape, fun row => carriesKey shape row.data, order⟩

theorem keyRank_hash_lt_iff {a x : PgValue} :
    keyRank (some a) none < keyRank (some x) none ↔ a < x := by
  refine Prod.Lex.toLex_lt_toLex.trans ((or_iff_left ?_).trans WithTop.coe_lt_coe)
  rintro ⟨_, hlt⟩
  exact lt_irrefl _ hlt

theorem keyRank_lt_iff {a x b y : PgValue} :
    keyRank (some a) (some b) < keyRank (some x) (some y) ↔ a < x ∨ a = x ∧ b < y := by
  refine Prod.Lex.toLex_lt_toLex.trans (or_congr WithTop.coe_lt_coe (and_congr ?_ WithTop.coe_lt_coe))
  exact WithTop.coe_inj

/-- The row comparison of Scan selects the rows behind the start key. -/
theorem scanWhere_eq (order : RowSort (scanRank shape)) (hcursor : ScanCursorAt shape esk cursor) :
    ∃ selects : ShapeRow shape → Bool, scanWhere esk = .ok selects ∧
      ∀ row : ShapeRow shape, carriesKey shape row.data →
        selects row = (scanPages order).after cursor row := by
  cases hcursor with
  | start => exact ⟨fun _ => true, rfl, fun _ _ => rfl⟩
  | @hash pk a hnone hpk =>
    refine ⟨fun row => row.pkCol.any (a < ·), ?_, fun row hcarries => ?_⟩
    · simp only [scanWhere, hnone, hpk, Except.map]
    · obtain ⟨x, hx, ⟨_, hy⟩ | ⟨hsome, _⟩⟩ := columns_of_carriesKey hcarries
      · have hrank : scanRank shape row = keyRank (some x) none := by rw [← hx, ← hy]; rfl
        rw [Bool.eq_iff_iff]
        simp only [KeysetPages.after, scanPages, hcarries, hrank, hx, keyRank_hash_lt_iff,
          Bool.true_and, decide_eq_true_eq, Option.any_some]
      · rw [hnone] at hsome
        cases hsome
  | @sort pk sk a b hsome hpk hsk =>
    obtain ⟨sortKey, hshape⟩ := Option.isSome_iff_exists.mp hsome
    refine ⟨fun row => row.pkCol.any fun x => a < x || (x = a && row.skCol.any (b < ·)), ?_,
      fun row hcarries => ?_⟩
    · simp only [scanWhere, hshape, hpk, hsk, bind, Except.bind, pure, Except.pure]
    · obtain ⟨x, hx, ⟨hnone, _⟩ | ⟨_, y, hy⟩⟩ := columns_of_carriesKey hcarries
      · rw [hnone] at hshape
        cases hshape
      · have hrank : scanRank shape row = keyRank (some x) (some y) := by rw [← hx, ← hy]; rfl
        rw [Bool.eq_iff_iff]
        simp only [KeysetPages.after, scanPages, hcarries, hrank, hx, hy, keyRank_lt_iff,
          Bool.true_and, decide_eq_true_eq, Option.any_some, Bool.or_eq_true, Bool.and_eq_true,
          @eq_comm _ x a]

theorem scanRaw_eq (order : RowSort (scanRank shape)) (h : KeyedRows shape rows)
    (hcursor : ScanCursorAt shape esk cursor) :
    scanRaw order rows filter limit esk = .ok (pageResult shape filter (limit.getD defaultLimit)
      ((scanPages order).page (limit.getD defaultLimit) rows cursor)) := by
  obtain ⟨selects, hwhere, hselects⟩ := scanWhere_eq order hcursor
  have hrows : rows.filter selects = rows.filter ((scanPages order).after cursor) :=
    filter_congr fun row hrow => hselects row (h.carries row hrow)
  rw [scanRaw, hwhere, KeysetPages.page, KeysetPages.ahead, ← hrows]
  rfl

theorem scanResult_next (order : RowSort (scanRank shape)) (n : Nat)
    (cursor : Option (WithTop PgValue ×ₗ WithTop PgValue)) :
    ScanCursorAt shape
      (pageResult shape filter n ((scanPages order).page n rows cursor)).lastEvaluatedKey
      ((scanPages order).next n rows cursor) := by
  unfold KeysetPages.next
  simp only [pageResult, pageOutcome, length_map, List.getLast?_map]
  split
  · rcases hlast : ((scanPages order).page n rows cursor).getLast? with _ | row
    · exact .start
    · rcases row.lek_cases with ⟨hcarries, hlek, _⟩ | ⟨hcarries, key, a, hpk, hpg,
          ⟨hnone, hsk, hlek⟩ | ⟨hsome, sk, b, hsk, hskPg, hlek⟩⟩
      · simp only [Option.map_some, Option.bind_some, hlek, scanPages, hcarries]
        exact .start
      · simp only [Option.map_some, Option.bind_some, hlek, scanPages, hcarries, if_true,
          scanRank, hpk, hsk]
        exact .hash hnone hpg
      · simp only [Option.map_some, Option.bind_some, hlek, scanPages, hcarries, if_true,
          scanRank, hpk, hsk]
        exact .sort hsome hpg hskPg
  · exact .start

end Reads

section

attribute [local instance] PgValue.cOrder

/-- A customer's orders by the time they were placed. -/
def placedShape : TableShape := ⟨"rekt_t_orders", "customer", .s, some ("placed", .s), "data", [], .plain⟩

def placedOrder (customer placed : String) : ShapeRow placedShape :=
  ⟨orderItem customer placed "open", some (.text customer), some (.text placed), rfl, rfl⟩

def placedOrders : List (ShapeRow placedShape) :=
  [placedOrder "c2" "2023", placedOrder "c1" "2025", placedOrder "c1" "2024"]

theorem placedOrders_keyed : KeyedRows placedShape placedOrders :=
  ⟨by decide, by decide⟩

example : (callAll (fun esk => queryRaw (RowSort.stable (queryRank placedShape false)) placedOrders
    (.s "c1") none (some 1) esk none) 3 none).map (Option.map (List.map QueryOutcome.items)) =
    .ok (some [[orderItem "c1" "2025" "open"], [orderItem "c1" "2024" "open"], []]) := rfl

end

end Rektifier
