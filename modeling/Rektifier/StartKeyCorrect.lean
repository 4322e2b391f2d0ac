import Rektifier.IndexRows
import Rektifier.StartKeyRoundTrip

namespace Rektifier

open Fallible List

variable {req : QueryRequest} {plan : QueryPlan} {cond : Option SkCondition}
  {schema eff : TableSchema} {shape : TableShape} {idx : Option IndexSort}
  {key : KeyValue × Option KeyValue}

/-- The same request with the cursor decoded. -/
theorem translateQuery_restart
    (hplan : translateQuery req schema = .ok plan)
    (heff : resolveIndexForQuery schema req.indexName = .ok (eff, idx)) (esk : Item) :
    plan.indexSort = idx ∧ translateQuery { req with exclusiveStartKey := some esk } schema
      = (decodeEsk esk eff plan.pk).map fun sk => { plan with eskSk := sk } := by
  obtain ⟨cond, hcond, hplan⟩ := bind_ok hplan
  rw [heff] at hplan
  obtain ⟨_, hsame, hplan⟩ := bind_ok hplan
  cases hsame
  obtain ⟨bounds, hbounds, hplan⟩ := bind_ok hplan
  obtain ⟨limit, hlimit, hplan⟩ := bind_ok hplan
  obtain ⟨eskSk, _, hplan⟩ := bind_ok hplan
  obtain ⟨filter, hfilter, hplan⟩ := bind_ok hplan
  obtain ⟨⟨count, projection⟩, hselect, hplan⟩ := bind_ok hplan
  cases hplan
  refine ⟨rfl, ?_⟩
  simp only [translateQuery, hcond, heff, hbounds, hlimit, hfilter, hselect, queryEsk, bind,
    Except.bind, pure, Except.pure]
  cases decodeEsk esk eff bounds.pk <;> rfl

theorem translateScan_restart {req : ScanRequest} {plan : ScanPlan}
    (hplan : translateScan req schema = .ok plan)
    (heff : resolveIndexForQuery schema req.indexName = .ok (eff, idx)) (esk : Item) :
    plan.indexSort = idx ∧ translateScan { req with exclusiveStartKey := some esk } schema
      = (decodeScanEsk esk eff).map fun key => { plan with esk := some key } := by
  obtain ⟨_, hsegments, hplan⟩ := bind_ok hplan
  rw [heff] at hplan
  obtain ⟨_, hsame, hplan⟩ := bind_ok hplan
  cases hsame
  obtain ⟨limit, hlimit, hplan⟩ := bind_ok hplan
  obtain ⟨_, _, hplan⟩ := bind_ok hplan
  obtain ⟨filter, hfilter, hplan⟩ := bind_ok hplan
  obtain ⟨⟨count, projection⟩, hselect, hplan⟩ := bind_ok hplan
  cases hplan
  refine ⟨rfl, ?_⟩
  have hsegments' : checkNoSegments { req with exclusiveStartKey := some esk } = .ok () := hsegments
  simp only [translateScan, hsegments', heff, hlimit, hfilter, hselect, scanEsk, bind, Except.bind,
    pure, Except.pure]
  cases decodeScanEsk esk eff <;> rfl

theorem translateQuery_index
    (hplan : translateQuery req schema = .ok plan) :
    ∃ eff, resolveIndexForQuery schema req.indexName = .ok (eff, plan.indexSort) := by
  obtain ⟨_, _, hrest⟩ := bind_ok hplan
  obtain ⟨⟨eff, idx⟩, heff, _⟩ := bind_ok hrest
  obtain ⟨hidx, _⟩ := translateQuery_restart hplan heff OrderedMap.empty
  rw [hidx]
  exact ⟨eff, heff⟩

theorem translateScan_index {req : ScanRequest} {plan : ScanPlan}
    (hplan : translateScan req schema = .ok plan) :
    ∃ eff, resolveIndexForQuery schema req.indexName = .ok (eff, plan.indexSort) := by
  obtain ⟨_, _, hrest⟩ := bind_ok hplan
  obtain ⟨⟨eff, idx⟩, heff, _⟩ := bind_ok hrest
  obtain ⟨hidx, _⟩ := translateScan_restart hplan heff OrderedMap.empty
  rw [hidx]
  exact ⟨eff, heff⟩

/-- The request with the item as start key continues from the cursor. -/
def QueryRestarts (schema : TableSchema) (req : QueryRequest) (lek : Item)
    (key : KeyValue × Option KeyValue) : Prop :=
  ∃ plan, translateQuery { req with exclusiveStartKey := some lek } schema = .ok plan ∧
    plan.eskPair { req with exclusiveStartKey := some lek } = some key

def ScanRestarts (schema : TableSchema) (req : ScanRequest) (lek : Item)
    (key : KeyValue × Option KeyValue) : Prop :=
  ∃ plan, translateScan { req with exclusiveStartKey := some lek } schema = .ok plan ∧
    plan.esk = some key

theorem queryRestarts_iff
    (hplan : translateQuery req schema = .ok plan)
    (heff : resolveIndexForQuery schema req.indexName = .ok (eff, idx)) (lek : Item) :
    QueryRestarts schema req lek key ↔ decodeScanEsk lek eff = .ok key ∧ key.1 = plan.pk := by
  obtain ⟨pk, sk⟩ := key
  obtain ⟨_, hrestart⟩ := translateQuery_restart hplan heff lek
  have hpair : ∀ sk', QueryPlan.eskPair { plan with eskSk := sk' }
      { req with exclusiveStartKey := some lek } = some (plan.pk, sk') := by
    intro sk'
    cases sk' <;> rfl
  unfold QueryRestarts
  rw [hrestart]
  simp only [map_ok_iff, decodeEsk_ok_iff]
  constructor
  · rintro ⟨_, ⟨sk', hdecode, rfl⟩, hkey⟩
    rw [hpair] at hkey
    cases hkey
    exact ⟨hdecode, rfl⟩
  · rintro ⟨hdecode, rfl⟩
    exact ⟨_, ⟨sk, hdecode, rfl⟩, hpair sk⟩

theorem scanRestarts_iff {req : ScanRequest} {plan : ScanPlan}
    (hplan : translateScan req schema = .ok plan)
    (heff : resolveIndexForQuery schema req.indexName = .ok (eff, idx)) (lek : Item) :
    ScanRestarts schema req lek key ↔ decodeScanEsk lek eff = .ok key := by
  obtain ⟨_, hrestart⟩ := translateScan_restart hplan heff lek
  unfold ScanRestarts
  rw [hrestart]
  simp only [map_ok_iff]
  constructor
  · rintro ⟨_, ⟨key', hdecode, rfl⟩, hkey⟩
    cases hkey
    exact hdecode
  · intro hdecode
    exact ⟨_, ⟨key, hdecode, rfl⟩, rfl⟩

variable {outcome : QueryOutcome} {rows : List (ShapeRow shape)} {limit : Option Nat}
  {esk : Option (KeyValue × Option KeyValue)} {filter : Option (Json → Bool)}

theorem pageOutcome_lek_mem {scanned : List (ShapeRow shape)} {n : Nat}
    (h : (pageOutcome shape filter n (scanned.map ShapeRow.data)).lastEvaluatedKey = some key) :
    ∃ row ∈ scanned, lekFromRow row.data shape = some key := by
  obtain ⟨_, hmem, hkey⟩ := pageOutcome_lek h
  obtain ⟨row, hrow, rfl⟩ := mem_map.mp hmem
  exact ⟨row, hrow, hkey⟩

theorem KeyValue.pg_numeric {v : String} {x : PgValue} (h : KeyValue.pg (.n v) = .ok x) :
    ∃ q, x = .numeric q := by
  obtain ⟨q, _, heq⟩ := map_ok_iff.mp h
  exact ⟨q, heq.symm⟩

/-- Text and bytes have one spelling. -/
theorem KeyValue.pg_inj {a b : KeyValue} {x : PgValue} (ha : a.pg = .ok x) (hb : b.pg = .ok x)
    (htype : ∀ v, a ≠ .n v) : a = b := by
  cases b with
  | n w =>
    obtain ⟨q, rfl⟩ := KeyValue.pg_numeric hb
    cases a with
    | n v => exact absurd rfl (htype v)
    | s | b => cases ha
  | s w =>
    cases hb
    cases a with
    | n v => exact absurd rfl (htype v)
    | s v => cases ha; rfl
    | b v => cases ha
  | b w =>
    cases hb
    cases a with
    | n v => exact absurd rfl (htype v)
    | s v => cases ha
    | b v => cases ha; rfl

theorem lekFromRow_pkCol {row : ShapeRow shape} (h : lekFromRow row.data shape = some key) :
    ∃ x, row.pkCol = some x ∧ key.1.pg = .ok x := by
  rcases row.lek_cases with ⟨_, hnone, _⟩ | ⟨_, pk, x, hcol, hpg, ⟨_, _, hsome⟩ | ⟨_, _, _, _, _, hsome⟩⟩
  · cases hnone.symm.trans h
  · cases hsome.symm.trans h
    exact ⟨x, hcol, hpg⟩
  · cases hsome.symm.trans h
    exact ⟨x, hcol, hpg⟩

section

variable [LinearOrder PgValue]

theorem queryWhere_pkCol {forward : Bool} {pk : KeyValue}
    {selects : ShapeRow shape → Bool} (h : queryWhere pk cond esk forward = .ok selects)
    {row : ShapeRow shape} (hrow : selects row) :
    ∃ x, pk.pg = .ok x ∧ row.pkCol = some x := by
  obtain ⟨x, hpk, h⟩ := bind_ok h
  obtain ⟨_, _, h⟩ := bind_ok h
  obtain ⟨_, _, h⟩ := bind_ok h
  cases h
  simp only [Bool.and_eq_true, decide_eq_true_eq] at hrow
  exact ⟨x, hpk, hrow.1.1⟩

theorem queryRaw_lek {forward : Bool} {order : RowSort (queryRank shape forward)} {pk : KeyValue}
    (h : queryRaw order rows pk cond limit esk filter = .ok outcome)
    (hlek : outcome.lastEvaluatedKey = some key) :
    (∃ row ∈ rows, lekFromRow row.data shape = some key) ∧ ((∀ v, key.1 ≠ .n v) → key.1 = pk) := by
  unfold queryRaw at h
  split at h
  · cases h
  · split at h
    · cases h
      cases hlek
    · obtain ⟨selects, hwhere, rfl⟩ := map_ok_iff.mp h
      obtain ⟨row, hrow, hrowKey⟩ := pageOutcome_lek_mem hlek
      have hmem := (order.perm _).mem_iff.mp (mem_of_mem_take hrow)
      obtain ⟨hmem, hselected⟩ := mem_filter.mp hmem
      refine ⟨⟨row, hmem, hrowKey⟩, fun htype => ?_⟩
      obtain ⟨x, hpk, hcol⟩ := queryWhere_pkCol (pgResult_ok hwhere) hselected
      obtain ⟨y, hcol', hkey⟩ := lekFromRow_pkCol hrowKey
      cases hcol.symm.trans hcol'
      exact KeyValue.pg_inj hkey hpk htype

theorem scanRaw_lek {order : RowSort (scanRank shape)}
    (h : scanRaw order rows filter limit esk = .ok outcome)
    (hlek : outcome.lastEvaluatedKey = some key) :
    ∃ row ∈ rows, lekFromRow row.data shape = some key := by
  obtain ⟨selects, _, rfl⟩ := map_ok_iff.mp h
  obtain ⟨row, hrow, hrowKey⟩ := pageOutcome_lek_mem hlek
  have hmem := (order.perm _).mem_iff.mp (mem_of_mem_take hrow)
  exact ⟨row, mem_of_mem_filter hmem, hrowKey⟩

/-- Where a response carries a LastEvaluatedKey, it continues the request from the cursor storage
reported, that of a stored row, exactly when the index's key attributes have the base table's names
and, for a Query, the row has its partition value in the request's own text, as all but numbers
have. -/
theorem last_key_restarts_iff (schema : TableSchema) :
    (∀ (req : QueryRequest) (plan : QueryPlan)
      (order : RowSort (queryRank (buildIndexShape schema plan.indexSort) plan.forward))
      (rows : List (ShapeRow (buildIndexShape schema plan.indexSort)))
      (resp : QueryResponse) (lek : Item),
      translateQuery req schema = .ok plan → handleQuery schema req plan order rows = .ok resp →
      resp.lastEvaluatedKey = some lek →
      ∃ eff outcome key, resolveIndexForQuery schema req.indexName = .ok (eff, plan.indexSort) ∧
        runQuery schema req plan order rows = .ok outcome ∧
        outcome.lastEvaluatedKey = some key ∧
        (∃ row ∈ rows, lekFromRow row.data (buildIndexShape schema plan.indexSort) = some key) ∧
        (QueryRestarts schema req lek key ↔ KeyNamesAgree schema eff key ∧ key.1 = plan.pk) ∧
        ((∀ v, key.1 ≠ .n v) → key.1 = plan.pk)) ∧
    (∀ (req : ScanRequest) (plan : ScanPlan)
      (order : RowSort (scanRank (buildIndexShape schema plan.indexSort)))
      (rows : List (ShapeRow (buildIndexShape schema plan.indexSort)))
      (resp : ScanResponse) (lek : Item),
      translateScan req schema = .ok plan → handleScan schema plan order rows = .ok resp →
      resp.lastEvaluatedKey = some lek →
      ∃ eff outcome key, resolveIndexForQuery schema req.indexName = .ok (eff, plan.indexSort) ∧
        runScan schema plan order rows = .ok outcome ∧
        outcome.lastEvaluatedKey = some key ∧
        (∃ row ∈ rows, lekFromRow row.data (buildIndexShape schema plan.indexSort) = some key) ∧
        (ScanRestarts schema req lek key ↔ KeyNamesAgree schema eff key)) := by
  constructor
  · intro req plan order rows resp lek hplan hresp hlek
    obtain ⟨eff, heff⟩ := translateQuery_index hplan
    obtain ⟨outcome, hrun, rfl⟩ := map_ok_iff.mp hresp
    obtain ⟨key, hkey, rfl⟩ := Option.map_eq_some_iff.mp hlek
    obtain ⟨⟨row, hrow, hrowKey⟩, htext⟩ := queryRaw_lek hrun hkey
    obtain ⟨hpk, hsk⟩ := resolveIndexForQuery_typed heff
    obtain ⟨hkeyPk, hkeySk⟩ := lekFromRow_typed hrowKey
    refine ⟨eff, outcome, key, heff, hrun, hkey, ⟨row, hrow, hrowKey⟩, ?_, htext⟩
    rw [queryRestarts_iff hplan heff,
      decodeScanEsk_encodeLek_iff (hkeyPk.trans hpk) (hkeySk.trans hsk)]
  · intro req plan order rows resp lek hplan hresp hlek
    obtain ⟨eff, heff⟩ := translateScan_index hplan
    obtain ⟨outcome, hrun, rfl⟩ := map_ok_iff.mp hresp
    obtain ⟨key, hkey, rfl⟩ := Option.map_eq_some_iff.mp hlek
    obtain ⟨row, hrow, hrowKey⟩ := scanRaw_lek hrun hkey
    obtain ⟨hpk, hsk⟩ := resolveIndexForQuery_typed heff
    obtain ⟨hkeyPk, hkeySk⟩ := lekFromRow_typed hrowKey
    refine ⟨eff, outcome, key, heff, hrun, hkey, ⟨row, hrow, hrowKey⟩, ?_⟩
    rw [scanRestarts_iff hplan heff,
      decodeScanEsk_encodeLek_iff (hkeyPk.trans hpk) (hkeySk.trans hsk)]

end

section

attribute [local instance] PgValue.cOrder

/-- The orders of a customer, one to a page. -/
def customerQuery : QueryRequest :=
  ⟨none, some (.compare .eq (.path (.attr "customer")) (.value (.s "c1"))), some 1, none, none,
    none, none, none⟩

def customerPlan : QueryPlan := ⟨.s "c1", none, some 1, none, none, true, false, none, none⟩

def orderScan : ScanRequest := ⟨none, some 1, none, none, none, none, none, none⟩

def orderScanPlan : ScanPlan := ⟨some 1, none, none, false, none, none⟩

def customerRow : ShapeRow statusSchema.shape :=
  ⟨orderItem "c1" "2024" "open", some (.text "c1"), some (.text "2024"), rfl, rfl⟩

def customerPage : QueryResponse :=
  ⟨[orderItem "c1" "2024" "open"], 1, 1,
    some (encodeLek (.s "c1") (some (.s "2024")) statusSchema)⟩

theorem last_key_restarts_sample :
    handleQuery statusSchema customerQuery customerPlan (RowSort.stable _) [customerRow]
      = .ok customerPage ∧
    QueryRestarts statusSchema customerQuery (encodeLek (.s "c1") (some (.s "2024")) statusSchema)
      (.s "c1", some (.s "2024")) ∧
    handleScan statusSchema orderScanPlan (RowSort.stable _) [customerRow] = .ok customerPage ∧
    ScanRestarts statusSchema orderScan (encodeLek (.s "c1") (some (.s "2024")) statusSchema)
      (.s "c1", some (.s "2024")) := by
  have hnames : KeyNamesAgree statusSchema statusSchema (.s "c1", some (.s "2024")) :=
    .inl ⟨rfl, rfl, by decide⟩
  refine ⟨rfl, ?_, rfl, ?_⟩
  · obtain ⟨eff, outcome, key, heff, hrun, hkey, _, hiff, _⟩ :=
      (last_key_restarts_iff statusSchema).1 customerQuery customerPlan (RowSort.stable _)
        [customerRow] customerPage _ rfl rfl rfl
    cases heff
    cases hrun
    cases hkey
    exact hiff.mpr ⟨hnames, rfl⟩
  · obtain ⟨eff, outcome, key, heff, hrun, hkey, _, hiff⟩ :=
      (last_key_restarts_iff statusSchema).2 orderScan orderScanPlan (RowSort.stable _)
        [customerRow] customerPage _ rfl rfl rfl
    cases heff
    cases hrun
    cases hkey
    exact hiff.mpr hnames

def openQuery : QueryRequest :=
  ⟨some "by-status", some (.compare .eq (.path (.attr "status")) (.value (.s "open"))), some 1,
    none, none, none, none, none⟩

def openPlan : QueryPlan :=
  ⟨.s "open", none, some 1, none, none, true, false, none, some statusIndex⟩

def openRow : ShapeRow (buildIndexShape statusSchema openPlan.indexSort) :=
  ⟨orderItem "c1" "2024" "open", some (.text "open"), some (.text "2024"), rfl, rfl⟩

/-- The index's last key comes back under the base table's names, and is refused. -/
theorem index_last_key_refused :
    translateQuery openQuery statusSchema = .ok openPlan ∧
    handleQuery statusSchema openQuery openPlan (RowSort.stable _) [openRow]
      = .ok ⟨[orderItem "c1" "2024" "open"], 1, 1,
          some (encodeLek (.s "open") (some (.s "2024")) statusSchema)⟩ ∧
    (translateQuery { openQuery with
        exclusiveStartKey := some (encodeLek (.s "open") (some (.s "2024")) statusSchema) }
      statusSchema).map (fun _ => ())
      = .error (.invalidExclusiveStartKey "missing or wrong-typed partition key `status`") :=
  ⟨rfl, rfl, rfl⟩

end

end Rektifier
