import Mathlib.Data.Set.Card
import Rektifier.LifecycleSpec
import Rektifier.SharedBackfill

namespace Rektifier

open Fallible

variable {lastPkCopied : Option Json} {bk : BaseKey} {env : BackfillEnv} {s s' : BackfillState bk}
  {t t' : PgTable bk} {cursor : ResumeCursor} {returned : List PgKey}

def PgTable.keys (t : PgTable bk) : Set PgKey := {k | ∃ row, t.rows k = some row}

/-- What deletes, and updates of other than key attributes, make of a table. -/
def NoNewKeys (t t' : PgTable bk) : Prop :=
  ∀ k row', t'.rows k = some row' →
    ∃ row, t.rows k = some row ∧ keyText bk row'.data = keyText bk row.data

/-- A step of the backfill, or a write of somebody else. -/
inductive SharedEvent where
  | own (event : BackfillEvent)
  | other

def SharedEvent.isChunk : SharedEvent → Bool
  | .own (.chunk _) => true
  | _ => false

/-- Others write, but insert nothing. -/
inductive InsertFreeStep (env : BackfillEnv) (s : BackfillState bk) :
    SharedEvent → BackfillState bk → Prop
  | own {event : BackfillEvent} {s' : BackfillState bk} : BackfillStep env s event s' →
      InsertFreeStep env s (.own event) s'
  | other {t' : PgTable bk} : NoNewKeys s.table t' →
      InsertFreeStep env s .other { s with table := t' }

def BackfillState.persisted (s : BackfillState bk) : Option TextKey :=
  (seedCursor bk s.lastPkCopied).point

/-- Strictly forward in the order of the resume predicate. -/
def Forward (before after : Option TextKey) : Prop := ∃ y ∈ after, ∀ x ∈ before, x < y

def PgTable.ahead (t : PgTable bk) (point : Option TextKey) : Set PgKey :=
  {k | ∃ row, t.rows k = some row ∧ ¬∃ c ∈ point, keyText bk row.data ≤ c}

/-- PostgreSQL refuses the UPDATE, and `run_backfill` returns its error. -/
inductive ChunkFails (env : BackfillEnv) (t : PgTable bk) (cursor : ResumeCursor) : Prop
  | negative : env.cols ≠ [] → env.chunkSize < 0 → ChunkFails env t cursor
  | setList {e : PgError} : env.cols ≠ [] → checkAssignable env.generated env.cols = .error e →
      ChunkFails env t cursor
  | values {returned : List PgKey} {e : PgError} : env.cols ≠ [] →
      Limited PgKey.Le env.chunkSize.toNat (fun k => ∃ row, t.rows k = some row ∧
        nullFilter env.cols row = true ∧ resumePred bk cursor row.data = true) returned →
      returned.foldlM (fillRow env.cols) t = .error e → ChunkFails env t cursor

/-- The loop of `run_backfill` is left in its next `n` chunks, whatever they return: there is always
one to run, or an error, and after a chunk with rows one fewer remains. -/
def EndsWithin (env : BackfillEnv) : Nat → PgTable bk → ResumeCursor → Prop
  | 0, _, _ => False
  | n + 1, t, cursor =>
    ((∃ returned t', RunChunk env t cursor returned t') ∨ ChunkFails env t cursor) ∧
      ∀ returned t', RunChunk env t cursor returned t' →
        ∀ last row, returned.getLast? = some last → t.rows last = some row →
          EndsWithin env n t' (cursorAfter bk row.data)

/-! ### There is always a chunk -/

def PgValue.columnType : PgValue → ColumnType
  | .text _ => .text
  | .numeric _ => .numeric
  | .bytea _ => .bytea

def PgValue.rank : PgValue → String ×ₗ Numeric.Value ×ₗ List ℕ
  | .text s => toLex (s, toLex (Numeric.ofRat 0, []))
  | .numeric q => toLex ("", toLex (q, []))
  | .bytea b => toLex ("", toLex (Numeric.ofRat 0, b.map UInt8.toNat))

def PgKey.rank (k : PgKey) :
    (String ×ₗ Numeric.Value ×ₗ List ℕ) ×ₗ (String ×ₗ Numeric.Value ×ₗ List ℕ) :=
  toLex (k.1.rank, (k.2.map PgValue.rank).getD (toLex ("", toLex (Numeric.ofRat 0, []))))

theorem toLex_le_left {α β : Type} [LinearOrder α] [LinearOrder β] {a a' : α} {b : β}
    (h : toLex (a, b) ≤ toLex (a', b)) : a ≤ a' := by
  rcases Prod.Lex.toLex_le_toLex.mp h with hlt | ⟨heq, _⟩
  · exact hlt.le
  · exact le_of_eq heq

theorem toLex_le_right {α β : Type} [LinearOrder α] [LinearOrder β] {a : α} {b b' : β}
    (h : toLex (a, b) ≤ toLex (a, b')) : b ≤ b' := by
  rcases Prod.Lex.toLex_le_toLex.mp h with hlt | ⟨_, hle⟩
  · exact absurd hlt (lt_irrefl _)
  · exact hle

theorem PgValue.le_of_rank : ∀ {a b : PgValue}, a.rank ≤ b.rank → a.Le b
  | .text _, .text _, h => toLex_le_left h
  | .numeric _, .numeric _, h => toLex_le_left (toLex_le_right h)
  | .bytea _, .bytea _, h => toLex_le_right (toLex_le_right h)
  | .text _, .numeric _, _ | .text _, .bytea _, _ | .numeric _, .text _, _ => trivial
  | .numeric _, .bytea _, _ | .bytea _, .text _, _ | .bytea _, .numeric _, _ => trivial

theorem PgValue.rank_inj {a b : PgValue} (htype : a.columnType = b.columnType)
    (h : a.rank = b.rank) : a = b := by
  have hbytes : Function.Injective UInt8.toNat := fun x y hxy => UInt8.toNat_inj.mp hxy
  cases a <;> cases b <;> simp_all [PgValue.rank, PgValue.columnType]
  exact List.map_injective_iff.mpr hbytes h

theorem PgKey.le_of_rank {a b : PgKey} (htype : a.1.columnType = b.1.columnType)
    (h : PgKey.rank a ≤ PgKey.rank b) : PgKey.Le a b := by
  rcases Prod.Lex.toLex_le_toLex.mp h with hlt | ⟨heq, hle⟩
  · refine .inl ⟨PgValue.le_of_rank hlt.le, ?_⟩
    intro h
    rw [h] at hlt
    exact lt_irrefl _ hlt
  · refine .inr ⟨PgValue.rank_inj htype heq, ?_⟩
    intro x hx y hy
    rw [Option.mem_def] at hx hy
    rw [hx, hy] at hle
    exact PgValue.le_of_rank hle

theorem castKey_columnType {kt : KeyType} {text : String} {v : PgValue}
    (h : castKey kt text = .ok v) : v.columnType = kt.columnType := by
  cases kt with
  | s =>
    cases h
    rfl
  | n =>
    obtain ⟨q, _, rfl⟩ := map_ok_iff.mp h
    rfl
  | b =>
    simp only [castKey] at h
    split at h
    · cases h
      rfl
    · cases h

theorem generatedNotNull_columnType {col : String} {kt : KeyType} {data : Json} {v : PgValue}
    (h : generatedNotNull col kt data = .ok v) : v.columnType = kt.columnType := by
  obtain ⟨o, hextract, h⟩ := bind_ok h
  cases o with
  | none => cases h
  | some w =>
    cases h
    unfold extractCol at hextract
    split at hextract
    · cases hextract
    · obtain ⟨w', hcast, hw⟩ := map_ok_iff.mp hextract
      cases hw
      exact castKey_columnType hcast

theorem PgTable.columnType_key {k : PgKey} (h : k ∈ t.keys) :
    k.1.columnType = bk.pkType.columnType := by
  obtain ⟨row, hrow⟩ := h
  obtain ⟨pk, hpk, hrest⟩ := bind_ok (t.keyed k row hrow)
  split at hrest
  · cases hrest
    exact generatedNotNull_columnType hpk
  · obtain ⟨sk, _, hk⟩ := bind_ok hrest
    cases hk
    exact generatedNotNull_columnType hpk

theorem chunk_returns_or_fails (env : BackfillEnv) (hfinite : t.keys.Finite)
    (cursor : ResumeCursor) :
    (∃ returned t', RunChunk env t cursor returned t') ∨ ChunkFails env t cursor := by
  by_cases hcols : env.cols = []
  · exact .inl ⟨[], t, .noCols hcols⟩
  by_cases hsize : env.chunkSize < 0
  · exact .inr (.negative hcols hsize)
  cases hset : checkAssignable env.generated env.cols with
  | error e => exact .inr (.setList hcols hset)
  | ok u =>
    have hadmitted : ∀ k, (∃ row, t.rows k = some row ∧ nullFilter env.cols row ∧
        resumePred bk cursor row.data) → k ∈ t.keys :=
      fun k ⟨row, hrow, _⟩ => ⟨row, hrow⟩
    have hle : ∀ k k', (∃ row, t.rows k = some row ∧ nullFilter env.cols row ∧
        resumePred bk cursor row.data) → (∃ row, t.rows k' = some row ∧
        nullFilter env.cols row ∧ resumePred bk cursor row.data) →
        PgKey.rank k ≤ PgKey.rank k' → PgKey.Le k k' := by
      intro k k' hk hk'
      refine PgKey.le_of_rank ?_
      rw [PgTable.columnType_key (hadmitted k hk), PgTable.columnType_key (hadmitted k' hk')]
    obtain ⟨returned, hlimit⟩ := exists_limited PgKey.rank hle (hfinite.subset hadmitted)
      env.chunkSize.toNat
    cases hfill : returned.foldlM (fillRow env.cols) t with
    | error e => exact .inr (.values hcols hlimit hfill)
    | ok t' => exact .inl ⟨returned, t', .update hcols (not_lt.mp hsize) hset hlimit hfill⟩

/-! ### Every chunk with rows leaves fewer rows ahead -/

theorem RunChunk.admitted (h : RunChunk env t cursor returned t') {k : PgKey} (hk : k ∈ returned) :
    ∃ row, t.rows k = some row ∧ resumePred bk cursor row.data := by
  cases h with
  | noCols => cases hk
  | update _ _ _ hlimit _ =>
    obtain ⟨row, hrow, _, hresume⟩ := hlimit.admitted k hk
    exact ⟨row, hrow, hresume⟩

theorem RunChunk.sameData (h : RunChunk env t cursor returned t') : SameData t t' := by
  cases h with
  | noCols => exact fun _ => rfl
  | update _ _ _ hlimit hfill =>
    obtain ⟨hothers, hfilled⟩ := fillRows_spec hlimit.nodup hfill
    intro k
    by_cases hk : k ∈ returned
    · obtain ⟨row, hrow, _⟩ := hlimit.admitted k hk
      obtain ⟨m, _, hrow'⟩ := hfilled k hk row hrow
      rw [hrow, hrow']
      rfl
    · rw [hothers k hk]

theorem SameData.noNewKeys (h : SameData t t') : NoNewKeys t t' := by
  intro k row' hrow'
  have hdata := h k
  rw [hrow'] at hdata
  obtain ⟨row, hrow, heq⟩ := Option.map_eq_some_iff.mp hdata.symm
  exact ⟨row, hrow, by rw [heq]⟩

theorem NoNewKeys.keys_subset (h : NoNewKeys t t') : t'.keys ⊆ t.keys := by
  rintro k ⟨row', hrow'⟩
  obtain ⟨row, hrow, _⟩ := h k row' hrow'
  exact ⟨row, hrow⟩

theorem NoNewKeys.ahead_subset (h : NoNewKeys t t') (point : Option TextKey) :
    t'.ahead point ⊆ t.ahead point := by
  rintro k ⟨row', hrow', hahead⟩
  obtain ⟨row, hrow, htext⟩ := h k row' hrow'
  exact ⟨row, hrow, by rwa [← htext]⟩

theorem PgTable.ahead_subset_keys (t : PgTable bk) (point : Option TextKey) :
    t.ahead point ⊆ t.keys :=
  fun _ ⟨row, hrow, _⟩ => ⟨row, hrow⟩

/-- The new cursor has come to the chunk's last row, which the old one had not. -/
theorem RunChunk.forward {last : PgKey} {row : PgRow}
    (h : RunChunk env t (seedCursor bk lastPkCopied) returned t')
    (hlast : returned.getLast? = some last) (hrow : t.rows last = some row) :
    ∀ c ∈ (seedCursor bk lastPkCopied).point, c < keyText bk row.data := by
  obtain ⟨row', hrow', hresume⟩ := h.admitted (List.mem_of_getLast? hlast)
  rw [hrow] at hrow'
  cases hrow'
  intro c hc
  by_contra hle
  exact (resumePred_seedCursor bk lastPkCopied row.data).mp hresume ⟨c, hc, not_lt.mp hle⟩

theorem RunChunk.ahead_lt {last : PgKey} {row : PgRow}
    (h : RunChunk env t (seedCursor bk lastPkCopied) returned t') (hfinite : t.keys.Finite)
    (hlast : returned.getLast? = some last) (hrow : t.rows last = some row) :
    (t'.ahead (some (keyText bk row.data))).ncard
      < (t.ahead (seedCursor bk lastPkCopied).point).ncard := by
  have hforward := h.forward hlast hrow
  refine Set.ncard_lt_ncard ⟨?_, ?_⟩ (hfinite.subset (t.ahead_subset_keys _))
  · intro k hk
    obtain ⟨row', hrow', hahead⟩ := h.sameData.noNewKeys.ahead_subset _ hk
    refine ⟨row', hrow', ?_⟩
    rintro ⟨c, hc, hle⟩
    exact hahead ⟨_, rfl, hle.trans (hforward c hc).le⟩
  · intro hsub
    have hmem : last ∈ t.ahead (seedCursor bk lastPkCopied).point :=
      ⟨row, hrow, fun ⟨c, hc, hle⟩ => not_lt.mpr hle (hforward c hc)⟩
    obtain ⟨row', hrow', hahead⟩ := h.sameData.noNewKeys.ahead_subset _ (hsub hmem)
    rw [hrow] at hrow'
    cases hrow'
    exact hahead ⟨_, rfl, le_rfl⟩

theorem endsWithin_ahead (hfinite : t.keys.Finite) (lastPkCopied : Option Json) {n : Nat}
    (hn : (t.ahead (seedCursor bk lastPkCopied).point).ncard < n) :
    EndsWithin env n t (seedCursor bk lastPkCopied) := by
  induction n generalizing t lastPkCopied with
  | zero => omega
  | succ n ih =>
    refine ⟨chunk_returns_or_fails env hfinite _, fun returned t' hchunk last row hlast hrow => ?_⟩
    have hlt := hchunk.ahead_lt hfinite hlast hrow
    rw [← seedCursor_lastPkJson]
    refine ih (hfinite.subset hchunk.sameData.noNewKeys.keys_subset) _ ?_
    rw [seedCursor_lastPkJson, point_cursorAfter]
    omega

/-- What holds between the steps. -/
structure BackfillState.Counts (s : BackfillState bk) : Prop where
  synced : s.Synced
  finite : s.table.keys.Finite

theorem InsertFreeStep.counts {event : SharedEvent} (h : InsertFreeStep env s event s')
    (hs : s.Counts) : s'.Counts := by
  cases h with
  | own hstep =>
    refine ⟨hstep.synced, ?_⟩
    cases hstep with
    | start | crash => exact hs.finite
    | chunk _ hchunk _ _ => exact hs.finite.subset hchunk.sameData.noNewKeys.keys_subset
  | other hkeys => exact ⟨hs.synced, hs.finite.subset hkeys.keys_subset⟩

theorem InsertFreeStep.ahead_le {event : SharedEvent} (h : InsertFreeStep env s event s')
    (hs : s.Counts) : (s'.table.ahead s'.persisted).ncard + event.isChunk.toNat
      ≤ (s.table.ahead s.persisted).ncard := by
  cases h with
  | own hstep =>
    cases hstep with
    | start => exact le_rfl
    | crash => exact le_rfl
    | @chunk cursor returned t' last row hworker hchunk hlast hrow =>
      obtain rfl := hs.synced cursor hworker
      have hlt := hchunk.ahead_lt hs.finite hlast hrow
      have hpoint : (seedCursor bk (some (lastPkJson bk row.data))).point
          = some (keyText bk row.data) := by
        rw [seedCursor_lastPkJson, point_cursorAfter]
      show (t'.ahead (seedCursor bk (some (lastPkJson bk row.data))).point).ncard + 1 ≤ _
      rw [hpoint]
      exact hlt
  | other hkeys =>
    exact Set.ncard_le_ncard (hkeys.ahead_subset _)
      (hs.finite.subset (PgTable.ahead_subset_keys _ _))

theorem InsertFreeStep.forward (h : InsertFreeStep env s (.own (.chunk returned)) s')
    (hs : s.Counts) : Forward s.persisted s'.persisted := by
  cases h with
  | own hstep =>
    cases hstep with
    | @chunk cursor _ t' last row hworker hchunk hlast hrow =>
      obtain rfl := hs.synced cursor hworker
      refine ⟨keyText bk row.data, ?_, hchunk.forward hlast hrow⟩
      show keyText bk row.data ∈ (seedCursor bk (some (lastPkJson bk row.data))).point
      rw [seedCursor_lastPkJson, point_cursorAfter]
      rfl

/-- However often a backfill is resumed, and whatever others delete and update: each chunk with rows
moves the cursor forward, there are no more such chunks than rows at the start, and the running
worker's loop ends. -/
theorem backfill_terminates {u : BackfillState bk}
    {trace : List (BackfillState bk × SharedEvent)} (hfinite : s.table.keys.Finite)
    (hworker : s.worker = none) (hrun : Run (InsertFreeStep env) s trace u) :
    (trace.filter fun e => e.2.isChunk).length ≤ s.table.keys.ncard ∧
    (∀ returned u', InsertFreeStep env u (.own (.chunk returned)) u' →
      Forward u.persisted u'.persisted) ∧
    (∀ cursor, u.worker = some cursor →
      EndsWithin env (s.table.keys.ncard + 1) u.table cursor) := by
  have hstart : s.Counts := ⟨by simp [BackfillState.Synced, hworker], hfinite⟩
  have hend : u.Counts :=
    hrun.preserved BackfillState.Counts (fun _ _ _ h => h.counts) hstart
  have hcount := hrun.count_le (fun s => (s.table.ahead s.persisted).ncard) SharedEvent.isChunk
    (fun _ _ _ h => h.counts) (fun _ _ _ h => h.ahead_le) hstart
  have hrows : (s.table.ahead s.persisted).ncard ≤ s.table.keys.ncard :=
    Set.ncard_le_ncard (s.table.ahead_subset_keys _) hfinite
  refine ⟨by omega, fun returned u' h => h.forward hend, fun cursor hcursor => ?_⟩
  obtain rfl := hend.synced cursor hcursor
  refine endsWithin_ahead hend.finite _ ?_
  have hpersisted : (u.table.ahead (seedCursor bk u.lastPkCopied).point).ncard
      = (u.table.ahead u.persisted).ncard := rfl
  omega

/-- An index on an attribute the order lacks. -/
def colorGsi : GsiSpec :=
  ⟨"by-color", "color", .s, "color", none, "orders_by_color", .dualWrite, false, none⟩

def noColor : String → Option PgValue := Function.update (fun _ => none) "color" none

theorem orderTable_keys (cols : String → Option PgValue) : (orderTable cols).keys = {orderKey} := by
  ext k
  constructor
  · rintro ⟨row, hrow⟩
    exact (orderTable_rows hrow).1
  · rintro rfl
    exact ⟨_, orderTable_key cols⟩

/-- The one row stays NULL, and is touched once. -/
theorem backfill_terminates_sparse : noColor "color" = none ∧ ∃ trace,
    Run (InsertFreeStep ⟨[], colorGsi.cols, 1⟩) ⟨orderTable fun _ => none, none, none⟩ trace
      ⟨orderTable noColor, some (.str "o1"), some (.simple (some "o1"))⟩ ∧
    (trace.filter fun e => e.2.isChunk).length ≤ 1 ∧
    EndsWithin ⟨[], colorGsi.cols, 1⟩ 2 (orderTable noColor) (.simple (some "o1")) := by
  have hrun := orderTable_chunk colorGsi (fun _ => none) noColor rfl rfl rfl
  have hshared : Run (InsertFreeStep ⟨[], colorGsi.cols, 1⟩) ⟨orderTable fun _ => none, none, none⟩
      _ ⟨orderTable noColor, some (.str "o1"), some (.simple (some "o1"))⟩ :=
    hrun.simulate (f := id) (g := SharedEvent.own) (fun _ _ _ _ (h : True) => h)
      (fun _ _ _ h _ => .own h) trivial
  have hfinite : (orderTable fun _ => none).keys.Finite := by
    rw [orderTable_keys]
    exact Set.finite_singleton _
  obtain ⟨hcount, _, hends⟩ := backfill_terminates hfinite rfl hshared
  have hcard : (orderTable fun _ => none).keys.ncard = 1 := by
    rw [orderTable_keys, Set.ncard_singleton]
  rw [hcard] at hcount hends
  exact ⟨rfl, _, hshared, hcount, hends _ rfl⟩

end Rektifier
