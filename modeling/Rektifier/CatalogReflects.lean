import Rektifier.Runs
import Rektifier.CatalogRefresh

namespace Rektifier

open List Function

/-- A pass puts no rows in the cache that it loaded before the change of a call that has returned,
or whose own pass is done. -/
def SwapsFresh (s : CatalogState) : CatalogEvent → Prop
  | .replace p => s.Fresh p
  | _ => True

/-- A row's keys have not changed between its load and its verdict's write. -/
def WritesCurrent (s : CatalogState) : CatalogEvent → Prop
  | .write p table => ∀ seen rows verdict row, s.loaders p = .holds seen rows →
      rows table = some verdict → s.stored table = some row → verdict.unjudged = row.unjudged
  | _ => True

/-- The changes committed up to the call's own. -/
def committedCount : Caller → Option Nat
  | .committed count => some count
  | .waits count _ => some count
  | .returned count => some count
  | _ => none

def CatalogRequest.change (hex8 : String → String) : CatalogRequest → Option CatalogChange
  | .create plan => some (.created (createEntry hex8 plan))
  | .update _ _ _ => none
  | .delete table => some (.deleted table)

namespace CatalogState

/-- Up to verdicts, a version of the catalog with the change of every returned call. -/
def Reflects (s : CatalogState) (start : CatalogRows) : Prop :=
  ∀ c count, s.callers c = .returned count → ∃ n, count ≤ n ∧ n ≤ s.log.length ∧
    unjudgedRows s.cache = unjudgedRows (s.version applyChange start n)

/-- A created table is cached until it is deleted. -/
def ShowsCreated (s : CatalogState) : Prop :=
  ∀ c count plan, s.requests c = some (.create plan) → s.callers c = .returned count →
    .deleted plan.tableName ∉ s.log.drop count → hasTable s.cache plan.tableName = true

/-- A deleted table is not cached until it is created anew. -/
def HidesDeleted (s : CatalogState) : Prop :=
  ∀ c count table, s.requests c = some (.delete table) → s.callers c = .returned count →
    (∀ e, .created e ∈ s.log.drop count → e.name ≠ table) → hasTable s.cache table = false

/-- The change a call has committed is the last one it counts. -/
def Recorded (hex8 : String → String) (s : CatalogState) : Prop :=
  (∀ c, s.requests c = none → committedCount (s.callers c) = none) ∧
  ∀ c count request change, s.requests c = some request → request.change hex8 = some change →
    committedCount (s.callers c) = some count → ∃ k, count = k + 1 ∧ s.log[k]? = some change

end CatalogState

section Steps

variable {names : PgNames} {hex8 : String → String} {start : CatalogRows} {s s' : CatalogState}
  {event : CatalogEvent} {c : Nat} {change : CatalogChange}

theorem CatalogState.commitCall_tracks {β : Type*} {view : CatalogRows → β}
    (hcongr : ∀ a b change, view a = view b → view (applyChange a change)
      = view (applyChange b change)) (h : s.Tracks applyChange start view) :
    (s.commitCall c change).Tracks applyChange start view := by
  refine (h.commit hcongr change).setCaller ?_ nofun nofun
  rintro count ⟨⟩
  simp [Snapshots.commit]

/-- The cache stays a version of the catalog, in a view that verdicts do not show in. -/
theorem CatalogStep.tracks {β : Type*} {view : CatalogRows → β}
    (hcongr : ∀ a b change, view a = view b → view (applyChange a change)
      = view (applyChange b change))
    (hjudge : ∀ (rows : CatalogRows) table e columns primaryKey indexDefs, rows table = some e →
      view (update rows table (some (introspectEntry hex8 e columns primaryKey indexDefs)))
        = view rows)
    (hwrite : ∀ p table seen rows verdict, event = .write p table →
      s.loaders p = .holds seen rows → rows table = some verdict →
      view (writeVerdictRow s.stored table verdict) = view s.stored)
    (hfresh : SwapsFresh s event) (h : s.Tracks applyChange start view)
    (hstep : CatalogStep names hex8 s event s') : s'.Tracks applyChange start view := by
  cases hstep with
  | requestCreate => exact h
  | requestUpdate => exact h
  | requestDelete => exact h
  | commitCreate | commitUpdate | commitDelete => exact CatalogState.commitCall_tracks hcongr h
  | commitSettings =>
    refine h.setCaller ?_ nofun nofun
    rintro count ⟨⟩
    exact Nat.le_refl _
  | refresh hcall hidle =>
    apply Snapshots.Tracks.load
    refine h.setCaller nofun ?_ nofun
    rintro count p ⟨⟩
    exact ⟨h.committed _ _ hcall, hidle⟩
  | returns hcall hdone =>
    refine h.setCaller nofun nofun ?_
    rintro count ⟨⟩
    exact .inr ⟨_, hcall, hdone⟩
  | fail => exact h.setCaller nofun nofun nofun
  | mark | remove => exact h.commit hcongr _
  | load => exact h.load _
  | judge columns primaryKey indexDefs hload hrow =>
    exact h.adjust hload (hjudge _ _ _ columns primaryKey indexDefs hrow)
  | write hload hrow => exact h.rewrite (hwrite _ _ _ _ _ rfl hload hrow)
  | replace hload => exact h.swap hload hfresh
  | stop p => exact h.stop p

theorem CatalogStep.tracks_hasTable (hfresh : SwapsFresh s event)
    (h : s.Tracks applyChange start hasTable) (hstep : CatalogStep names hex8 s event s') :
    s'.Tracks applyChange start hasTable := by
  refine hstep.tracks hasTable_applyChange ?_ ?_ hfresh h
  · intro rows table e columns primaryKey indexDefs hrow
    rw [hasTable_update, update_eq_self_iff, hasTable, hrow]
    rfl
  · intro p table seen rows verdict _ _ _
    exact writeVerdictRow_hasTable verdict

theorem CatalogStep.tracks_unjudged (hfresh : SwapsFresh s event) (hcurrent : WritesCurrent s event)
    (h : s.Tracks applyChange start unjudgedRows) (hstep : CatalogStep names hex8 s event s') :
    s'.Tracks applyChange start unjudgedRows := by
  refine hstep.tracks unjudgedRows_applyChange ?_ ?_ hfresh h
  · intro rows table e columns primaryKey indexDefs hrow
    rw [unjudgedRows_update, update_eq_self_iff, unjudgedRows, hrow]
    exact congrArg some (introspectEntry_unjudged e columns primaryKey indexDefs)
  · rintro p table seen rows verdict rfl hload hverdict
    exact writeVerdictRow_unjudged fun row hrow =>
      hcurrent seen rows verdict row hload hverdict hrow

theorem CatalogState.Recorded.mono (h : s.Recorded hex8) (hlog : ∃ more, s'.log = s.log ++ more)
    (hrequests : s'.requests = s.requests)
    (hcallers : ∀ c count, committedCount (s'.callers c) = some count →
      committedCount (s.callers c) = some count) : s'.Recorded hex8 := by
  obtain ⟨more, hlog⟩ := hlog
  refine ⟨fun c hnone => ?_, fun c count request change hrequest hchange hcount => ?_⟩
  · have hidle := h.1 c (hrequests ▸ hnone)
    rcases hcount : committedCount (s'.callers c) with _ | count
    · rfl
    · cases hidle.symm.trans (hcallers c count hcount)
  · obtain ⟨k, rfl, hk⟩ :=
      h.2 c count request change (hrequests ▸ hrequest) hchange (hcallers c count hcount)
    refine ⟨k, rfl, ?_⟩
    rw [hlog, List.getElem?_append_left (List.getElem?_eq_some_iff.mp hk).1]
    exact hk

theorem CatalogState.Recorded.setCaller {caller : Caller} (h : s.Recorded hex8)
    (hcount : ∀ count, committedCount caller = some count →
      committedCount (s.callers c) = some count) :
    CatalogState.Recorded hex8 { s with toSnapshots := s.toSnapshots.setCaller c caller } := by
  refine h.mono ⟨[], (append_nil _).symm⟩ rfl fun d count hd => ?_
  by_cases hdc : d = c
  · subst hdc
    simp only [Snapshots.setCaller, update_self] at hd
    exact hcount count hd
  · simp only [Snapshots.setCaller, update_of_ne hdc] at hd
    exact hd

theorem CatalogState.Recorded.commitCall {request : CatalogRequest} (h : s.Recorded hex8)
    (hrequest : s.requests c = some request)
    (hchange : ∀ change', request.change hex8 = some change' → change' = change) :
    (s.commitCall c change).Recorded hex8 := by
  have hbefore : (s.commitWork change).Recorded hex8 :=
    h.mono ⟨[change], rfl⟩ rfl fun _ _ hd => hd
  refine ⟨fun d hnone => ?_, fun d count request' change' hrequest' hchange' hcount => ?_⟩
  · have hdc : d ≠ c := by
      rintro rfl
      cases hrequest.symm.trans hnone
    simp only [CatalogState.commitCall, Snapshots.setCaller, update_of_ne hdc]
    exact hbefore.1 d hnone
  · by_cases hdc : d = c
    · subst hdc
      cases hrequest.symm.trans hrequest'
      simp only [CatalogState.commitCall, Snapshots.setCaller, update_self] at hcount
      cases hcount
      refine ⟨s.log.length, rfl, ?_⟩
      rw [hchange change' hchange']
      exact List.getElem?_concat_length
    · simp only [CatalogState.commitCall, Snapshots.setCaller, update_of_ne hdc] at hcount
      exact hbefore.2 d count request' change' hrequest' hchange' hcount

theorem CatalogState.Recorded.request {request : CatalogRequest} (h : s.Recorded hex8)
    (hidle : s.callers c = .idle) : (s.request c request).Recorded hex8 := by
  refine ⟨fun d hnone => ?_, fun d count request' change hrequest hchange hcount => ?_⟩
  · by_cases hdc : d = c
    · subst hdc
      exact congrArg committedCount hidle
    · simp only [CatalogState.request, update_of_ne hdc] at hnone
      exact h.1 d hnone
  · by_cases hdc : d = c
    · subst hdc
      cases (congrArg committedCount hidle).symm.trans hcount
    · simp only [CatalogState.request, update_of_ne hdc] at hrequest
      exact h.2 d count request' change hrequest hchange hcount

theorem CatalogStep.recorded (h : s.Recorded hex8) (hstep : CatalogStep names hex8 s event s') :
    s'.Recorded hex8 := by
  have hsame : ∃ more, s.log = s.log ++ more := ⟨[], (append_nil _).symm⟩
  cases hstep with
  | requestCreate _ hidle | requestUpdate _ _ hidle | requestDelete _ hidle => exact h.request hidle
  | commitCreate hrequest | commitDelete hrequest =>
    refine h.commitCall hrequest ?_
    rintro _ ⟨⟩
    rfl
  | commitUpdate hrequest => exact h.commitCall hrequest nofun
  | @commitSettings c table e req hrequest =>
    -- the request has no change of its own to record
    refine ⟨fun d hnone => ?_, fun d count request change hd hchange hcount => ?_⟩
    · have hdc : d ≠ c := by
        rintro rfl
        cases hrequest.symm.trans hnone
      simp only [Snapshots.setCaller, update_of_ne hdc]
      exact h.1 d hnone
    · have hdc : d ≠ c := by
        rintro rfl
        cases hrequest.symm.trans hd
        cases hchange
      simp only [Snapshots.setCaller, update_of_ne hdc] at hcount
      exact h.2 d count request change hd hchange hcount
  | refresh hcall =>
    refine CatalogState.Recorded.mono (h.setCaller fun count hcount => ?_) hsame rfl
      fun _ _ hd => hd
    rw [hcall]
    exact hcount
  | returns hcall =>
    refine h.setCaller fun count hcount => ?_
    rw [hcall]
    exact hcount
  | fail => exact h.setCaller nofun
  | mark | remove => exact h.mono ⟨_, rfl⟩ rfl fun _ _ hd => hd
  | load | judge | write | replace | stop => exact h.mono hsame rfl fun _ _ hd => hd

end Steps

section Runs

variable {names : PgNames} {hex8 : String → String} {start : CatalogRows} {s : CatalogState}
  {trace : List (CatalogState × CatalogEvent)}

theorem CatalogState.start_tracks {β : Type*} (view : CatalogRows → β) :
    (CatalogState.start start).Tracks applyChange start view := by
  refine ⟨rfl, nofun, nofun, nofun, 0, Nat.le_refl 0, rfl, ?_⟩
  rintro c count (hcall | ⟨p, hcall, _⟩) <;> cases hcall

theorem CatalogState.start_recorded : (CatalogState.start start).Recorded hex8 := by
  refine ⟨fun _ _ => rfl, fun c count request change hrequest _ _ => ?_⟩
  cases hrequest

theorem version_succ {k : Nat} {change : CatalogChange} (h : s.log[k]? = some change) :
    s.version applyChange start (k + 1) = applyChange (s.version applyChange start k) change := by
  rw [Snapshots.version, Snapshots.version, take_add_one, h, foldl_append]
  rfl

theorem drop_take_subset {k n : Nat} {change : CatalogChange}
    (h : change ∈ (s.log.take n).drop k) : change ∈ s.log.drop k := by
  rw [drop_take] at h
  exact mem_of_mem_take h

theorem showsCreated_of_tracks (h : s.Tracks applyChange start hasTable)
    (hrecorded : s.Recorded hex8) : s.ShowsCreated := by
  intro c count plan hrequest hcall hkept
  obtain ⟨n, _, hcache, hshown⟩ := h.cache
  have hle := hshown c count (.inl hcall)
  obtain ⟨k, rfl, hk⟩ := hrecorded.2 c count _ _ hrequest rfl (by rw [hcall]; rfl)
  rw [congrFun hcache plan.tableName, Snapshots.version_eq_foldl hle]
  refine hasTable_foldl ?_ fun hmem => hkept (drop_take_subset hmem)
  rw [version_succ hk, applyChange, hasTable_update]
  exact update_self ..

theorem hidesDeleted_of_tracks (h : s.Tracks applyChange start hasTable)
    (hrecorded : s.Recorded hex8) : s.HidesDeleted := by
  intro c count table hrequest hcall haway
  obtain ⟨n, _, hcache, hshown⟩ := h.cache
  have hle := hshown c count (.inl hcall)
  obtain ⟨k, rfl, hk⟩ := hrecorded.2 c count _ _ hrequest rfl (by rw [hcall]; rfl)
  rw [congrFun hcache table, Snapshots.version_eq_foldl hle]
  refine not_hasTable_foldl ?_ fun e hmem => haway e (drop_take_subset hmem)
  rw [version_succ hk, applyChange, hasTable_update]
  exact update_self ..

/-- Where no pass puts rows in the cache that it loaded before the change of a returned call, no
created table disappears and no deleted one comes back; where verdicts go only on rows with the keys
they were made for, the cache has every change of a returned call. -/
theorem returned_ddl_stays_cached
    (hrun : Run (CatalogStep names hex8) (CatalogState.start start) trace s)
    (hfresh : ∀ step ∈ trace, SwapsFresh step.1 step.2) :
    s.ShowsCreated ∧ s.HidesDeleted ∧
      ((∀ step ∈ trace, WritesCurrent step.1 step.2) → s.Reflects start) := by
  have hrecorded : s.Recorded hex8 :=
    hrun.preserved _ (fun _ _ _ hstep h => hstep.recorded h) CatalogState.start_recorded
  have htables : s.Tracks applyChange start hasTable :=
    hrun.invariant (fun s => s.Tracks applyChange start hasTable)
      (fun _ _ _ hstep hmeets h => hstep.tracks_hasTable hmeets h) hfresh
      (CatalogState.start_tracks hasTable)
  refine ⟨showsCreated_of_tracks htables hrecorded, hidesDeleted_of_tracks htables hrecorded, ?_⟩
  intro hcurrent
  have hkeep : ∀ s event s', CatalogStep names hex8 s event s' →
      SwapsFresh s event ∧ WritesCurrent s event → s.Tracks applyChange start unjudgedRows →
      s'.Tracks applyChange start unjudgedRows :=
    fun _ _ _ hstep hmeets h => hstep.tracks_unjudged hmeets.1 hmeets.2 h
  have htracks : s.Tracks applyChange start unjudgedRows :=
    hrun.invariant (fun s => s.Tracks applyChange start unjudgedRows) hkeep
      (fun step hmem => ⟨hfresh step hmem, hcurrent step hmem⟩)
      (CatalogState.start_tracks unjudgedRows)
  intro c count hcall
  obtain ⟨n, hle, hcache, hshown⟩ := htracks.cache
  exact ⟨n, hshown c count (.inl hcall), hle, hcache⟩

end Runs

section Samples

variable {names : PgNames} {hex8 : String → String} {s : CatalogState} {c p count : Nat}

namespace CatalogState

/-- The call waits for its own pass, which has loaded all rows. -/
def waiting (s : CatalogState) (c p count : Nat) : CatalogState :=
  { s with toSnapshots := (s.toSnapshots.setCaller c (.waits count p)).load p }

def replaced (s : CatalogState) (p : Nat) (rows : CatalogRows) : CatalogState :=
  { s with toSnapshots := { s.toSnapshots with cache := rows }.setLoader p .swapped }

def refreshed (s : CatalogState) (c p count : Nat) : CatalogState :=
  let done := (s.waiting c p count).replaced p s.stored
  { done with toSnapshots := done.toSnapshots.setCaller c (.returned count) }

def refreshTrace (s : CatalogState) (c p count : Nat) : List (CatalogState × CatalogEvent) :=
  [(s, .refresh c), (s.waiting c p count, .replace p),
    ((s.waiting c p count).replaced p s.stored, .returns c)]

end CatalogState

theorem refreshed_run {request : CatalogRequest} (hcall : s.callers c = .committed count)
    (hidle : s.loaders p = .idle) (hrequest : s.requests c = some request)
    (hdescribed : request.Described s.stored) :
    Run (CatalogStep names hex8) s (s.refreshTrace c p count) (s.refreshed c p count) := by
  have hwaits : (s.waiting c p count).callers c = .waits count p := update_self ..
  have hholds : (s.waiting c p count).loaders p = .holds s.log.length s.stored :=
    update_self ..
  have hdone : ((s.waiting c p count).replaced p s.stored).loaders p = .swapped :=
    update_self ..
  exact .cons (.refresh hcall hidle) (.cons (.replace hholds)
    (.cons (.returns hwaits hdone hrequest hdescribed) (.nil _)))

theorem waiting_fresh (h : ∀ d n, ¬ s.Shown d n) : (s.waiting c p count).Fresh p := by
  rintro seen rows hload d n (hcall | ⟨q, hcall, hdone⟩)
  · simp only [CatalogState.waiting, Snapshots.load, Snapshots.setLoader, Snapshots.setCaller,
      update_apply] at hcall
    split at hcall
    next => cases hcall
    next => exact absurd (.inl hcall) (h d n)
  · have hq : q ≠ p := by
      rintro rfl
      cases hload.symm.trans hdone
    simp only [CatalogState.waiting, Snapshots.load, Snapshots.setLoader, Snapshots.setCaller,
      update_apply, if_neg hq] at hcall hdone
    split at hcall
    next =>
      cases hcall
      exact absurd rfl hq
    next => exact absurd (.inr ⟨q, hcall, hdone⟩) (h d n)

def createdOrders (s : CatalogState) (c : Nat) : CatalogState :=
  (s.request c (.create (taggedWith ["by-tag"]))).commitCall c
    (.created (createEntry id (taggedWith ["by-tag"])))

def createTrace (s : CatalogState) (c : Nat) : List (CatalogState × CatalogEvent) :=
  [(s, .request c), (s.request c (.create (taggedWith ["by-tag"])), .commit c)]

theorem createdOrders_run (hrequest : s.requests c = none) (hidle : s.callers c = .idle)
    (hcache : s.cache "orders" = none) (hstored : s.stored "orders" = none) :
    Run (CatalogStep names id) s (createTrace s c) (createdOrders s c) := by
  have hvalid : validateCreateTable (taggedRequest ["by-tag"]) = .ok (taggedWith ["by-tag"]) := rfl
  exact .cons (.requestCreate hrequest hidle hvalid hcache)
    (.cons (.commitCreate (update_self ..) hidle hstored) (.nil _))

end Samples

def ordersRows : CatalogRows :=
  update (fun _ => none) "orders" (some (createEntry id (taggedWith [])))

/-- CreateTable with its own pass. -/
theorem returned_ddl_stays_cached_sample : ∃ trace s,
    Run (CatalogStep plainNames id) (CatalogState.start fun _ => none) trace s ∧
    s.callers 0 = .returned 1 ∧ s.requests 0 = some (.create (taggedWith ["by-tag"])) ∧
    s.ShowsCreated ∧ s.HidesDeleted ∧ s.Reflects fun _ => none := by
  let s₀ := CatalogState.start fun _ => none
  let s₁ := createdOrders s₀ 0
  have hrun : Run (CatalogStep plainNames id) s₀ (createTrace s₀ 0 ++ s₁.refreshTrace 0 0 1)
      (s₁.refreshed 0 0 1) :=
    (createdOrders_run rfl rfl rfl rfl).append (refreshed_run rfl rfl rfl rfl)
  have hfresh : (s₁.waiting 0 0 1).Fresh 0 := by
    refine waiting_fresh ?_
    rintro d n (hcall | ⟨q, _, hdone⟩)
    · by_cases hd : d = 0
      · subst hd
        cases hcall
      · cases (update_of_ne hd _ _).symm.trans hcall
    · cases hdone
  have hmeets : ∀ step ∈ createTrace s₀ 0 ++ s₁.refreshTrace 0 0 1,
      SwapsFresh step.1 step.2 ∧ WritesCurrent step.1 step.2 := by
    simp only [createTrace, CatalogState.refreshTrace, cons_append, nil_append,
      forall_mem_cons, SwapsFresh, WritesCurrent, and_true, true_and]
    exact ⟨hfresh, nofun⟩
  obtain ⟨hshows, hhides, hreflects⟩ :=
    returned_ddl_stays_cached hrun fun step hmem => (hmeets step hmem).1
  exact ⟨_, _, hrun, rfl, rfl, hshows, hhides, hreflects fun step hmem => (hmeets step hmem).2⟩

/-- A periodic pass that loaded its rows before a CreateTable, or a DeleteTable, ends after the call
returned. -/
theorem stale_pass_undoes_ddl :
    (∃ trace s, Run (CatalogStep plainNames id) (CatalogState.start fun _ => none) trace s ∧
      trace.map Prod.snd = [.load 0, .request 0, .commit 0, .refresh 0, .replace 1, .returns 0,
        .replace 0] ∧
      s.callers 0 = .returned 1 ∧ s.requests 0 = some (.create (taggedWith ["by-tag"])) ∧
      s.log.length = 1 ∧ hasTable s.stored "orders" = true ∧ hasTable s.cache "orders" = false) ∧
    (∃ trace s, Run (CatalogStep plainNames id) (CatalogState.start ordersRows) trace s ∧
      trace.map Prod.snd = [.load 0, .request 0, .commit 0, .refresh 0, .replace 1, .returns 0,
        .replace 0] ∧
      s.callers 0 = .returned 1 ∧ s.requests 0 = some (.delete "orders") ∧
      s.log.length = 1 ∧ hasTable s.stored "orders" = false ∧ hasTable s.cache "orders" = true) := by
  constructor
  · let s₀ := CatalogState.start fun _ => none
    let s₁ : CatalogState := { s₀ with toSnapshots := s₀.toSnapshots.load 0 }
    let s₂ := createdOrders s₁ 0
    have hload : (s₂.refreshed 0 1 1).loaders 0 = .holds 0 fun _ => none := rfl
    have hcalls : Run (CatalogStep plainNames id) s₁ (createTrace s₁ 0 ++ s₂.refreshTrace 0 1 1)
        (s₂.refreshed 0 1 1) :=
      (createdOrders_run rfl rfl rfl rfl).append (refreshed_run rfl rfl rfl rfl)
    exact ⟨_, _, .cons (.load rfl) (hcalls.concat (.replace hload)), rfl, rfl, rfl, rfl, rfl, rfl⟩
  · let s₀ := CatalogState.start ordersRows
    let s₁ : CatalogState := { s₀ with toSnapshots := s₀.toSnapshots.load 0 }
    let s₂ := s₁.request 0 (.delete "orders")
    let s₃ := s₂.commitCall 0 (.deleted "orders")
    have hload : (s₃.refreshed 0 1 1).loaders 0 = .holds 0 ordersRows := rfl
    have hcalls : Run (CatalogStep plainNames id) s₁
        ([(s₁, .request 0), (s₂, .commit 0)] ++ s₃.refreshTrace 0 1 1) (s₃.refreshed 0 1 1) :=
      .cons (.requestDelete rfl rfl rfl) (.cons (.commitDelete rfl rfl rfl)
        (refreshed_run rfl rfl rfl trivial))
    exact ⟨_, _, .cons (.load rfl) (hcalls.concat (.replace hload)), rfl, rfl, rfl, rfl, rfl, rfl⟩

end Rektifier
