import Rektifier.ConditionalLinear

namespace Rektifier

open List Function

variable {phase : CallPhase} {shape : TableShape} {k : PgKey} {s s' : KeyState shape} {c : CallId}
  {e : KeyEvent} {call : ConditionalCall}

/-- No call has used up its passes. -/
def KeyState.NoneSpent (s : KeyState shape) : Prop := ∀ c call, s.phase c ≠ .reading call 0

/-- A call whose last SELECT found no row runs its INSERT while there still is none. -/
def InsertedInTime (k : PgKey) (s : KeyState shape) (e : KeyEvent) : Prop :=
  ∀ c call item, (e = .write c ∨ e = .retry c) → s.phase c = .writing call 0 none (.store item) →
    s.table.items k = none

/-- Only a call that found no row comes round again, because there is one now. -/
theorem retry_conflict {left : Nat} {existing : Option Json} {change : RowChange}
    (hs : s.Sound k) (hphase : s.phase c = .writing call left existing change)
    (hexec : call.exec shape s.table existing change = .ok none) :
    existing = none ∧ s.table.items k ≠ none ∧ ∃ item, change = .store item := by
  obtain ⟨hon, hdecide, hknown⟩ := hs.writing hphase
  cases existing with
  | some item =>
    obtain ⟨t', ht, _⟩ := exec_locked hon hdecide rfl hknown.2.2 hexec
    cases ht
  | none =>
    cases change with
    | store item =>
      exact ⟨rfl, writeLocked_insert (hon.stores PgTable.empty item hdecide) hexec, item, rfl⟩
    | remove =>
      have hdelete : (deleteIfFound shape s.table call.pk call.sk none).map some = .ok none := hexec
      obtain ⟨t', _, ht⟩ := Fallible.map_ok_iff.mp hdelete
      cases ht

theorem withPhase_self : (s.withPhase c phase).phase c = phase :=
  update_self ..

theorem withPhase_of_ne {d : CallId} (h : d ≠ c) :
    (s.withPhase c phase).phase d = s.phase d := update_of_ne h ..

theorem KeyState.NoneSpent.withPhase (h : s.NoneSpent)
    (hphase : ∀ call, phase ≠ .reading call 0) : (s.withPhase c phase).NoneSpent := by
  intro d call hd
  by_cases hdc : d = c
  · subst hdc
    exact hphase call (withPhase_self.symm.trans hd)
  · exact h d call ((withPhase_of_ne hdc).symm.trans hd)

theorem KeyState.NoneSpent.release (h : s.NoneSpent) : (s.release c).NoneSpent :=
  fun d call hd => h d call ((congrFun (release_phase s c) d).symm.trans hd)

theorem ConditionalAction.passes_pos (action : ConditionalAction) : action.passes ≠ 0 := by
  cases action <;> simp [ConditionalAction.passes]

/-- A call's last pass is spent exactly when a row has come before its last INSERT. -/
theorem KeyStep.noneSpent_iff (h : KeyStep shape k s e s') (hs : s.Sound k) (hnone : s.NoneSpent) :
    s'.NoneSpent ↔ InsertedInTime k s e := by
  cases h with
  | @start c call hidle hon =>
    refine iff_of_true ?_ (by simp [InsertedInTime])
    refine hnone.withPhase fun call' heq => ?_
    injection heq with _ hpasses
    exact call.action.passes_pos hpasses
  | read | refuse | skip =>
    exact iff_of_true (hnone.withPhase nofun) (by simp [InsertedInTime])
  | @write c call left existing change t hphase hpending htouch hexec =>
    refine iff_of_true (hnone.withPhase nofun) ?_
    intro d call' item he hd
    obtain rfl : c = d := by simpa using he
    cases hphase.symm.trans hd
    obtain ⟨hon, hdecide, _⟩ := hs.writing hphase
    exact (exec_some hon hdecide (.inl rfl) htouch hexec).1
  | @retry c call left existing change hphase hpending hexec =>
    obtain ⟨rfl, hrow, item, rfl⟩ := retry_conflict hs hphase hexec
    cases left with
    | zero =>
      refine iff_of_false (fun hspent => hspent c call (update_self ..)) fun htime => ?_
      exact hrow (htime c call item (.inr rfl) hphase)
    | succ left =>
      refine iff_of_true (hnone.withPhase nofun) ?_
      intro d call' item' he hd
      obtain rfl : c = d := by simpa using he
      cases hphase.symm.trans hd
  | @commit c call existing change hphase =>
    have hend : ((s.release c).withPhase c (.returned (.ok existing))).NoneSpent :=
      hnone.release.withPhase nofun
    exact iff_of_true hend (by simp [InsertedInTime])
  | @exhaust c call _ hphase => exact absurd hphase (hnone c call)
  | abort => exact iff_of_true (hnone.release.withPhase nofun) (by simp [InsertedInTime])

def KeyEvent.caller : KeyEvent → CallId
  | .start c _ | .read c | .refuse c | .write c | .skip c | .retry c | .commit c | .exhaust c => c
  | .abort c _ => c

/-- The SELECT that begins a pass. -/
def KeyEvent.isPass : KeyEvent → Bool
  | .read _ | .refuse _ => true
  | _ => false

def CallPhase.passesLeft : CallPhase → Nat
  | .idle => 3
  | .reading _ left | .writing _ left _ _ => left
  | .committing _ _ _ | .returned _ => 0

theorem KeyStep.phase_of_ne (h : KeyStep shape k s e s') {d : CallId} (hd : d ≠ e.caller) :
    s'.phase d = s.phase d := by
  cases h with
  | start | read | refuse | write | skip | retry | exhaust => exact withPhase_of_ne hd
  | @commit c | @abort c =>
    exact (withPhase_of_ne hd).trans (congrFun (release_phase s c) d)

theorem passes_step {n : Nat} (hphase : s'.phase c = phase)
    (hle : phase.passesLeft + n ≤ (s.phase c).passesLeft) :
    (s'.phase c).passesLeft + n ≤ (s.phase c).passesLeft := by
  rw [hphase]
  exact hle

theorem KeyStep.passesLeft_le (h : KeyStep shape k s e s') (c : CallId) :
    (s'.phase c).passesLeft + (e.caller = c && e.isPass).toNat ≤ (s.phase c).passesLeft := by
  by_cases hc : e.caller = c
  · subst hc
    simp only [decide_true, Bool.true_and]
    cases h with
    | @start c call hidle hon =>
      have hpasses : call.action.passes ≤ 3 := by
        cases call.action <;> simp [ConditionalAction.passes]
      refine passes_step withPhase_self ?_
      rw [KeyEvent.caller, hidle]
      exact hpasses
    | read hphase | retry hphase =>
      refine passes_step withPhase_self ?_
      rw [KeyEvent.caller, hphase]
      exact le_rfl
    | refuse hphase =>
      refine passes_step withPhase_self ?_
      rw [KeyEvent.caller, hphase]
      exact Nat.succ_le_succ (Nat.zero_le _)
    | write | skip | commit | exhaust | abort => exact passes_step withPhase_self (Nat.zero_le _)
  · rw [h.phase_of_ne (Ne.symm hc)]
    simp [hc]

theorem KeyStep.returned_stays (h : KeyStep shape k s e s')
    {r : Except BackendError (Option Json)} (hreturned : s.phase c = .returned r) :
    s'.phase c = .returned r := by
  by_cases hc : c = e.caller
  · subst hc
    cases h with
    | start hphase | read hphase | refuse hphase | write hphase | skip hphase | retry hphase
    | commit hphase | exhaust hphase => cases hphase.symm.trans hreturned
    | abort _ hactive => exact absurd hreturned (hactive r)
  · rw [h.phase_of_ne hc]
    exact hreturned

theorem KeyStep.returned_error (h : KeyStep shape k s e s') {err : BackendError} (hs : s.Sound k)
    (hreturned : s'.phase e.caller = .returned (.error err)) :
    (∃ call existing, ConditionalCall.On shape k call ∧ call.action.decide existing = .error err) ∨
      e = .abort e.caller err ∨ e = .exhaust e.caller := by
  cases h with
  | start | read | write | skip | retry | commit => cases withPhase_self.symm.trans hreturned
  | refuse hphase _ _ hdecide =>
    cases withPhase_self.symm.trans hreturned
    exact .inl ⟨_, _, (hs.reading hphase).1, hdecide⟩
  | exhaust => exact .inr (.inr rfl)
  | abort =>
    cases withPhase_self.symm.trans hreturned
    exact .inr (.inl rfl)

/-- An error is a refusal, a failure in the database, or all passes used up. -/
theorem run_returned_error {trace : List (KeyState shape × KeyEvent)} {err : BackendError}
    (hrun : Run (KeyStep shape k) s trace s') (hs : s.Sound k)
    (hbefore : ∀ r, s.phase c ≠ .returned r) (hreturned : s'.phase c = .returned (.error err)) :
    (∃ call existing, ConditionalCall.On shape k call ∧ call.action.decide existing = .error err) ∨
      (∃ e ∈ trace, e.2 = .abort c err) ∨ ∃ e ∈ trace, e.2 = .exhaust c := by
  induction hrun with
  | nil => exact absurd hreturned (hbefore _)
  | @cons s s₁ s' e trace hfirst hrest ih =>
    by_cases hnow : ∃ r, s₁.phase c = .returned r
    · obtain ⟨r, hr⟩ := hnow
      have hstays : s'.phase c = .returned r :=
        hrest.preserved (fun s => s.phase c = .returned r) (fun _ _ _ h => h.returned_stays) hr
      cases hstays.symm.trans hreturned
      have hc : c = e.caller := by
        by_contra hne
        exact hbefore _ ((hfirst.phase_of_ne hne).symm.trans hr)
      subst hc
      rcases hfirst.returned_error hs hr with h | h | h
      · exact .inl h
      · exact .inr (.inl ⟨_, mem_cons_self, h⟩)
      · exact .inr (.inr ⟨_, mem_cons_self, h⟩)
    · rcases ih (hfirst.sound hs) (not_exists.mp hnow) hreturned with h | ⟨e, he, h⟩ | ⟨e, he, h⟩
      · exact .inl h
      · exact .inr (.inl ⟨e, mem_cons_of_mem _ he, h⟩)
      · exact .inr (.inr ⟨e, mem_cons_of_mem _ he, h⟩)

theorem KeyStep.exhaust_spent (h : KeyStep shape k s e s') :
    ∀ c, e = .exhaust c → ∃ call, s.phase c = .reading call 0 := by
  rintro c rfl
  cases h with
  | exhaust hphase => exact ⟨_, hphase⟩

theorem initial_noneSpent (t : PgTable shape.baseKey) : (KeyState.initial t).NoneSpent := nofun

/-- Conditional puts and read-modify-write updates of one key make at most three passes. They
never use them up exactly when no row appears between the SELECT and the INSERT of a third pass;
they then return a success, what the condition or the update has refused with, or what the
database reports. -/
theorem retry_budget_iff {t : PgTable shape.baseKey} {trace : List (KeyState shape × KeyEvent)}
    (hrun : Run (KeyStep shape k) (KeyState.initial t) trace s) :
    (∀ c, (trace.filter fun e => e.2.caller = c && e.2.isPass).length ≤ 3) ∧
    ((s.NoneSpent ∧ ∀ e ∈ trace, e.1.NoneSpent) ↔ ∀ e ∈ trace, InsertedInTime k e.1 e.2) ∧
    ((∀ e ∈ trace, InsertedInTime k e.1 e.2) → ∀ c r, s.phase c = .returned r →
      (∃ old, r = .ok old) ∨ ∃ err, r = .error err ∧
        ((∃ call existing, ConditionalCall.On shape k call ∧
          call.action.decide existing = .error err) ∨ ∃ e ∈ trace, e.2 = .abort c err)) := by
  have hiff : (s.NoneSpent ∧ ∀ e ∈ trace, e.1.NoneSpent) ↔
      ∀ e ∈ trace, InsertedInTime k e.1 e.2 := by
    have hstep : ∀ s e s', KeyStep shape k s e s' → s.Sound k ∧ s.NoneSpent →
        (s'.Sound k ∧ s'.NoneSpent ↔ InsertedInTime k s e) := by
      intro s e s' h hs
      rw [← h.noneSpent_iff hs.1 hs.2]
      exact and_iff_right (h.sound hs.1)
    have hboth := hrun.invariant_iff (fun s => s.Sound k ∧ s.NoneSpent) hstep
      ⟨initial_sound t, initial_noneSpent t⟩
    have hsound := hrun.preserved (KeyState.Sound k) (fun _ _ _ => KeyStep.sound) (initial_sound t)
    have hsounds := hrun.preserved_states (KeyState.Sound k) (fun _ _ _ => KeyStep.sound)
      (initial_sound t)
    rw [← hboth]
    exact ⟨fun h => ⟨⟨hsound, h.1⟩, fun e he => ⟨hsounds e he, h.2 e he⟩⟩,
      fun h => ⟨h.1.2, fun e he => (h.2 e he).2⟩⟩
  refine ⟨fun c => ?_, hiff, fun htime c r hr => ?_⟩
  · have hcount := hrun.count_le (fun s => (s.phase c).passesLeft)
      (fun e => e.caller = c && e.isPass) (fun _ _ _ _ (h : True) => h)
      (fun _ _ _ h _ => h.passesLeft_le c) trivial
    have hstart : ((KeyState.initial t).phase c).passesLeft = 3 := rfl
    omega
  · cases r with
    | ok old => exact .inl ⟨old, rfl⟩
    | error err =>
      refine .inr ⟨err, rfl, ?_⟩
      rcases run_returned_error hrun (initial_sound t) nofun hr with h | h | ⟨e, he, hspent⟩
      · exact .inl h
      · exact .inr h
      · -- the step to exhaustion starts from a call with no pass left
        have hnone := (hiff.mpr htime).2 e he
        have hphases := hrun.forall_steps fun _ _ _ h => h.exhaust_spent
        obtain ⟨call, hphase⟩ := hphases e he c hspent
        exact absurd hphase (hnone c call)

section

def deleteOrder : ConditionalCall := ⟨.s "o1", none, .deleteWithCondition fun _ => true⟩

theorem deleteOrder_on : deleteOrder.On sampleSchema.writeShape orderOneKey :=
  @deleteWithCondition_on _ sampleSchema _ _ rfl orderOne rfl fun _ => true

/-- Nobody holds the lock or has an uncommitted write. -/
structure Quiet (s : OrderState) : Prop where
  lock : s.lock = none
  pending : s.pending = none

theorem delete_run {s : OrderState} {c : CallId} (hidle : s.phase c = .idle) (hquiet : Quiet s)
    (hrow : s.table.items orderOneKey ≠ none) :
    ∃ trace s', Run (KeyStep sampleSchema.writeShape orderOneKey) s trace s' ∧ Quiet s' ∧
      s'.table.items orderOneKey = none ∧ ∀ d, d ≠ c → s'.phase d = s.phase d := by
  obtain ⟨item, hitem⟩ := Option.ne_none_iff_exists'.mp hrow
  have hselect : selectForUpdate sampleSchema.writeShape s.table deleteOrder.pk deleteOrder.sk
      = .ok (some item) := by
    rw [selectForUpdate_found deleteOrder_on.fits s.table deleteOrder_on.key, hitem]
  have hleaves := deleteIfFound_leaves deleteOrder_on.fits s.table deleteOrder_on.key
  rw [hitem] at hleaves
  obtain ⟨t, hdelete, hitems⟩ := hleaves
  have hexec : deleteOrder.exec sampleSchema.writeShape s.table (some item) .remove
      = .ok (some t) := by
    rw [ConditionalCall.exec, hdelete]
    rfl
  let s₁ := s.withPhase c (.reading deleteOrder 1)
  let s₂ := { s₁.withPhase c (.writing deleteOrder 0 (some item) .remove) with
    lock := if (some item : Option Json).isSome then some c else s₁.lock }
  let s₃ := { s₂.withPhase c (.committing deleteOrder (some item) .remove) with
    lock := some c, pending := some t }
  have h₁ : KeyStep sampleSchema.writeShape orderOneKey s (.start c deleteOrder) s₁ :=
    .start hidle deleteOrder_on
  have h₂ : KeyStep sampleSchema.writeShape orderOneKey s₁ (.read c) s₂ :=
    .read withPhase_self (.inl hquiet.lock) hselect rfl
  have h₃ : KeyStep sampleSchema.writeShape orderOneKey s₂ (.write c) s₃ :=
    .write withPhase_self hquiet.pending nofun hexec
  have h₄ : KeyStep sampleSchema.writeShape orderOneKey s₃ (.commit c)
      (s₃.afterCommit c deleteOrder (some item) .remove) := .commit withPhase_self
  have hrun := (Run.cons h₁ (.cons h₂ (.cons h₃ (.cons h₄ (.nil _)))))
  refine ⟨_, _, hrun, ⟨?_, ?_⟩, ?_, ?_⟩
  · simp [s₃, KeyState.afterCommit, KeyState.release, KeyState.withPhase]
  · simp [s₃, KeyState.afterCommit, KeyState.release, KeyState.withPhase]
  · have htable : (s₃.afterCommit c deleteOrder (some item) .remove).table = t := by
      simp [s₃, KeyState.afterCommit, KeyState.visible]
    rw [htable, hitems, update_self]
  · intro d hd
    rw [h₄.phase_of_ne hd, h₃.phase_of_ne hd, h₂.phase_of_ne hd, h₁.phase_of_ne hd]

/-- A pass of call 0 finds no order and loses the race to call `c`. -/
theorem lostPass_run {s : OrderState} {c : CallId} {left : Nat} (hc : c ≠ 0)
    (hphase : s.phase 0 = .reading createOrder (left + 1)) (hidle : s.phase c = .idle)
    (hquiet : Quiet s) (hmissing : s.table.items orderOneKey = none) :
    ∃ trace s', Run (KeyStep sampleSchema.writeShape orderOneKey) s trace s' ∧ Quiet s' ∧
      s'.table.items orderOneKey ≠ none ∧ s'.phase 0 = .reading createOrder left ∧
      ∀ d, d ≠ 0 → d ≠ c → s'.phase d = s.phase d := by
  have hselect : selectForUpdate sampleSchema.writeShape s.table createOrder.pk createOrder.sk
      = .ok none := by
    rw [selectForUpdate_found createOrder_on.fits s.table createOrder_on.key, hmissing]
  let s₁ := { s.withPhase 0 (.writing createOrder left none (.store orderOneItem)) with
    lock := if (none : Option Json).isSome then some 0 else s.lock }
  have h₁ : KeyStep sampleSchema.writeShape orderOneKey s (.read 0) s₁ :=
    .read hphase (.inl hquiet.lock) hselect rfl
  have hidle₁ : s₁.phase c = .idle := (withPhase_of_ne hc).trans hidle
  obtain ⟨t, hexec, hitem⟩ := createOrder_inserts s₁.table hmissing
  obtain ⟨trace, hinsert, _, _⟩ := insert_run hidle₁ hquiet.lock hquiet.pending hmissing createOrder_on
    rfl rfl hexec
  have hrow : t.items orderOneKey ≠ none := by
    rw [hitem]
    nofun
  have hwriting : update s₁.phase c (.returned (.ok none)) 0
      = .writing createOrder left none (.store orderOneItem) := by
    rw [update_of_ne hc.symm]
    show (s.withPhase 0 _).phase 0 = _
    exact withPhase_self
  have hrun := (Run.cons h₁ hinsert).concat (.retry hwriting hquiet.pending
    (createOrder_conflicts hrow))
  refine ⟨_, _, hrun, ⟨hquiet.lock, hquiet.pending⟩, hrow, withPhase_self, fun d hd hdc => ?_⟩
  refine (withPhase_of_ne hd).trans ?_
  show update s₁.phase c _ d = s.phase d
  rw [update_of_ne hdc]
  exact withPhase_of_ne hd

/-- Call 0 is about to begin a pass, the order is not there, and later calls have not begun. -/
structure AboutToPass (left n : Nat) (s : OrderState) : Prop where
  quiet : Quiet s
  missing : s.table.items orderOneKey = none
  reading : s.phase 0 = .reading createOrder left
  idle : ∀ c, n ≤ c → s.phase c = .idle

/-- Pass after pass is lost where the order is deleted again. -/
theorem allLost_run {left n : Nat} {s : OrderState} (hn : 0 < n) (h : AboutToPass left n s) :
    ∃ trace s', Run (KeyStep sampleSchema.writeShape orderOneKey) s trace s' ∧
      s'.phase 0 = .reading createOrder 0 := by
  induction left generalizing n s with
  | zero => exact ⟨[], s, .nil _, h.reading⟩
  | succ left ih =>
    obtain ⟨trace₁, s₁, hrun₁, hquiet₁, hrow₁, hphase₁, hkeep₁⟩ :=
      lostPass_run (Nat.ne_of_gt hn) h.reading (h.idle n le_rfl) h.quiet h.missing
    have hidle₁ : ∀ c, n + 1 ≤ c → s₁.phase c = .idle := fun c hc =>
      (hkeep₁ c (Nat.ne_of_gt (by omega)) (Nat.ne_of_gt hc)).trans (h.idle c (by omega))
    obtain ⟨trace₂, s₂, hrun₂, hquiet₂, hrow₂, hkeep₂⟩ :=
      delete_run (hidle₁ (n + 1) le_rfl) hquiet₁ hrow₁
    have hready : AboutToPass left (n + 2) s₂ :=
      ⟨hquiet₂, hrow₂, (hkeep₂ 0 (Nat.ne_of_lt (by omega))).trans hphase₁,
        fun c hc => (hkeep₂ c (Nat.ne_of_gt hc)).trans (hidle₁ c (by omega))⟩
    obtain ⟨trace₃, s₃, hrun₃, hspent⟩ := ih (by omega) hready
    exact ⟨_, s₃, (hrun₁.append hrun₂).append hrun₃, hspent⟩

/-- Three times the order is created between the SELECT and the INSERT of a conditional put, and
deleted before its next SELECT. -/
theorem retry_budget_exhausted : ∃ trace s,
    Run (KeyStep sampleSchema.writeShape orderOneKey) (KeyState.initial PgTable.empty) trace s ∧
      s.phase 0 = .returned (.error (.other
        "put_with_condition_raw exceeded retry budget (possible runaway race contention)")) := by
  let s₀ : OrderState := KeyState.initial PgTable.empty
  have hstart : KeyStep sampleSchema.writeShape orderOneKey s₀ (.start 0 createOrder)
      (s₀.withPhase 0 (.reading createOrder 3)) := .start rfl createOrder_on
  have hready : AboutToPass 3 1 (s₀.withPhase 0 (.reading createOrder 3)) :=
    ⟨⟨rfl, rfl⟩, rfl, withPhase_self, fun c hc => withPhase_of_ne (Nat.ne_of_gt hc)⟩
  obtain ⟨trace, s, hrun, hspent⟩ := allLost_run Nat.one_pos hready
  exact ⟨_, _, (Run.cons hstart hrun).concat (.exhaust hspent rfl), withPhase_self⟩

/-- The put that loses a race makes two passes, and none is the last. -/
theorem retry_budget_iff_race : ∃ trace s,
    Run (KeyStep sampleSchema.writeShape orderOneKey) (KeyState.initial PgTable.empty) trace s ∧
      s.phase 0 = .returned (.error .conditionalCheckFailed) ∧
      (trace.filter fun e => e.2.caller = 0 && e.2.isPass).length = 2 ∧
      (∀ c, (trace.filter fun e => e.2.caller = c && e.2.isPass).length ≤ 3) ∧
      ((s.NoneSpent ∧ ∀ e ∈ trace, e.1.NoneSpent) ↔
        ∀ e ∈ trace, InsertedInTime orderOneKey e.1 e.2) := by
  obtain ⟨trace, s, hrun, hevents, _, hphase, _⟩ := createRace_run
  obtain ⟨hcount, hiff, _⟩ := retry_budget_iff hrun
  refine ⟨trace, s, hrun, hphase, ?_, hcount, hiff⟩
  have hlength := congrArg (fun events => (events.filter fun e : KeyEvent =>
    e.caller = 0 && e.isPass).length) hevents
  rw [filter_map, length_map] at hlength
  exact hlength

end

end Rektifier
