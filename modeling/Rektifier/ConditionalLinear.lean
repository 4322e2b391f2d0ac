import Rektifier.ConditionalSound

namespace Rektifier

open List Function

variable {shape : TableShape} {k : PgKey} {s s' : KeyState shape} {c : CallId} {e : KeyEvent}
  {call : ConditionalCall}

/-- A delete that found no row commits while there still is none. -/
def AbsenceLasts (k : PgKey) (s : KeyState shape) (e : KeyEvent) : Prop :=
  ∀ c, e = .commit c → ∀ call, s.phase c = .committing call none .remove → s.table.items k = none

theorem absenceLasts_of_ne (h : ∀ c, e ≠ .commit c) : AbsenceLasts k s e :=
  fun c hc => absurd hc (h c)

def KeyState.links (s : KeyState shape) : List (Link (Option Json)) :=
  s.history.map CommittedCall.link

theorem release_table (s : KeyState shape) (c : CallId) : (s.release c).table = s.table := by
  rcases release_cases s c with ⟨_, h⟩ | ⟨_, h⟩ <;> rw [h]

theorem release_history (s : KeyState shape) (c : CallId) : (s.release c).history = s.history := by
  rcases release_cases s c with ⟨_, h⟩ | ⟨_, h⟩ <;> rw [h]

theorem KeyStep.keepsHistory (h : KeyStep shape k s e s') (hs : s.Sound k) :
    KeepsHistory (fun s : KeyState shape => s.table.items k) KeyState.links (AbsenceLasts k) s e s' := by
  cases h with
  | @commit c call existing change hphase =>
    refine .inr ⟨⟨existing, change.left⟩, by simp [KeyState.links, CommittedCall.link, KeyState.afterCommit], ?_, ?_⟩
    · constructor
      · intro hlasts
        rcases commit_cases hs hphase with ⟨⟨rfl, rfl⟩, _⟩ | ⟨_, _, hitem, _⟩
        · exact (hlasts c rfl call hphase).symm
        · exact hitem.symm
      · intro hitem c' hc call' hphase'
        cases hc
        cases hphase.symm.trans hphase'
        exact hitem.symm
    · intro hlasts
      rcases commit_cases hs hphase with ⟨⟨rfl, rfl⟩, _, hvisible⟩ | ⟨_, _, _, hleft⟩
      · show (s.visible c).items k = none
        rw [hvisible]
        exact hlasts c rfl call hphase
      · exact hleft
  | @abort c err _ _ =>
    have htable := release_table s c
    have hhistory := release_history s c
    exact .inl ⟨congrArg (List.map CommittedCall.link) hhistory,
      congrArg (fun t : PgTable shape.baseKey => t.items k) htable, absenceLasts_of_ne (by simp)⟩
  | _ => exact .inl ⟨rfl, rfl, absenceLasts_of_ne (by simp)⟩

/-- In the order of their commits the calls that returned Ok have each decided on the item the one
before left, and returned it, and the last has left the item that is there. -/
structure LinearOn (k : PgKey) (first : Option Json) (s : KeyState shape) : Prop where
  chained : Chained first s.links (s.table.items k)
  decided : ∀ entry ∈ s.history, entry.Decided
  returned : ∀ c old, s.phase c = .returned (.ok old) ↔
    ∃ entry ∈ s.history, entry.id = c ∧ entry.old = old
  once : (s.history.map CommittedCall.id).Nodup

/-- A call that reads no row and stores an item, alone. -/
theorem insert_run {t : PgTable shape.baseKey} {item : Json} {left : Nat}
    (hidle : s.phase c = .idle)
    (hlock : s.lock = none) (hpending : s.pending = none) (hmissing : s.table.items k = none)
    (hon : call.On shape k) (hpasses : call.action.passes = left + 1)
    (hdecide : call.action.decide none = .ok (.store item))
    (hexec : call.exec shape s.table none (.store item) = .ok (some t)) :
    ∃ trace, Run (KeyStep shape k) s trace
      { s with
        table := t
        phase := update s.phase c (.returned (.ok none))
        history := s.history ++ [⟨c, call, none, some item⟩] } ∧
      trace.map Prod.snd = [.start c call, .read c, .write c, .commit c] ∧
      ∀ e ∈ trace, AbsenceLasts k e.1 e.2 := by
  have hselect : selectForUpdate shape s.table call.pk call.sk = .ok none := by
    rw [selectForUpdate_found hon.fits s.table hon.key, hmissing]
  let s₁ := s.withPhase c (.reading call call.action.passes)
  have hp₁ : s₁.phase c = .reading call (left + 1) := by
    rw [← hpasses]
    exact update_self ..
  let s₂ := { s₁.withPhase c (.writing call left none (.store item)) with
    lock := if (none : Option Json).isSome then some c else s₁.lock }
  have hp₂ : s₂.phase c = .writing call left none (.store item) := update_self ..
  let s₃ := { s₂.withPhase c (.committing call none (.store item)) with
    lock := some c, pending := some t }
  have hp₃ : s₃.phase c = .committing call none (.store item) := update_self ..
  have h₁ : KeyStep shape k s (.start c call) s₁ := .start hidle hon
  have h₂ : KeyStep shape k s₁ (.read c) s₂ := .read hp₁ (.inl hlock) hselect hdecide
  have h₃ : KeyStep shape k s₂ (.write c) s₃ := by
    refine .write hp₂ hpending ?_ hexec
    intro h
    cases h
  have h₄ : KeyStep shape k s₃ (.commit c) (s₃.afterCommit c call none (.store item)) := .commit hp₃
  refine ⟨[(s, .start c call), (s₁, .read c), (s₂, .write c), (s₃, .commit c)], ?_, rfl, ?_⟩
  · have hlast : s₃.afterCommit c call none (.store item) = { s with
        table := t
        phase := update s.phase c (.returned (.ok none))
        history := s.history ++ [⟨c, call, none, some item⟩] } := by
      simp [s₃, s₂, s₁, KeyState.afterCommit, KeyState.release, KeyState.visible,
        KeyState.withPhase, RowChange.left, hlock, hpending]
    rw [hlast] at h₄
    exact .cons h₁ (.cons h₂ (.cons h₃ (.cons h₄ (.nil _))))
  · intro e he
    simp only [mem_cons, not_mem_nil, or_false] at he
    rcases he with rfl | rfl | rfl | rfl
    · exact absenceLasts_of_ne (by simp)
    · exact absenceLasts_of_ne (by simp)
    · exact absenceLasts_of_ne (by simp)
    · intro c' hc call' hphase
      cases hc
      cases hp₃.symm.trans hphase

/-- Conditional puts, conditional deletes and read-modify-write updates of one key are linear
exactly when every delete that found no row commits while there still is none. -/
theorem conditional_calls_linear_iff {t : PgTable shape.baseKey}
    {trace : List (KeyState shape × KeyEvent)}
    (hrun : Run (KeyStep shape k) (KeyState.initial t) trace s) :
    LinearOn k (t.items k) s ↔ ∀ e ∈ trace, AbsenceLasts k e.1 e.2 := by
  have hsound : s.Sound k :=
    hrun.preserved (KeyState.Sound k) (fun _ _ _ => KeyStep.sound) (initial_sound t)
  have hchain : Chained (t.items k) s.links (s.table.items k) ↔
      ∀ e ∈ trace, AbsenceLasts k e.1 e.2 :=
    hrun.chained_iff (fun _ _ _ h hs => h.sound hs) (fun _ _ _ h hs => h.keepsHistory hs)
      (initial_sound t) rfl
  rw [← hchain]
  exact ⟨LinearOn.chained, fun h => ⟨h, hsound.decided, hsound.returned, hsound.once⟩⟩

section

def orderOne : Item := OrderedMap.ofList [("id", .s "o1")]

def orderOneKey : PgKey := (.text "o1", none)

def idMissing (existing : Option Json) : Bool :=
  evaluateCondition existing (.attributeNotExists (.attr "id"))

def createOrder : ConditionalCall :=
  ⟨.s "o1", none, .putWithCondition (Item.toValue orderOne) idMissing⟩

def deleteIfMissing : ConditionalCall := ⟨.s "o1", none, .deleteWithCondition idMissing⟩

theorem createOrder_on : createOrder.On sampleSchema.writeShape orderOneKey :=
  putWithCondition_on rfl rfl idMissing

theorem createOrder_inserts (t : sampleSchema.Table) (h : t.items orderOneKey = none) :
    ∃ t', createOrder.exec sampleSchema.writeShape t none (.store (Item.toValue orderOne))
        = .ok (some t') ∧ t'.items orderOneKey = some (Item.toValue orderOne) := by
  have hwrite := writeLocked_cases createOrder_on.fits createOrder_on.key
    (createOrder_on.stores PgTable.empty _ rfl) t
  rw [show (t.rows orderOneKey).map PgRow.data = none from h] at hwrite
  rcases hwrite with ⟨_, t', he, hwrote⟩ | ⟨hno, _⟩
  · exact ⟨t', he, hwrote.row⟩
  · cases hno

abbrev OrderState := KeyState sampleSchema.writeShape

def orderOneItem : Json := Item.toValue orderOne

theorem createOrder_conflicts {t : sampleSchema.Table} (h : t.items orderOneKey ≠ none) :
    createOrder.exec sampleSchema.writeShape t none (.store orderOneItem) = .ok none := by
  have hgen : generatedKey sampleSchema.writeShape.baseKey orderOneItem = .ok orderOneKey := rfl
  have hinsert : (buildInsertOnlySql sampleSchema.writeShape).insert.eval [.jsonb orderOneItem]
      .null = .ok orderOneItem := rfl
  rcases insertOnlySql_exec hinsert hgen t with ⟨hno | ⟨hnone, _⟩, _⟩ | ⟨_, _, hexec⟩ | ⟨_, hnone, _⟩
  · cases hno
  · exact absurd (by rw [PgTable.items, hnone]; rfl) h
  · show writeLocked sampleSchema.writeShape t _ _ none orderOneItem = _
    rw [writeLocked, if_neg (by simp), hexec]
    rfl
  · exact absurd (by rw [PgTable.items, hnone]; rfl) h

/-- Call 0 finds no row, call 1 inserts it, and call 0 goes round again to find its condition
false. -/
theorem createRace_run : ∃ trace s,
    Run (KeyStep sampleSchema.writeShape orderOneKey) (KeyState.initial PgTable.empty) trace s ∧
      trace.map Prod.snd = [.start 0 createOrder, .read 0, .start 1 createOrder, .read 1, .write 1,
        .commit 1, .retry 0, .refuse 0] ∧
      s.links = [⟨none, some orderOneItem⟩] ∧
      s.phase 0 = .returned (.error .conditionalCheckFailed) ∧
      ∀ e ∈ trace, AbsenceLasts orderOneKey e.1 e.2 := by
  obtain ⟨t, hexec, hitem⟩ := createOrder_inserts PgTable.empty rfl
  let s₀ : OrderState := KeyState.initial PgTable.empty
  let s₁ := s₀.withPhase 0 (.reading createOrder 3)
  let s₂ := { s₁.withPhase 0 (.writing createOrder 2 none (.store orderOneItem)) with
    lock := if (none : Option Json).isSome then some 0 else s₁.lock }
  have hselect : selectForUpdate sampleSchema.writeShape s₁.table createOrder.pk createOrder.sk
      = .ok none := selectForUpdate_found createOrder_on.fits _ createOrder_on.key
  have hfind : Run (KeyStep sampleSchema.writeShape orderOneKey) s₀
      [(s₀, .start 0 createOrder), (s₁, .read 0)] s₂ :=
    .cons (.start rfl createOrder_on) (.cons (.read rfl (.inl rfl) hselect rfl) (.nil _))
  obtain ⟨trace, hput, hevents, hlasts⟩ :=
    insert_run (s := s₂) (c := 1) rfl rfl rfl rfl createOrder_on rfl rfl hexec
  let s₃ : OrderState := { s₂ with
    table := t
    phase := update s₂.phase 1 (.returned (.ok none))
    history := [⟨1, createOrder, none, some orderOneItem⟩] }
  have hrow : t.items orderOneKey ≠ none := by
    rw [hitem]
    simp
  have hselect' : selectForUpdate sampleSchema.writeShape t createOrder.pk createOrder.sk
      = .ok (some orderOneItem) := by
    rw [selectForUpdate_found createOrder_on.fits t createOrder_on.key, hitem]
    rfl
  have hretry : KeyStep sampleSchema.writeShape orderOneKey s₃ (.retry 0)
      (s₃.withPhase 0 (.reading createOrder 2)) := .retry rfl rfl (createOrder_conflicts hrow)
  have hrefuse : KeyStep sampleSchema.writeShape orderOneKey
      (s₃.withPhase 0 (.reading createOrder 2)) (.refuse 0) _ :=
    .refuse rfl (.inl rfl) hselect' rfl
  refine ⟨_, _, ((hfind.append hput).concat hretry).concat hrefuse, ?_, rfl, rfl, ?_⟩
  · simp only [map_append, hevents]
    rfl
  · simp only [forall_mem_append, forall_mem_cons, not_mem_nil, false_imp_iff,
      implies_true, and_true]
    exact ⟨⟨⟨⟨absenceLasts_of_ne (by simp), absenceLasts_of_ne (by simp)⟩, hlasts⟩,
      absenceLasts_of_ne (by simp)⟩, absenceLasts_of_ne (by simp)⟩

/-- The race of two puts is linear. -/
theorem conditional_calls_linear_race :
    ∃ trace s, Run (KeyStep sampleSchema.writeShape orderOneKey)
      (KeyState.initial PgTable.empty) trace s ∧ s.links = [⟨none, some (Item.toValue orderOne)⟩] ∧
      s.phase 0 = .returned (.error .conditionalCheckFailed) ∧ LinearOn orderOneKey none s := by
  obtain ⟨trace, s, hrun, _, hlinks, hphase, hlasts⟩ := createRace_run
  exact ⟨trace, s, hrun, hlinks, hphase, (conditional_calls_linear_iff hrun).mpr hlasts⟩

/-- A delete finds no row and takes no lock; a put creates the item and commits; the delete commits
as a success on a missing item, and the item is there. -/
theorem absent_delete_commits_late :
    ∃ trace s, Run (KeyStep sampleSchema.writeShape orderOneKey)
      (KeyState.initial PgTable.empty) trace s ∧
      s.links = [⟨none, some (Item.toValue orderOne)⟩, ⟨none, none⟩] ∧
      s.table.items orderOneKey = some (Item.toValue orderOne) ∧ ¬ LinearOn orderOneKey none s := by
  obtain ⟨t, hexec, hitem⟩ := createOrder_inserts PgTable.empty rfl
  let s₀ : KeyState sampleSchema.writeShape := KeyState.initial PgTable.empty
  let s₁ := s₀.withPhase 0 (.reading deleteIfMissing 1)
  let s₂ := { s₁.withPhase 0 (.writing deleteIfMissing 0 none .remove) with
    lock := if (none : Option Json).isSome then some 0 else s₁.lock }
  let s₃ := s₂.withPhase 0 (.committing deleteIfMissing none .remove)
  have hon : deleteIfMissing.On sampleSchema.writeShape orderOneKey :=
    @deleteWithCondition_on _ sampleSchema _ _ rfl orderOne rfl idMissing
  have hselect : selectForUpdate sampleSchema.writeShape s₁.table (.s "o1") none = .ok none :=
    selectForUpdate_found hon.fits _ hon.key
  have hfind : Run (KeyStep sampleSchema.writeShape orderOneKey) s₀
      [(s₀, .start 0 deleteIfMissing), (s₁, .read 0), (s₂, .skip 0)] s₃ :=
    .cons (.start rfl hon) (.cons (.read rfl (.inl rfl) hselect rfl) (.cons (.skip rfl) (.nil _)))
  obtain ⟨trace, hput, _, _⟩ := insert_run (s := s₃) (c := 1) rfl rfl rfl rfl createOrder_on rfl rfl hexec
  let s₄ : KeyState sampleSchema.writeShape :=
    { s₃ with
      table := t
      phase := update s₃.phase 1 (.returned (.ok none))
      history := [⟨1, createOrder, none, some (Item.toValue orderOne)⟩] }
  have hlate : KeyStep sampleSchema.writeShape orderOneKey s₄ (.commit 0)
      (s₄.afterCommit 0 deleteIfMissing none .remove) := .commit rfl
  refine ⟨_, _, (hfind.append hput).concat hlate, rfl, hitem, ?_⟩
  intro hlinear
  obtain ⟨_, hold, _⟩ := hlinear.chained
  cases hold

end

end Rektifier
