import Rektifier.SnapshotReads

namespace Rektifier

open List

section

variable {schema : TableSchema} {k : PgKey}

theorem putItem_on {item : Item} {pk : KeyValue} {sk : Option KeyValue}
    (hkey : extractKeyPair item schema = .ok (pk, sk)) (hk : addressedKey pk sk = .ok k) :
    (KeyStatement.mk pk sk (.putItem (Item.toValue item))).On schema.writeShape k := by
  obtain ⟨hfit, hgen⟩ := extractKeyPair_spec hkey
  refine ⟨hfit, hk, ?_, not_mem_nil, fun _ _ _ => not_mem_nil, nofun⟩
  intro stored hstored
  cases hstored
  exact hgen.trans hk

end

variable {shape : TableShape} {k : PgKey} {s s' : StatementState shape} {e : StatementEvent}

structure StatementState.Sound (k : PgKey) (s : StatementState shape) : Prop where
  on : ∀ c st snapshot, s.phase c = .running st snapshot → st.On shape k
  /-- the history is what the calls that succeeded have returned -/
  returned : ∀ c outcome, s.phase c = .returned (.ok outcome) ↔ (c, outcome) ∈ s.history
  once : (s.history.map Prod.fst).Nodup

/-- A call that has not yet returned and does not succeed now. -/
theorem StatementState.Sound.advance (h : s.Sound k) {c : CallId} {phase : StatementPhase shape}
    (hon : ∀ st snapshot, phase = .running st snapshot → st.On shape k)
    (hbefore : ∀ outcome, s.phase c ≠ .returned (.ok outcome))
    (hafter : ∀ outcome, phase ≠ .returned (.ok outcome)) :
    StatementState.Sound k { s with phase := Function.update s.phase c phase } where
  on d st snapshot hd := by
    by_cases hdc : d = c
    · subst hdc
      exact hon st snapshot ((Function.update_self d phase s.phase).symm.trans hd)
    · exact h.on d st snapshot ((Function.update_of_ne hdc phase s.phase).symm.trans hd)
  returned d outcome := by
    rw [← h.returned d outcome]
    by_cases hdc : d = c
    · subst hdc
      show Function.update s.phase d phase d = _ ↔ _
      rw [Function.update_self]
      exact ⟨fun heq => absurd heq (hafter outcome), fun heq => absurd heq (hbefore outcome)⟩
    · show Function.update s.phase c phase d = _ ↔ _
      rw [Function.update_of_ne hdc]
  once := h.once

theorem StatementStep.sound (h : StatementStep shape k s e s') (hs : s.Sound k) : s'.Sound k := by
  cases h with
  | start hphase hon =>
    refine hs.advance ?_ ?_ nofun
    · intro st snapshot heq
      cases heq
      exact hon
    · intro outcome heq
      rw [hphase] at heq
      cases heq
  | @write c st snapshot t outcome hphase hrun =>
    have hfresh : ∀ outcome', (c, outcome') ∉ s.history := by
      intro outcome' hmem
      have heq := (hs.returned c outcome').mpr hmem
      rw [hphase] at heq
      cases heq
    refine ⟨?_, ?_, ?_⟩
    · intro d st' snapshot' hd
      by_cases hdc : d = c
      · subst hdc
        have heq : Function.update s.phase d (.returned (.ok outcome)) d = _ := hd
        rw [Function.update_self] at heq
        cases heq
      · have heq : Function.update s.phase c (.returned (.ok outcome)) d = _ := hd
        rw [Function.update_of_ne hdc] at heq
        exact hs.on d st' snapshot' heq
    · intro d outcome'
      show Function.update s.phase c (.returned (.ok outcome)) d = _ ↔ _ ∈ s.history ++ _
      rw [mem_append, mem_singleton]
      by_cases hdc : d = c
      · subst hdc
        rw [Function.update_self]
        constructor
        · intro heq
          cases heq
          exact .inr rfl
        · rintro (hmem | heq)
          · exact absurd hmem (hfresh outcome')
          · cases heq
            rfl
      · rw [Function.update_of_ne hdc, hs.returned d outcome']
        constructor
        · exact .inl
        · rintro (hmem | heq)
          · exact hmem
          · cases heq
            exact absurd rfl hdc
    · show ((s.history ++ [(c, outcome)]).map Prod.fst).Nodup
      rw [map_append, nodup_append]
      refine ⟨hs.once, nodup_singleton _, ?_⟩
      intro a ha b hb
      cases mem_singleton.mp hb
      obtain ⟨⟨d, outcome'⟩, hmem, rfl⟩ := mem_map.mp ha
      rintro rfl
      exact hfresh outcome' hmem
  | fail hphase =>
    refine hs.advance nofun ?_ nofun
    intro outcome heq
    rw [hphase] at heq
    cases heq

theorem StatementState.initial_sound (t : PgTable shape.baseKey) :
    (StatementState.initial t).Sound k :=
  ⟨nofun, fun _ _ => ⟨nofun, fun h => absurd h not_mem_nil⟩, nodup_nil⟩

/-- A statement that writes finds the item of its snapshot: no other call has changed the row
since. -/
def SnapshotCurrent (k : PgKey) (s : StatementState shape) (e : StatementEvent) : Prop :=
  ∀ c, e = .write c → ∀ st snapshot, s.phase c = .running st snapshot →
    snapshot.items k = s.table.items k

theorem StatementStep.keepsHistory (h : StatementStep shape k s e s') (hs : s.Sound k) :
    KeepsHistory (fun s : StatementState shape => s.table.items k) StatementState.links
      (SnapshotCurrent k) s e s' := by
  cases h with
  | start | fail => exact .inl ⟨rfl, rfl, nofun⟩
  | @write c st snapshot t outcome hphase hrun =>
    obtain ⟨hold, hnew⟩ := KeyStatement.run_ok (hs.on c st snapshot hphase) hrun
    refine .inr ⟨⟨outcome.oldItem, some outcome.newItem⟩, by simp [StatementState.links], ?_,
      fun _ => hnew⟩
    constructor
    · intro hcurrent
      exact hold.trans (hcurrent c rfl st snapshot hphase)
    · intro hlink c' hc st' snapshot' hphase'
      cases hc
      cases hphase.symm.trans hphase'
      exact hold.symm.trans hlink

/-- The pairs returned by the calls that succeeded are one chain of versions, from the item at the
start to the one that is there. -/
structure OneChain (k : PgKey) (first : Option Json) (s : StatementState shape) : Prop where
  chained : Chained first s.links (s.table.items k)
  returned : ∀ c outcome, s.phase c = .returned (.ok outcome) ↔ (c, outcome) ∈ s.history
  once : (s.history.map Prod.fst).Nodup

/-- Each call's old item is the version it has overwritten exactly when no statement writes a row
that was changed after its snapshot. -/
theorem statement_pairs_chain_iff {t : PgTable shape.baseKey}
    {trace : List (StatementState shape × StatementEvent)}
    (hrun : Run (StatementStep shape k) (StatementState.initial t) trace s) :
    OneChain k (t.items k) s ↔ ∀ e ∈ trace, SnapshotCurrent k e.1 e.2 := by
  have hsound : s.Sound k :=
    hrun.preserved (StatementState.Sound k) (fun _ _ _ h hs => h.sound hs)
      (StatementState.initial_sound t)
  have hchain : Chained (t.items k) s.links (s.table.items k) ↔
      ∀ e ∈ trace, SnapshotCurrent k e.1 e.2 :=
    hrun.chained_iff (fun _ _ _ h hs => h.sound hs) (fun _ _ _ h hs => h.keepsHistory hs)
      (StatementState.initial_sound t) rfl
  rw [← hchain]
  exact ⟨OneChain.chained, fun h => ⟨h, hsound.returned, hsound.once⟩⟩

section

def orderWith (status : String) : Item := OrderedMap.ofList [("id", .s "o1"), ("status", .s status)]

def putKey : PgKey := (.text "o1", none)

def putOrder (status : String) : KeyStatement :=
  ⟨.s "o1", none, .putItem (Item.toValue (orderWith status))⟩

theorem putOpen_on : (putOrder "open").On sampleSchema.writeShape putKey := putItem_on rfl rfl

theorem putPaid_on : (putOrder "paid").On sampleSchema.writeShape putKey := putItem_on rfl rfl

/-- Two puts are started on a missing row; one fails, and is made again once the other is
through. -/
theorem statement_pairs_chain_retried :
    ∃ trace s, Run (StatementStep sampleSchema.writeShape putKey)
      (StatementState.initial PgTable.empty) trace s ∧
      s.history.map Prod.fst = [0, 2] ∧ OneChain putKey none s := by
  obtain ⟨t₁, outcome₁, hrun₁⟩ := KeyStatement.run_putItem_exists putOpen_on rfl rfl
    PgTable.empty PgTable.empty
  obtain ⟨t₂, outcome₂, hrun₂⟩ := KeyStatement.run_putItem_exists putPaid_on rfl rfl t₁ t₁
  let s₀ : StatementState sampleSchema.writeShape := StatementState.initial PgTable.empty
  let s₁ := { s₀ with phase := Function.update s₀.phase 0 (.running (putOrder "open") s₀.table) }
  let s₂ := { s₁ with phase := Function.update s₁.phase 1 (.running (putOrder "paid") s₁.table) }
  let s₃ : StatementState sampleSchema.writeShape :=
    ⟨t₁, Function.update s₂.phase 0 (.returned (.ok outcome₁)), [(0, outcome₁)]⟩
  let s₄ := { s₃ with phase := Function.update s₃.phase 1 (.returned (.error (.other "lost"))) }
  let s₅ := { s₄ with phase := Function.update s₄.phase 2 (.running (putOrder "paid") t₁) }
  let s₆ : StatementState sampleSchema.writeShape :=
    ⟨t₂, Function.update s₅.phase 2 (.returned (.ok outcome₂)), [(0, outcome₁), (2, outcome₂)]⟩
  have hsteps : Run (StatementStep sampleSchema.writeShape putKey) s₀
      [(s₀, .start 0 (putOrder "open")), (s₁, .start 1 (putOrder "paid")), (s₂, .write 0),
        (s₃, .fail 1 (.other "lost")), (s₄, .start 2 (putOrder "paid")), (s₅, .write 2)] s₆ :=
    .cons (.start rfl putOpen_on) (.cons (.start rfl putPaid_on) (.cons (.write rfl hrun₁)
      (.cons (.fail rfl) (.cons (.start rfl putPaid_on) (.cons (.write rfl hrun₂) (.nil _))))))
  refine ⟨_, s₆, hsteps, rfl, (statement_pairs_chain_iff hsteps).mpr ?_⟩
  intro e he c hc st snapshot hphase
  simp only [mem_cons, not_mem_nil, or_false] at he
  rcases he with rfl | rfl | rfl | rfl | rfl | rfl <;> cases hc
  · cases hphase
    rfl
  · cases hphase
    rfl

/-- Two puts are started on a missing row. The second waits for the first, overwrites its item, and
returns that there was none. -/
theorem concurrent_puts_both_insert :
    ∃ trace s, Run (StatementStep sampleSchema.writeShape putKey)
      (StatementState.initial PgTable.empty) trace s ∧
      s.links.map Link.old = [none, none] ∧ ¬ OneChain putKey none s := by
  obtain ⟨t₁, outcome₁, hrun₁⟩ := KeyStatement.run_putItem_exists putOpen_on rfl rfl
    PgTable.empty PgTable.empty
  obtain ⟨t₂, outcome₂, hrun₂⟩ := KeyStatement.run_putItem_exists putPaid_on rfl rfl
    PgTable.empty t₁
  have hold₁ := (KeyStatement.run_ok putOpen_on hrun₁).1
  have hold₂ := (KeyStatement.run_ok putPaid_on hrun₂).1
  let s₀ : StatementState sampleSchema.writeShape := StatementState.initial PgTable.empty
  let s₁ := { s₀ with phase := Function.update s₀.phase 0 (.running (putOrder "open") s₀.table) }
  let s₂ := { s₁ with phase := Function.update s₁.phase 1 (.running (putOrder "paid") s₁.table) }
  let s₃ : StatementState sampleSchema.writeShape :=
    ⟨t₁, Function.update s₂.phase 0 (.returned (.ok outcome₁)), [(0, outcome₁)]⟩
  let s₄ : StatementState sampleSchema.writeShape :=
    ⟨t₂, Function.update s₃.phase 1 (.returned (.ok outcome₂)), [(0, outcome₁), (1, outcome₂)]⟩
  have hsteps : Run (StatementStep sampleSchema.writeShape putKey) s₀
      [(s₀, .start 0 (putOrder "open")), (s₁, .start 1 (putOrder "paid")), (s₂, .write 0),
        (s₃, .write 1)] s₄ :=
    .cons (.start rfl putOpen_on) (.cons (.start rfl putPaid_on)
      (.cons (.write rfl hrun₁) (.cons (.write rfl hrun₂) (.nil _))))
  refine ⟨_, s₄, hsteps, ?_, ?_⟩
  · show [outcome₁.oldItem, outcome₂.oldItem] = [none, none]
    rw [hold₁, hold₂]
    rfl
  · intro hchain
    obtain ⟨_, hlink, _⟩ := hchain.chained
    have hbroken : outcome₂.oldItem = some outcome₁.newItem := hlink
    rw [hold₂] at hbroken
    cases hbroken

end

end Rektifier
