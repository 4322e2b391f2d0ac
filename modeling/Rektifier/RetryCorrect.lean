import Rektifier.Retry

namespace Rektifier

variable {shape : TableShape} {k : PgKey} {call : RetriedCall} {s s' : RetryState shape}
  {e : RetryEvent shape}

/-- It has found no row and leaves the item it returns. -/
theorem updateInsertOnlyRaw_ok {insertItem : Json} {t t' : PgTable shape.baseKey}
    {outcome : UpdateOutcome} (hk : generatedKey shape.baseKey insertItem = .ok k)
    (h : updateInsertOnlyRaw shape t insertItem = .ok (t', outcome)) :
    outcome.oldItem = t.items k ∧ t'.items k = some outcome.newItem := by
  obtain ⟨_, _, h⟩ := Fallible.bind_ok h
  obtain ⟨r, hexec, h⟩ := Fallible.bind_ok h
  have hinsert : (buildInsertOnlySql shape).insert.eval [.jsonb insertItem] .null
      = .ok insertItem := rfl
  have hexec := pgResult_ok hexec
  rcases insertOnlySql_exec hinsert hk t with
    ⟨_, e, he⟩ | ⟨_, _, he⟩ | ⟨_, hnone, t'', he, hwrote⟩
  · cases he.symm.trans hexec
  · cases he.symm.trans hexec
    cases h
  · cases he.symm.trans hexec
    cases h
    exact ⟨by rw [PgTable.items, hnone]; rfl, hwrote.row⟩

/-- One execution returns the row it found and the row it leaves. -/
theorem RetriedCall.exec_ok (hon : call.On shape k) {t t' : PgTable shape.baseKey}
    {outcome : UpdateOutcome} (h : call.exec shape t = .ok (t', outcome)) :
    outcome.oldItem = t.items k ∧ t'.items k = some outcome.newItem := by
  cases call with
  | updateSimple pk sk insertItem sets removes =>
    exact KeyStatement.run_ok hon
      ((KeyStatement.run_updateSimple shape t pk sk insertItem sets removes).trans h)
  | updateWithSimpleCondition pk sk sets removes condition =>
    exact KeyStatement.run_ok hon
      ((KeyStatement.run_updateWithSimpleCondition shape t pk sk sets removes condition).trans h)
  | updateInsertOnly insertItem => exact updateInsertOnlyRaw_ok hon h

/-- The caller has seen one atomic execution of the update, or none. -/
structure OneExecution (s : RetryState shape) : Prop where
  atMostOnce : s.world.effects.length ≤ 1
  refused : s.result = some (.error .conditionalCheckFailed) → s.world.effects = []
  succeeded : ∀ outcome, s.result = some (.ok outcome) →
    s.world.effects = [⟨outcome.oldItem, some outcome.newItem⟩]

/-- The reply of an attempt that writes is lost only at the last attempt. -/
def LostAtLast (call : RetriedCall) (s : RetryState shape) (e : RetryEvent shape) : Prop :=
  e = .attempt .replyLost → s.left = 0 ∨ ∀ r, call.exec shape s.world.table ≠ .ok r

/-- While the call goes on, it has done nothing. -/
structure RetryState.Sound (s : RetryState shape) : Prop where
  one : OneExecution s
  waiting : s.result = none → s.world.effects = []

theorem after_error_sound {w : RetryWorld shape} {err : BackendError} (hresult : s.result = none)
    (hw : w.effects = []) : (s.after w (.error err)).Sound := by
  have hw' : w.effects.length ≤ 1 := by
    rw [hw]
    exact Nat.zero_le 1
  simp only [RetryState.after]
  split
  · refine ⟨⟨hw', fun _ => hw, ?_⟩, fun _ => hw⟩
    intro outcome h
    cases hresult.symm.trans h
  · refine ⟨⟨hw', fun _ => hw, ?_⟩, fun _ => hw⟩
    intro outcome h
    cases h

/-- A lost reply ends the call when no attempt may follow. -/
theorem after_lost_sound {w : RetryWorld shape} (hleft : s.left = 0) (hw : w.effects.length ≤ 1) :
    (s.after w (.error transportError)).Sound := by
  have hafter : s.after w (.error transportError)
      = { s with world := w, result := some (.error transportError) } := by
    simp only [RetryState.after, hleft]
    cases isRetryable transportError <;> rfl
  rw [hafter]
  refine ⟨⟨hw, ?_, ?_⟩, ?_⟩
  · intro h
    cases h
  · intro outcome h
    cases h
  · intro h
    cases h

theorem RetryStep.sound (hon : call.On shape k) (h : RetryStep shape k call s e s')
    (hlost : LostAtLast call s e) (hs : s.Sound) : s'.Sound := by
  cases h with
  | others t => exact ⟨⟨hs.one.atMostOnce, hs.one.refused, hs.one.succeeded⟩, hs.waiting⟩
  | @attempt fate hresult =>
    have hnone := hs.waiting hresult
    have heffect : ∀ t, (s.world.effect k t).effects
        = [⟨s.world.table.items k, t.items k⟩] := by
      intro t
      rw [RetryWorld.effect, hnone]
      rfl
    cases fate with
    | noClient err | failed err => exact after_error_sound hresult hnone
    | answered =>
      simp only [RetriedCall.attempt]
      rcases hexec : call.exec shape s.world.table with err | ⟨t, outcome⟩
      · exact after_error_sound hresult hnone
      · obtain ⟨hold, hnew⟩ := RetriedCall.exec_ok hon hexec
        refine ⟨⟨?_, nofun, ?_⟩, nofun⟩
        · show (s.world.effect k t).effects.length ≤ 1
          rw [heffect]
          exact Nat.le_refl 1
        · intro outcome' houtcome
          cases houtcome
          show (s.world.effect k t).effects = _
          rw [heffect, ← hold, hnew]
    | replyLost =>
      simp only [RetriedCall.attempt]
      rcases hexec : call.exec shape s.world.table with err | ⟨t, outcome⟩
      · exact after_error_sound hresult hnone
      · rcases hlost rfl with hleft | hrefused
        · refine after_lost_sound hleft ?_
          rw [heffect]
          exact Nat.le_refl 1
        · exact absurd hexec (hrefused _)

/-- With any statements of other clients in between, a retried call whose written replies are lost
at the last attempt only is one atomic execution for its caller, in every state it reaches. -/
theorem retried_call_executes_once (hon : call.On shape k) {policy : RetryPolicy}
    {t : PgTable shape.baseKey} {trace : List (RetryState shape × RetryEvent shape)}
    (hrun : Run (RetryStep shape k call) (RetryState.start policy t) trace s)
    (hlost : ∀ e ∈ trace, LostAtLast call e.1 e.2) : OneExecution s := by
  have hstart : (RetryState.start policy t).Sound := ⟨⟨Nat.zero_le 1, nofun, nofun⟩, fun _ => rfl⟩
  exact (hrun.invariant RetryState.Sound (fun _ _ _ h hl hs => h.sound hon hl hs) hlost hstart).one

def createOpenOrder : RetriedCall := .updateInsertOnly (Item.toValue (orderWith "open"))

theorem createOpenOrder_on : createOpenOrder.On sampleSchema.writeShape putKey := rfl

/-- No connection at first, then an answer. -/
theorem retried_call_executes_once_sample :
    ∃ trace s, Run (RetryStep sampleSchema.writeShape putKey createOpenOrder)
      (RetryState.start ⟨3⟩ PgTable.empty) trace s ∧ s.world.effects.length = 1 ∧
      OneExecution s := by
  let s₀ : RetryState sampleSchema.writeShape := RetryState.start ⟨3⟩ PgTable.empty
  let s₁ := s₀.after (createOpenOrder.attempt putKey (.noClient .closed) s₀.world).1
    (createOpenOrder.attempt putKey (.noClient .closed) s₀.world).2
  let s₂ := s₁.after (createOpenOrder.attempt putKey .answered s₁.world).1
    (createOpenOrder.attempt putKey .answered s₁.world).2
  have hrun : Run (RetryStep sampleSchema.writeShape putKey createOpenOrder) s₀
      [(s₀, .attempt (.noClient .closed)), (s₁, .attempt .answered)] s₂ :=
    .cons (.attempt rfl) (.cons (.attempt rfl) (.nil _))
  refine ⟨_, s₂, hrun, rfl, retried_call_executes_once createOpenOrder_on hrun ?_⟩
  intro e he
  simp only [List.mem_cons, List.not_mem_nil, or_false] at he
  rcases he with rfl | rfl
  · nofun
  · nofun

/-- The order is created, the reply is lost, and the second attempt reports that the condition
failed. -/
theorem lost_reply_reported_as_refusal :
    ∃ trace s, Run (RetryStep sampleSchema.writeShape putKey createOpenOrder)
      (RetryState.start ⟨3⟩ PgTable.empty) trace s ∧
      s.result = some (.error .conditionalCheckFailed) ∧
      s.world.effects = [⟨none, some (Item.toValue (orderWith "open"))⟩] ∧ ¬ OneExecution s := by
  let s₀ : RetryState sampleSchema.writeShape := RetryState.start ⟨3⟩ PgTable.empty
  let s₁ := s₀.after (createOpenOrder.attempt putKey .replyLost s₀.world).1
    (createOpenOrder.attempt putKey .replyLost s₀.world).2
  let s₂ := s₁.after (createOpenOrder.attempt putKey .answered s₁.world).1
    (createOpenOrder.attempt putKey .answered s₁.world).2
  have hrun : Run (RetryStep sampleSchema.writeShape putKey createOpenOrder) s₀
      [(s₀, .attempt .replyLost), (s₁, .attempt .answered)] s₂ :=
    .cons (.attempt rfl) (.cons (.attempt rfl) (.nil _))
  have hresult : s₂.result = some (.error .conditionalCheckFailed) := rfl
  have heffects : s₂.world.effects = [⟨none, some (Item.toValue (orderWith "open"))⟩] := rfl
  refine ⟨_, s₂, hrun, hresult, heffects, ?_⟩
  intro hone
  have hnone := hone.refused hresult
  rw [heffects] at hnone
  cases hnone

end Rektifier
