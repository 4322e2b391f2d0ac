import Rektifier.StatementChain

namespace Rektifier

/-- The backoff between attempts is left out. -/
structure RetryPolicy where
  maxAttempts : Nat

def isTransientSqlstate (sqlstate : String) : Bool :=
  if sqlstate.utf8ByteSize < 5 then false
  else sqlstate.toList.take 2 = ['0', '8'] || sqlstate.toList.take 2 = ['5', '3'] ||
    sqlstate ∈ ["40001", "40P01", "57P01", "57P02", "57P03", "57P04", "57P05"]

def isRetryable : BackendError → Bool
  | .poolExhausted _ | .connectFailed _ => true
  | .pgError e => isTransientSqlstate e.sqlstate
  | .conditionalCheckFailed | .tableNotFound _ | .missingSortKey _ | .unexpectedSortKey _
  | .transactionCancelled _ | .evalFailed _ | .other _ => false

/-- `f` is given the number of the attempt; `left` may follow this one. -/
def withRetryFrom {σ α : Type} (f : Nat → σ → σ × Except BackendError α) :
    Nat → Nat → σ → σ × Except BackendError α
  | 0, attempt, s => f attempt s
  | left + 1, attempt, s =>
    match f attempt s with
    | (s, .ok v) => (s, .ok v)
    | (s, .error e) => if isRetryable e then withRetryFrom f left (attempt + 1) s else (s, .error e)

def withRetry {σ α : Type} (policy : RetryPolicy) (f : Nat → σ → σ × Except BackendError α)
    (s : σ) : σ × Except BackendError α :=
  withRetryFrom f (policy.maxAttempts - 1) 0 s

inductive RetriedCall where
  | updateSimple (pk : KeyValue) (sk : Option KeyValue) (insertItem : Json)
      (sets : List (String × Json)) (removes : List String)
  | updateWithSimpleCondition (pk : KeyValue) (sk : Option KeyValue)
      (sets : List (String × Json)) (removes : List String) (condition : Condition)
  | updateInsertOnly (insertItem : Json)

def RetriedCall.exec (shape : TableShape) (t : PgTable shape.baseKey) :
    RetriedCall → Except BackendError (PgTable shape.baseKey × UpdateOutcome)
  | .updateSimple pk sk insertItem sets removes =>
    updateSimpleRaw shape t pk sk insertItem sets removes
  | .updateWithSimpleCondition pk sk sets removes condition =>
    updateWithSimpleConditionRaw shape t pk sk sets removes condition
  | .updateInsertOnly insertItem => updateInsertOnlyRaw shape t insertItem

def RetriedCall.On (shape : TableShape) (k : PgKey) : RetriedCall → Prop
  | .updateSimple pk sk insertItem sets removes =>
    (KeyStatement.mk pk sk (.updateSimple insertItem sets removes)).On shape k
  | .updateWithSimpleCondition pk sk sets removes condition =>
    (KeyStatement.mk pk sk (.updateWithSimpleCondition sets removes condition)).On shape k
  | .updateInsertOnly insertItem => generatedKey shape.baseKey insertItem = .ok k

/-- No connection, a statement not committed, one answered, one executed whose answer does not
arrive. -/
inductive AttemptFate where
  | noClient (e : PoolError)
  | failed (e : PgError)
  | answered
  | replyLost

/-- The table, and what the call has done to the row so far. -/
structure RetryWorld (shape : TableShape) where
  table : PgTable shape.baseKey
  effects : List (Link (Option Json))

/-- As `map_pg_err` reports it. -/
def transportError : BackendError := .pgError (.reported "08000")

section

variable {shape : TableShape}

def RetryWorld.effect (w : RetryWorld shape) (k : PgKey) (t : PgTable shape.baseKey) :
    RetryWorld shape := ⟨t, w.effects ++ [⟨w.table.items k, t.items k⟩]⟩

def RetriedCall.attempt (k : PgKey) (call : RetriedCall) (fate : AttemptFate)
    (w : RetryWorld shape) : RetryWorld shape × Except BackendError UpdateOutcome :=
  match fate with
  | .noClient e => (w, .error (classifyPoolError e))
  | .failed e => (w, .error (mapPgErr shape.table e))
  | .answered => match call.exec shape w.table with
    | .ok (t, outcome) => (w.effect k t, .ok outcome)
    | .error e => (w, .error e)
  | .replyLost => match call.exec shape w.table with
    | .ok (t, _) => (w.effect k t, .error transportError)
    | .error _ => (w, .error transportError)

/-- `left` attempts may follow the next one. -/
structure RetryState (shape : TableShape) where
  world : RetryWorld shape
  left : Nat
  result : Option (Except BackendError UpdateOutcome)

def RetryState.after (s : RetryState shape) (w : RetryWorld shape) :
    Except BackendError UpdateOutcome → RetryState shape
  | .ok outcome => { s with world := w, result := some (.ok outcome) }
  | .error e => match isRetryable e, s.left with
    | true, left + 1 => { s with world := w, left := left }
    | _, _ => { s with world := w, result := some (.error e) }

end

inductive RetryEvent (shape : TableShape) where
  /-- other clients' statements -/
  | others (t : PgTable shape.baseKey)
  | attempt (fate : AttemptFate)

inductive RetryStep (shape : TableShape) (k : PgKey) (call : RetriedCall) (s : RetryState shape) :
    RetryEvent shape → RetryState shape → Prop
  | others (t : PgTable shape.baseKey) :
      RetryStep shape k call s (.others t) { s with world := { s.world with table := t } }
  | attempt {fate : AttemptFate} : s.result = none →
      RetryStep shape k call s (.attempt fate)
        (s.after (call.attempt k fate s.world).1 (call.attempt k fate s.world).2)

def RetryState.start {shape : TableShape} (policy : RetryPolicy) (t : PgTable shape.baseKey) :
    RetryState shape := ⟨⟨t, []⟩, policy.maxAttempts - 1, none⟩

/-- The attempts are a run: before each, other clients make of the table what they like. -/
theorem withRetryFrom_steps {shape : TableShape} {k : PgKey} (call : RetriedCall)
    (others : Nat → PgTable shape.baseKey → PgTable shape.baseKey) (fate : Nat → AttemptFate)
    (left attempt : Nat) (w : RetryWorld shape) :
    let r := withRetryFrom (fun i w => call.attempt k (fate i) { w with table := others i w.table })
      left attempt w
    ∃ trace left', Run (RetryStep shape k call) ⟨w, left, none⟩ trace ⟨r.1, left', some r.2⟩ := by
  induction left generalizing attempt w with
  | zero =>
    intro r
    let w' : RetryWorld shape := { w with table := others attempt w.table }
    refine ⟨[(⟨w, 0, none⟩, .others w'.table), (⟨w', 0, none⟩, .attempt (fate attempt))], 0,
      .cons (.others _) (.cons ?_ (.nil _))⟩
    have hstep : RetryStep shape k call ⟨w', 0, none⟩ (.attempt (fate attempt)) _ := .attempt rfl
    have hlast : ∀ x : RetryWorld shape × Except BackendError UpdateOutcome,
        (RetryState.mk w' 0 none).after x.1 x.2 = ⟨x.1, 0, some x.2⟩ := by
      rintro ⟨w'', e | outcome⟩
      · simp only [RetryState.after]
        cases isRetryable e <;> rfl
      · rfl
    rw [hlast] at hstep
    exact hstep
  | succ left ih =>
    intro r
    let w' : RetryWorld shape := { w with table := others attempt w.table }
    have hothers : RetryStep shape k call ⟨w, left + 1, none⟩ (.others w'.table)
        ⟨w', left + 1, none⟩ := .others _
    have hstep : RetryStep shape k call ⟨w', left + 1, none⟩ (.attempt (fate attempt)) _ :=
      .attempt rfl
    rcases hattempt : call.attempt k (fate attempt) w' with ⟨w'', e | outcome⟩
    · rw [hattempt] at hstep
      by_cases hretry : isRetryable e
      · obtain ⟨trace, left', hrest⟩ := ih (attempt + 1) w''
        have hr : r = withRetryFrom (fun i w => call.attempt k (fate i)
            { w with table := others i w.table }) left (attempt + 1) w'' := by
          simp only [r, withRetryFrom, w'] at hattempt ⊢
          rw [hattempt]
          simp only [hretry, if_true]
        rw [hr]
        simp only [RetryState.after, hretry] at hstep
        exact ⟨_, left', .cons hothers (.cons hstep hrest)⟩
      · have hr : r = (w'', .error e) := by
          simp only [r, withRetryFrom, w'] at hattempt ⊢
          rw [hattempt]
          simp only [hretry]
          rfl
        rw [hr]
        simp only [RetryState.after, hretry] at hstep
        exact ⟨_, left + 1, .cons hothers (.cons hstep (.nil _))⟩
    · rw [hattempt] at hstep
      have hr : r = (w'', .ok outcome) := by
        simp only [r, withRetryFrom, w'] at hattempt ⊢
        rw [hattempt]
      rw [hr]
      exact ⟨_, left + 1, .cons hothers (.cons hstep (.nil _))⟩

/-- The loop of the source is a run, from the start of a call and from every later attempt. -/
theorem withRetryFrom_run {shape : TableShape} {k : PgKey} (call : RetriedCall)
    (others : Nat → PgTable shape.baseKey → PgTable shape.baseKey) (fate : Nat → AttemptFate) :
    let f := fun i (w : RetryWorld shape) =>
      call.attempt k (fate i) { w with table := others i w.table }
    (∀ policy t, ∃ trace left', Run (RetryStep shape k call) (.start policy t) trace
      ⟨(withRetry policy f ⟨t, []⟩).1, left', some (withRetry policy f ⟨t, []⟩).2⟩) ∧
    ∀ left attempt w, ∃ trace left', Run (RetryStep shape k call) ⟨w, left, none⟩ trace
      ⟨(withRetryFrom f left attempt w).1, left', some (withRetryFrom f left attempt w).2⟩ :=
  ⟨fun policy t => withRetryFrom_steps call others fate (policy.maxAttempts - 1) 0 ⟨t, []⟩,
    fun left attempt w => withRetryFrom_steps call others fate left attempt w⟩

end Rektifier
