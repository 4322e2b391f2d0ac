import Rektifier.Retry

namespace Rektifier

inductive RecyclingMethod where
  | fast
  | verified
  | clean
deriving DecidableEq

structure PgRetryConfig where
  maxAttempts : UInt32
  initialBackoffMs : UInt64
  maxBackoffMs : UInt64
  jitterPct : UInt32
deriving DecidableEq

structure PgConfig where
  maxPoolSize : UInt32
  waitTimeoutMs : UInt64
  createTimeoutMs : UInt64
  recycleTimeoutMs : UInt64
  recyclingMethod : RecyclingMethod
  retry : PgRetryConfig
deriving DecidableEq

def PgRetryConfig.defaults : PgRetryConfig := ⟨3, 50, 1000, 25⟩

def PgConfig.defaults : PgConfig := ⟨16, 5000, 5000, 1000, .fast, .defaults⟩

structure RawPgRetry where
  maxAttempts : Option UInt32
  initialBackoffMs : Option UInt64
  maxBackoffMs : Option UInt64
  jitterPct : Option UInt32

structure RawPg where
  maxPoolSize : Option UInt32
  waitTimeoutMs : Option UInt64
  createTimeoutMs : Option UInt64
  recycleTimeoutMs : Option UInt64
  recyclingMethod : Option String
  retry : Option RawPgRetry

/-- Checked when given, the default otherwise. -/
def resolveField {α : Type} (refused : α → Bool) (msg : String) (default : α) :
    Option α → Except String α
  | none => .ok default
  | some n => if refused n then .error msg else .ok n

def resolveRecycling (default : RecyclingMethod) : Option String → Except String RecyclingMethod
  | none => .ok default
  | some "fast" => .ok .fast
  | some "verified" => .ok .verified
  | some "clean" => .ok .clean
  | some other => .error
      ("pg.recycling_method `" ++ other ++ "` is not one of fast | verified | clean")

def resolveRetry (out : PgRetryConfig) : Option RawPgRetry → Except String PgRetryConfig
  | none => .ok out
  | some raw => do
    let maxAttempts ← resolveField (· = 0)
      "pg.retry.max_attempts must be > 0 (use 1 to disable retries)" out.maxAttempts raw.maxAttempts
    let initialBackoffMs := raw.initialBackoffMs.getD out.initialBackoffMs
    let maxBackoffMs := raw.maxBackoffMs.getD out.maxBackoffMs
    let jitterPct ← resolveField (· > 100) "pg.retry.jitter_pct must be in 0..=100" out.jitterPct
      raw.jitterPct
    if initialBackoffMs > maxBackoffMs then
      .error "pg.retry.initial_backoff_ms must be <= max_backoff_ms"
    else .ok ⟨maxAttempts, initialBackoffMs, maxBackoffMs, jitterPct⟩

def resolvePg : Option RawPg → Except String PgConfig
  | none => .ok .defaults
  | some raw => do
    let out := PgConfig.defaults
    let maxPoolSize ← resolveField (· = 0) "pg.max_pool_size must be > 0" out.maxPoolSize
      raw.maxPoolSize
    let waitTimeoutMs ← resolveField (· = 0) "pg.wait_timeout_ms must be > 0" out.waitTimeoutMs
      raw.waitTimeoutMs
    let createTimeoutMs ← resolveField (· = 0) "pg.create_timeout_ms must be > 0"
      out.createTimeoutMs raw.createTimeoutMs
    let recycleTimeoutMs ← resolveField (· = 0) "pg.recycle_timeout_ms must be > 0"
      out.recycleTimeoutMs raw.recycleTimeoutMs
    let recyclingMethod ← resolveRecycling out.recyclingMethod raw.recyclingMethod
    let retry ← resolveRetry out.retry raw.retry
    return ⟨maxPoolSize, waitTimeoutMs, createTimeoutMs, recycleTimeoutMs, recyclingMethod, retry⟩

structure BackoffPolicy extends RetryPolicy where
  initialBackoff : UInt64
  maxBackoff : UInt64
  jitterPct : UInt32

def rekRetryPolicy (config : PgConfig) : BackoffPolicy where
  maxAttempts := config.retry.maxAttempts.toNat
  initialBackoff := config.retry.initialBackoffMs
  maxBackoff := config.retry.maxBackoffMs
  jitterPct := config.retry.jitterPct

/-- A plain `u64` operation, where it fits. -/
def plainU64 (n : Nat) : Option Nat := if n < 2 ^ 64 then some n else none

/-- A saturating `u64` operation. -/
def saturated (n : Nat) : Nat := min n (2 ^ 64 - 1)

/-- In milliseconds; none where a plain operation overflows. -/
def backoffForAttempt (policy : BackoffPolicy) (attempt : UInt32) (nanosSeed : UInt64) :
    Option Nat :=
  let baseMs := policy.initialBackoff.toNat
  let maxMs := policy.maxBackoff.toNat
  let expMs := saturated (baseMs * 2 ^ min attempt.toNat 20)
  let capped := min expMs maxMs
  if policy.jitterPct = 0 ∨ capped = 0 then some capped
  else do
    let p := policy.jitterPct.toNat
    let span := saturated (capped * (2 * p)) / 100
    let lo := capped - saturated (capped * p) / 100
    let offset := nanosSeed.toNat % max span 1
    let scaled ← plainU64 (capped * p)
    let hi ← plainU64 (capped + scaled / 100)
    return min (saturated (lo + offset)) hi

/-- The exact wait before the jitter. -/
def BackoffPolicy.exactMs (policy : BackoffPolicy) (attempt : UInt32) : Nat :=
  min (policy.initialBackoff.toNat * 2 ^ min attempt.toNat 20) policy.maxBackoff.toNat

theorem plainU64_eq_some_iff {n m : Nat} : plainU64 n = some m ↔ n < 2 ^ 64 ∧ m = n := by
  unfold plainU64
  split
  · next h =>
    exact ⟨fun heq => ⟨h, (Option.some.inj heq).symm⟩, fun heq => congrArg some heq.2.symm⟩
  · next h => exact ⟨nofun, fun heq => absurd heq.1 h⟩

/-- The cap undoes the saturation. -/
theorem capped_eq_exactMs (policy : BackoffPolicy) (attempt : UInt32) :
    min (saturated (policy.initialBackoff.toNat * 2 ^ min attempt.toNat 20))
      policy.maxBackoff.toNat = policy.exactMs attempt := by
  have hmax := policy.maxBackoff.toNat_lt
  unfold saturated BackoffPolicy.exactMs
  omega

theorem backoffForAttempt_eq (policy : BackoffPolicy) (attempt : UInt32) (seed : UInt64)
    {c p : Nat} (hc : policy.exactMs attempt = c) (hp : policy.jitterPct.toNat = p) :
    backoffForAttempt policy attempt seed =
      if p = 0 ∨ c = 0 then some c
      else do
        let scaled ← plainU64 (c * p)
        let hi ← plainU64 (c + scaled / 100)
        return min (saturated (c - saturated (c * p) / 100
          + seed.toNat % max (saturated (c * (2 * p)) / 100) 1)) hi := by
  have hzero : policy.jitterPct = 0 ↔ p = 0 := by
    rw [← hp, ← UInt32.toNat_inj]
    rfl
  simp only [backoffForAttempt, capped_eq_exactMs, hc, hp, hzero]

/-- The wait is computed, and within the jitter of the exact one, exactly when the jitter's upper
end and its product fit. -/
theorem backoff_within_jitter_iff (policy : BackoffPolicy) (attempt : UInt32) (seed : UInt64) :
    (∃ ms, backoffForAttempt policy attempt seed = some ms ∧
      policy.exactMs attempt - policy.exactMs attempt * policy.jitterPct.toNat / 100 ≤ ms ∧
      ms ≤ policy.exactMs attempt + policy.exactMs attempt * policy.jitterPct.toNat / 100) ↔
    policy.exactMs attempt * policy.jitterPct.toNat < 2 ^ 64 ∧
      policy.exactMs attempt + policy.exactMs attempt * policy.jitterPct.toNat / 100 < 2 ^ 64 := by
  have hfits : policy.exactMs attempt < 2 ^ 64 :=
    lt_of_le_of_lt (min_le_right _ _) policy.maxBackoff.toNat_lt
  generalize hc : policy.exactMs attempt = c at hfits ⊢
  generalize hp : policy.jitterPct.toNat = p
  rw [backoffForAttempt_eq policy attempt seed hc hp]
  by_cases hnone : p = 0 ∨ c = 0
  · -- nothing to jitter
    have hscaled : c * p = 0 := by
      rcases hnone with h | h <;> simp [h]
    rw [if_pos hnone, hscaled]
    simpa using hfits
  · rw [if_neg hnone]
    constructor
    · rintro ⟨ms, hms, _⟩
      obtain ⟨scaled, hscaled, hms⟩ := Option.bind_eq_some_iff.mp hms
      obtain ⟨hi, hhi, _⟩ := Option.bind_eq_some_iff.mp hms
      obtain ⟨hmul, rfl⟩ := plainU64_eq_some_iff.mp hscaled
      exact ⟨hmul, (plainU64_eq_some_iff.mp hhi).1⟩
    · rintro ⟨hmul, hadd⟩
      have hsaturated : saturated (c * p) = c * p := by
        unfold saturated
        omega
      have hscaled : plainU64 (c * p) = some (c * p) := plainU64_eq_some_iff.mpr ⟨hmul, rfl⟩
      have hhi : plainU64 (c + c * p / 100) = some (c + c * p / 100) :=
        plainU64_eq_some_iff.mpr ⟨hadd, rfl⟩
      refine ⟨_, by rw [hscaled, Option.bind_eq_bind, Option.bind_some, hhi]; rfl, ?_, ?_⟩
      · rw [hsaturated]
        unfold saturated
        omega
      · exact min_le_right _ _

/-- Waits as long as a configuration can give, with the usual jitter. -/
def longBackoffs : RawPg :=
  ⟨none, none, none, none, none,
    some ⟨none, some 9223372036854775807, some 9223372036854775807, none⟩⟩

def longBackoffsConfig : PgConfig :=
  { PgConfig.defaults with retry := ⟨3, 9223372036854775807, 9223372036854775807, 25⟩ }

/-- Admitted, and the first wait overflows. -/
theorem long_backoffs_overflow : resolvePg (some longBackoffs) = .ok longBackoffsConfig ∧
    (rekRetryPolicy longBackoffsConfig).exactMs 0 = 2 ^ 63 - 1 ∧
    backoffForAttempt (rekRetryPolicy longBackoffsConfig) 0 0 = none := by
  decide +kernel

end Rektifier
