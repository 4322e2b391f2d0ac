import Rektifier.TtlCache
import Rektifier.Runs

/-- A value, that there is none, or a failure that says neither. -/
inductive Judged (α ε : Type*) where
  | value (a : α)
  | absent (e : ε)
  | failed (e : ε)

/-- Readers ask a cache, then the store, and cache what they found. A read of the store takes at
most the latency. -/
structure CachedReads (κ ρ α ε : Type*) where
  ttl : Nat
  negativeTtl : Nat
  latency : Nat
  judge : κ → ρ → Judged α ε
  /-- What a cached absence is answered with. -/
  missing : ε

namespace CachedReads

open Function

/-- Where a reader stands; what it read is cached with the time it has it. -/
inductive Phase (α ε : Type*) where
  | begun
  | reading (since : Nat)
  | answered (since : Nat) (judged : Judged α ε)
  | holding (a : α) (fetchedAt : Nat)
  | storing (a : α) (fetchedAt : Nat)
  | refusing (e : ε)
  | done (result : Except ε α)

structure Task (κ α ε : Type*) where
  key : κ
  startedAt : Nat
  phase : Phase α ε

structure State (κ ρ α ε : Type*) where
  now : Nat
  rows : κ → ρ
  cache : TtlCache κ (α × Nat)
  tasks : Nat → Option (Task κ α ε)

inductive Event (κ ρ : Type*) where
  | start (id : Nat) (k : κ)
  | advance (id : Nat)
  | change (rows : κ → ρ)
  | tick (now : Nat)

variable {κ ρ α ε : Type*} [DecidableEq κ]

inductive Advance (c : CachedReads κ ρ α ε) (s : State κ ρ α ε) (task : Task κ α ε) :
    Phase α ε → TtlCache κ (α × Nat) → Prop
  | hit {a} : task.phase = .begun → s.cache.get s.now task.key = some (some a) →
      Advance c s task (.done (.ok a.1)) s.cache
  | hitNegative : task.phase = .begun → s.cache.get s.now task.key = some none →
      Advance c s task (.done (.error c.missing)) s.cache
  | miss : task.phase = .begun → s.cache.get s.now task.key = none →
      Advance c s task (.reading s.now) s.cache
  | answer {since} : task.phase = .reading since →
      Advance c s task (.answered since (c.judge task.key (s.rows task.key))) s.cache
  | fail {since e} : task.phase = .reading since →
      Advance c s task (.answered since (.failed e)) s.cache
  | finishValue {since a} : task.phase = .answered since (.value a) → s.now ≤ since + c.latency →
      Advance c s task (.holding a s.now) s.cache
  | finishAbsent {since e} : task.phase = .answered since (.absent e) → s.now ≤ since + c.latency →
      Advance c s task (.refusing e) s.cache
  | finishFailed {since e} : task.phase = .answered since (.failed e) → s.now ≤ since + c.latency →
      Advance c s task (.done (.error e)) s.cache
  | dropNegative {a fetchedAt} : task.phase = .holding a fetchedAt →
      Advance c s task (.storing a fetchedAt) (s.cache.removeNegative task.key)
  | store {a fetchedAt} : task.phase = .storing a fetchedAt →
      Advance c s task (.done (.ok a))
        (s.cache.putPositive task.key (a, fetchedAt) (fetchedAt + c.ttl))
  | storeNegative {e} : task.phase = .refusing e →
      Advance c s task (.done (.error e))
        (s.cache.insertNegative task.key (s.now + c.negativeTtl))

/-- One step of a reader, of the store's owner or of the clock. -/
inductive Step (c : CachedReads κ ρ α ε) : State κ ρ α ε → Event κ ρ → State κ ρ α ε → Prop
  | start {s id k} : s.tasks id = none → Step c s (.start id k)
      { s with tasks := update s.tasks id (some ⟨k, s.now, .begun⟩) }
  | advance {s id task phase cache} : s.tasks id = some task → Advance c s task phase cache →
      Step c s (.advance id) { s with
        cache := cache, tasks := update s.tasks id (some { task with phase := phase }) }
  | change {s rows} : Step c s (.change rows) { s with rows := rows }
  | tick {s now} : s.now ≤ now → Step c s (.tick now) { s with now := now }

/-- The time a reader's work is dated with. -/
def Phase.time? : Phase α ε → Option Nat
  | .reading since | .answered since _ => some since
  | .holding _ fetchedAt | .storing _ fetchedAt => some fetchedAt
  | .begun | .refusing _ | .done _ => none

/-- Cached values die within a lifetime from now, and readers began before what their work is dated
with. -/
structure Timely (c : CachedReads κ ρ α ε) (s : State κ ρ α ε) : Prop where
  cached : ∀ k a expiresAt, s.cache.positive k = some (a, expiresAt) → expiresAt ≤ s.now + c.ttl
  started : ∀ id task, s.tasks id = some task → task.startedAt ≤ s.now
  dated : ∀ id task time, s.tasks id = some task → task.phase.time? = some time →
    task.startedAt ≤ time ∧ time ≤ s.now

/-- What a reader may still do for a key that had its last value at `t`. -/
def Task.Fades (c : CachedReads κ ρ α ε) (t : Nat) (task : Task κ α ε) : Prop :=
  match task.phase with
  | .answered since (.value _) => since ≤ t
  | .holding _ fetchedAt | .storing _ fetchedAt => fetchedAt ≤ t + c.latency
  | .done (.ok _) => task.startedAt ≤ t + c.ttl + c.latency
  | _ => True

/-- A key had its last value at `t`. -/
structure Fading (c : CachedReads κ ρ α ε) (k : κ) (t : Nat) (s : State κ ρ α ε) : Prop where
  timely : Timely c s
  cached : ∀ a expiresAt, s.cache.positive k = some (a, expiresAt) →
    expiresAt ≤ t + c.ttl + c.latency
  tasks : ∀ id task, s.tasks id = some task → task.key = k → task.Fades c t

section Steps

variable {c : CachedReads κ ρ α ε} {s s' : State κ ρ α ε} {event : Event κ ρ} {task : Task κ α ε}
  {phase : Phase α ε} {cache : TtlCache κ (α × Nat)} {k : κ} {t : Nat}

theorem Advance.time (h : Advance c s task phase cache) {time : Nat}
    (htime : phase.time? = some time) :
    time = s.now ∨ task.phase.time? = some time := by
  cases h with
  | miss | finishValue => exact .inl (Option.some.inj htime).symm
  | answer hphase | fail hphase | dropNegative hphase => exact .inr (by rw [hphase]; exact htime)
  | hit | hitNegative | finishAbsent | finishFailed | store | storeNegative => cases htime

theorem Advance.cached (h : Advance c s task phase cache) {a : α × Nat} {expiresAt : Nat}
    (hcached : cache.positive k = some (a, expiresAt)) :
    s.cache.positive k = some (a, expiresAt) ∨
      ∃ b fetchedAt, task.key = k ∧ task.phase = .storing b fetchedAt ∧
        expiresAt = fetchedAt + c.ttl := by
  cases h with
  | @store b fetchedAt hphase =>
    by_cases hkey : k = task.key
    · subst hkey
      have hnew := (update_self ..).symm.trans hcached
      exact .inr ⟨b, fetchedAt, rfl, hphase, (Prod.mk.inj (Option.some.inj hnew)).2.symm⟩
    · exact .inl ((update_of_ne hkey ..).symm.trans hcached)
  | _ => exact .inl hcached

theorem Step.now_le (h : Step c s event s') : s.now ≤ s'.now := by
  cases h with
  | tick hlater => exact hlater
  | start | advance | change => exact Nat.le_refl _

/-- A reader is as it was, has just begun, or has gone on. -/
theorem Step.task_cases (h : Step c s event s') {id : Nat} (htask : s'.tasks id = some task) :
    s.tasks id = some task ∨ (task.startedAt = s.now ∧ task.phase = .begun) ∨
      ∃ old phase cache, s.tasks id = some old ∧ task = { old with phase := phase } ∧
        Advance c s old phase cache := by
  cases h with
  | @start id' k hfree =>
    by_cases hid : id = id'
    · subst hid
      have htask := (update_self ..).symm.trans htask
      cases htask
      exact .inr (.inl ⟨rfl, rfl⟩)
    · exact .inl ((update_of_ne hid ..).symm.trans htask)
  | @advance id' old phase cache hold hadvance =>
    by_cases hid : id = id'
    · subst hid
      have htask := (update_self ..).symm.trans htask
      cases htask
      exact .inr (.inr ⟨old, phase, cache, hold, rfl, hadvance⟩)
    · exact .inl ((update_of_ne hid ..).symm.trans htask)
  | change | tick => exact .inl htask

theorem Step.cached (h : Step c s event s') {a : α × Nat} {expiresAt : Nat}
    (hcached : s'.cache.positive k = some (a, expiresAt)) :
    s.cache.positive k = some (a, expiresAt) ∨
      ∃ id task b fetchedAt, s.tasks id = some task ∧ task.key = k ∧
        task.phase = .storing b fetchedAt ∧ expiresAt = fetchedAt + c.ttl := by
  cases h with
  | @advance id task phase cache htask hadvance =>
    rcases hadvance.cached hcached with hcached | ⟨b, fetchedAt, hkey, hphase, hexpires⟩
    · exact .inl hcached
    · exact .inr ⟨id, task, b, fetchedAt, htask, hkey, hphase, hexpires⟩
  | start | change | tick => exact .inl hcached

theorem Timely.step (h : Timely c s) (hstep : Step c s event s') : Timely c s' := by
  have hnow := hstep.now_le
  refine ⟨?_, ?_, ?_⟩
  · intro k a expiresAt hcached
    rcases hstep.cached hcached with hcached | ⟨id, task, b, fetchedAt, htask, _, hphase, rfl⟩
    · have hold := h.cached k a expiresAt hcached
      omega
    · have hdated := (h.dated id task fetchedAt htask (by rw [hphase]; rfl)).2
      omega
  · intro id task htask
    rcases hstep.task_cases htask with hold | ⟨hstarted, _⟩ | ⟨old, phase, cache, hold, rfl, _⟩
    · have hbegun := h.started id task hold
      omega
    · omega
    · have hbegun := h.started id old hold
      exact Nat.le_trans hbegun hnow
  · intro id task time htask htime
    rcases hstep.task_cases htask with hold | ⟨_, hphase⟩ | ⟨old, phase, cache, hold, rfl, hadvance⟩
    · obtain ⟨hbegun, hdated⟩ := h.dated id task time hold htime
      exact ⟨hbegun, Nat.le_trans hdated hnow⟩
    · rw [hphase] at htime
      cases htime
    · rcases hadvance.time htime with rfl | htime
      · exact ⟨h.started id old hold, hnow⟩
      · obtain ⟨hbegun, hdated⟩ := h.dated id old time hold htime
        exact ⟨hbegun, Nat.le_trans hdated hnow⟩

theorem Fading.advance (h : Fading c k t s) (hgone : ∀ a, c.judge k (s.rows k) ≠ .value a)
    {id : Nat}
    (htask : s.tasks id = some task) (hkey : task.key = k)
    (hadvance : Advance c s task phase cache) :
    Task.Fades c t { task with phase := phase } := by
  have hfades := h.tasks id task htask hkey
  have hstarted := h.timely.started id task htask
  cases hadvance with
  | @hit a hphase hget =>
    obtain ⟨expiresAt, hcached, hlives⟩ := TtlCache.get_eq_value_iff.mp hget
    rw [hkey] at hcached
    have hexpires := h.cached a expiresAt hcached
    show task.startedAt ≤ t + c.ttl + c.latency
    omega
  | hitNegative | miss | fail | finishAbsent | finishFailed | storeNegative => exact trivial
  | @answer since hphase =>
    rw [hkey]
    cases hjudged : c.judge k (s.rows k) with
    | value a => exact absurd hjudged (hgone a)
    | absent | failed => exact trivial
  | @finishValue since a hphase hinTime =>
    have hsince : since ≤ t := by simpa [Task.Fades, hphase] using hfades
    show s.now ≤ t + c.latency
    omega
  | @dropNegative a fetchedAt hphase =>
    simpa [Task.Fades, hphase] using hfades
  | @store a fetchedAt hphase =>
    have hfetched : fetchedAt ≤ t + c.latency := by simpa [Task.Fades, hphase] using hfades
    have hbegun := (h.timely.dated id task fetchedAt htask (by rw [hphase]; rfl)).1
    show task.startedAt ≤ t + c.ttl + c.latency
    omega

theorem Fading.step (h : Fading c k t s) (hgone : ∀ a, c.judge k (s.rows k) ≠ .value a)
    (hstep : Step c s event s') : Fading c k t s' := by
  refine ⟨h.timely.step hstep, ?_, ?_⟩
  · intro a expiresAt hcached
    rcases hstep.cached hcached with hcached | ⟨id, task, b, fetchedAt, htask, hkey, hphase, rfl⟩
    · exact h.cached a expiresAt hcached
    · have hfades := h.tasks id task htask hkey
      have hfetched : fetchedAt ≤ t + c.latency := by simpa [Task.Fades, hphase] using hfades
      omega
  · intro id task htask hkey
    rcases hstep.task_cases htask with hold | ⟨_, hphase⟩ | ⟨old, phase, cache, hold, rfl, hadvance⟩
    · exact h.tasks id task hold hkey
    · simp [Task.Fades, hphase]
    · exact h.advance hgone hold hkey hadvance

omit [DecidableEq κ] in
/-- Up to its last value, nothing of a key is from later. -/
theorem Timely.fading (h : Timely c s) (k : κ) : Fading c k s.now s := by
  refine ⟨h, ?_, ?_⟩
  · intro a expiresAt hcached
    have hlives := h.cached k a expiresAt hcached
    omega
  · intro id task htask _
    have hstarted := h.started id task htask
    have hdated := h.dated id task
    unfold Task.Fades
    split
    · next since _ hphase => exact (hdated since htask (by rw [hphase]; rfl)).2
    · next a fetchedAt hphase =>
      have := (hdated fetchedAt htask (by rw [hphase]; rfl)).2
      omega
    · next a fetchedAt hphase =>
      have := (hdated fetchedAt htask (by rw [hphase]; rfl)).2
      omega
    · omega
    · exact trivial

/-- A lost value is served to no reader that begins later than a lifetime and a latency after. -/
theorem startedAt_le_of_served {trace : List (State κ ρ α ε × Event κ ρ)} (h : Timely c s)
    (hrun : Run (Step c) s trace s') (hgone : ∀ e ∈ trace, ∀ a, c.judge k (e.1.rows k) ≠ .value a)
    {id : Nat} {a : α} (htask : s'.tasks id = some task) (hkey : task.key = k)
    (hserved : task.phase = .done (.ok a)) : task.startedAt ≤ s.now + c.ttl + c.latency := by
  have hfading : Fading c k s.now s' :=
    hrun.invariant (Fading c k s.now) (fun _ _ _ hstep hgone hi => hi.step hgone hstep) hgone
      (h.fading k)
  simpa [Task.Fades, hserved] using hfading.tasks id task htask hkey

end Steps

end CachedReads
