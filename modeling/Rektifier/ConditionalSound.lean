import Rektifier.ConditionalStatements

namespace Rektifier

open List Function

variable {phase : CallPhase} {shape : TableShape} {k : PgKey} {s s' : KeyState shape} {c : CallId}
  {e : KeyEvent} {call : ConditionalCall} {existing : Option Json} {change : RowChange}

/-- Only a call that found or wrote a row holds the lock, and then the committed item is the one it
has read. -/
def PhaseHolds (k : PgKey) (s : KeyState shape) (c : CallId) : CallPhase → Prop
  | .idle | .returned _ => s.lock ≠ some c
  | .reading call _ => call.On shape k ∧ s.lock ≠ some c
  | .writing call _ existing change => call.On shape k ∧ call.action.decide existing = .ok change ∧
      match existing with
      | none => s.lock ≠ some c
      | some item => s.lock = some c ∧ s.pending = none ∧ s.table.items k = some item
  | .committing call existing change => call.action.decide existing = .ok change ∧
      if existing = none ∧ change = .remove then s.lock ≠ some c
      else s.lock = some c ∧ s.table.items k = existing ∧
        ∃ t, s.pending = some t ∧ t.items k = change.left

/-- Its condition and update were evaluated on the pre-image it returned. -/
def CommittedCall.Decided (entry : CommittedCall) : Prop :=
  ∃ change, entry.call.action.decide entry.old = .ok change ∧ entry.new = change.left

structure KeyState.Sound (k : PgKey) (s : KeyState shape) : Prop where
  phases : ∀ c, PhaseHolds k s c (s.phase c)
  unlocked : s.lock = none → s.pending = none
  decided : ∀ entry ∈ s.history, entry.Decided
  /-- the committed calls are those that have returned Ok -/
  returned : ∀ c old, s.phase c = .returned (.ok old) ↔
    ∃ entry ∈ s.history, entry.id = c ∧ entry.old = old
  once : (s.history.map CommittedCall.id).Nodup

theorem PhaseHolds.of_unlocked (h : PhaseHolds k s c phase)
    (hfree : s.lock ≠ some c) (hfree' : s'.lock ≠ some c) : PhaseHolds k s' c phase := by
  cases phase with
  | idle => exact hfree'
  | reading call left => exact ⟨h.1, hfree'⟩
  | writing call left existing change =>
    refine ⟨h.1, h.2.1, ?_⟩
    cases existing with
    | none => exact hfree'
    | some item => exact absurd h.2.2.1 hfree
  | committing call existing change =>
    refine ⟨h.1, ?_⟩
    have h := h.2
    split at h
    next hskip =>
      rw [if_pos hskip]
      exact hfree'
    next => exact absurd h.1 hfree
  | returned result => exact hfree'

/-- A step of another call leaves what a call knows: it touches neither lock nor table, or the call
never held the lock. -/
theorem PhaseHolds.frame {d : CallId} (h : PhaseHolds k s d phase) (hne : d ≠ c)
    (hframe : (s'.lock = s.lock ∧ s'.pending = s.pending ∧ s'.table = s.table) ∨
      ((s.lock = none ∨ s.lock = some c) ∧ (s'.lock = none ∨ s'.lock = some c))) :
    PhaseHolds k s' d phase := by
  rcases hframe with ⟨hlock, hpending, htable⟩ | ⟨hbefore, hafter⟩
  · have heq : PhaseHolds k s' d phase = PhaseHolds k s d phase := by
      cases phase <;> simp only [PhaseHolds, hlock, hpending, htable]
    rw [heq]
    exact h
  · have hother : ∀ {lock : Option CallId}, lock = none ∨ lock = some c → lock ≠ some d := by
      rintro lock (rfl | rfl) heq
      · cases heq
      · exact hne (Option.some.inj heq).symm
    exact h.of_unlocked (hother hbefore) (hother hafter)

theorem KeyState.Sound.advance (h : s.Sound k)
    (hphase : s'.phase = update s.phase c phase) (hhistory : s'.history = s.history)
    (hframe : (s'.lock = s.lock ∧ s'.pending = s.pending ∧ s'.table = s.table) ∨
      ((s.lock = none ∨ s.lock = some c) ∧ (s'.lock = none ∨ s'.lock = some c)))
    (hown : PhaseHolds k s' c phase) (hunlocked : s'.lock = none → s'.pending = none)
    {before : CallPhase} (hsource : s.phase c = before)
    (hbefore : ∀ old, before ≠ .returned (.ok old)) (hafter : ∀ old, phase ≠ .returned (.ok old)) :
    s'.Sound k where
  phases d := by
    rw [hphase]
    by_cases hd : d = c
    · subst hd
      rw [update_self]
      exact hown
    · rw [update_of_ne hd]
      exact (h.phases d).frame hd hframe
  unlocked := hunlocked
  decided := by
    rw [hhistory]
    exact h.decided
  returned d old := by
    rw [hphase, hhistory, ← h.returned d old]
    by_cases hd : d = c
    · subst hd
      rw [update_self]
      rw [hsource]
      exact ⟨fun heq => absurd heq (hafter old), fun heq => absurd heq (hbefore old)⟩
    · rw [update_of_ne hd]
  once := by
    rw [hhistory]
    exact h.once

section

variable (hs : s.Sound k) {left : Nat}

include hs

theorem KeyState.Sound.reading (hphase : s.phase c = .reading call left) :
    call.On shape k ∧ s.lock ≠ some c := by
  have h := hs.phases c
  rwa [hphase] at h

theorem KeyState.Sound.writing (hphase : s.phase c = .writing call left existing change) :
    PhaseHolds k s c (.writing call left existing change) := hphase ▸ hs.phases c

theorem KeyState.Sound.committing (hphase : s.phase c = .committing call existing change) :
    PhaseHolds k s c (.committing call existing change) := hphase ▸ hs.phases c

theorem read_sound (hphase : s.phase c = .reading call (left + 1))
    (hfree : s.lock = none ∨ s.table.items k = none)
    (hselect : selectForUpdate shape s.table call.pk call.sk = .ok existing)
    (hdecide : call.action.decide existing = .ok change) :
    KeyState.Sound k { s.withPhase c (.writing call left existing change) with
      lock := if existing.isSome then some c else s.lock } := by
  obtain ⟨hon, hlock⟩ := hs.reading hphase
  rw [selectForUpdate_found hon.fits s.table hon.key] at hselect
  have hitem := Except.ok.inj hselect
  rcases existing with _ | item
  · exact hs.advance rfl rfl (.inl ⟨rfl, rfl, rfl⟩) ⟨hon, hdecide, hlock⟩ hs.unlocked hphase nofun
      nofun
  · have hnone : s.lock = none := by
      rcases hfree with h | h
      · exact h
      · rw [hitem] at h
        cases h
    exact hs.advance rfl rfl (.inr ⟨.inl hnone, .inr rfl⟩)
      ⟨hon, hdecide, rfl, hs.unlocked hnone, hitem⟩ nofun hphase nofun nofun

/-- Who writes holds the lock from then on; no other call held it. -/
theorem write_sound {t : PgTable shape.baseKey}
    (hphase : s.phase c = .writing call left existing change) (hpending : s.pending = none)
    (htouch : (existing, change) ≠ (none, .remove))
    (hexec : call.exec shape s.table existing change = .ok (some t)) :
    KeyState.Sound k { s.withPhase c (.committing call existing change) with
      lock := some c, pending := some t } := by
  obtain ⟨hon, hdecide, hknown⟩ := hs.writing hphase
  have hread : existing = none ∨ s.table.items k = existing := by
    cases existing with
    | none => exact .inl rfl
    | some item => exact .inr hknown.2.2
  obtain ⟨hitem, hleft⟩ := exec_some hon hdecide hread htouch hexec
  have hlock : s.lock = none ∨ s.lock = some c := by
    cases existing with
    | some item => exact .inr hknown.1
    | none =>
      rcases hlock : s.lock with _ | d
      · exact .inl rfl
      · have hd := hs.phases d
        rcases hp : s.phase d with _ | _ | ⟨_, _, _ | item, _⟩ | ⟨_, existing', change'⟩ | _ <;>
          rw [hp] at hd
        · exact absurd hlock hd
        · exact absurd hlock hd.2
        · exact absurd hlock hd.2.2
        · have hthere := hd.2.2.2.2
          rw [hitem] at hthere
          cases hthere
        · have hd := hd.2
          split at hd
          · exact absurd hlock hd
          · obtain ⟨_, _, t', ht', _⟩ := hd
            rw [hpending] at ht'
            cases ht'
        · exact absurd hlock hd
  refine hs.advance rfl rfl (.inr ⟨hlock, .inr rfl⟩) ⟨hdecide, ?_⟩ nofun hphase nofun nofun
  rw [if_neg]
  · exact ⟨rfl, hitem, t, rfl, hleft⟩
  · rintro ⟨rfl, rfl⟩
    exact htouch rfl

/-- Only the INSERT of a call that has read no row writes none. -/
theorem retry_sound (hphase : s.phase c = .writing call left existing change)
    (hexec : call.exec shape s.table existing change = .ok none) :
    (s.withPhase c (.reading call left)).Sound k := by
  obtain ⟨hon, hdecide, hknown⟩ := hs.writing hphase
  cases existing with
  | none =>
    exact hs.advance rfl rfl (.inl ⟨rfl, rfl, rfl⟩) ⟨hon, hknown⟩ hs.unlocked hphase nofun nofun
  | some item =>
    obtain ⟨t', ht, _⟩ := exec_locked hon hdecide rfl hknown.2.2 hexec
    cases ht

theorem skip_sound (hphase : s.phase c = .writing call left none .remove) :
    (s.withPhase c (.committing call none .remove)).Sound k := by
  obtain ⟨_, hdecide, hknown⟩ := hs.writing hphase
  refine hs.advance rfl rfl (.inl ⟨rfl, rfl, rfl⟩) ⟨hdecide, ?_⟩ hs.unlocked hphase nofun nofun
  rw [if_pos ⟨rfl, rfl⟩]
  exact hknown

end

theorem release_cases (s : KeyState shape) (c : CallId) :
    (s.lock = some c ∧ s.release c = { s with lock := none, pending := none }) ∨
    (s.lock ≠ some c ∧ s.release c = s) := by
  by_cases h : s.lock = some c
  · exact .inl ⟨h, if_pos h⟩
  · exact .inr ⟨h, if_neg h⟩

theorem release_phase (s : KeyState shape) (c : CallId) : (s.release c).phase = s.phase := by
  rcases release_cases s c with ⟨_, h⟩ | ⟨_, h⟩ <;> rw [h]

theorem abort_sound (hs : s.Sound k) {err : BackendError} (hactive : ∀ r, s.phase c ≠ .returned r) :
    ((s.release c).withPhase c (.returned (.error err))).Sound k := by
  rcases release_cases s c with ⟨hlock, hrelease⟩ | ⟨hlock, hrelease⟩
  · rw [hrelease]
    exact hs.advance rfl rfl (.inr ⟨.inr hlock, .inl rfl⟩) nofun (fun _ => rfl) rfl
      (fun old => hactive _) nofun
  · rw [hrelease]
    exact hs.advance rfl rfl (.inl ⟨rfl, rfl, rfl⟩) hlock hs.unlocked rfl (fun old => hactive _)
      nofun

theorem commit_cases (hs : s.Sound k) (hphase : s.phase c = .committing call existing change) :
    ((existing = none ∧ change = .remove) ∧ s.release c = s ∧ s.visible c = s.table) ∨
    (s.lock = some c ∧ s.release c = { s with lock := none, pending := none } ∧
      s.table.items k = existing ∧ (s.visible c).items k = change.left) := by
  obtain ⟨_, h⟩ := hs.committing hphase
  split at h
  next hskip => exact .inl ⟨hskip, if_neg h, if_neg h⟩
  next =>
    obtain ⟨hlock, hitem, t, ht, hleft⟩ := h
    refine .inr ⟨hlock, if_pos hlock, hitem, ?_⟩
    rw [KeyState.visible, if_pos hlock, ht]
    exact hleft

theorem commit_sound (hs : s.Sound k) (hphase : s.phase c = .committing call existing change) :
    (s.afterCommit c call existing change).Sound k := by
  have hdecide := (hs.committing hphase).1
  have hfresh : ∀ entry ∈ s.history, entry.id ≠ c := by
    intro entry hentry hid
    have hret := (hs.returned c entry.old).mpr ⟨entry, hentry, hid, rfl⟩
    rw [hphase] at hret
    cases hret
  have hphases : ∀ d, (update s.phase c (.returned (.ok existing))) d =
      if d = c then .returned (.ok existing) else s.phase d := by
    intro d
    rw [update_apply]
  refine ⟨?_, ?_, ?_, ?_, ?_⟩
  · intro d
    show PhaseHolds k _ d (update (s.release c).phase c (.returned (.ok existing)) d)
    rw [release_phase, hphases]
    by_cases hd : d = c
    · rw [if_pos hd]
      subst hd
      rcases release_cases s d with ⟨_, h⟩ | ⟨hlock, h⟩
      · show (s.release d).lock ≠ some d
        rw [h]
        nofun
      · show (s.release d).lock ≠ some d
        rw [h]
        exact hlock
    · rw [if_neg hd]
      refine (hs.phases d).frame hd ?_
      rcases commit_cases hs hphase with ⟨_, hrelease, hvisible⟩ | ⟨hlock, hrelease, _⟩
      · have hlock : (s.release c).lock = s.lock := by rw [hrelease]
        have hpending : (s.release c).pending = s.pending := by rw [hrelease]
        exact .inl ⟨hlock, hpending, hvisible⟩
      · have hnone : (s.release c).lock = none := by rw [hrelease]
        exact .inr ⟨.inr hlock, .inl hnone⟩
  · show (s.release c).lock = none → (s.release c).pending = none
    rcases release_cases s c with ⟨_, h⟩ | ⟨_, h⟩
    · rw [h]
      exact fun _ => rfl
    · rw [h]
      exact hs.unlocked
  · intro entry hentry
    rcases mem_append.mp hentry with hentry | hentry
    · exact hs.decided entry hentry
    · cases mem_singleton.mp hentry
      exact ⟨change, hdecide, rfl⟩
  · intro d old
    show update (s.release c).phase c (.returned (.ok existing)) d = _ ↔ _
    rw [release_phase, hphases]
    by_cases hd : d = c
    · subst hd
      rw [if_pos rfl]
      constructor
      · intro h
        cases h
        exact ⟨_, mem_append_right _ (mem_singleton.mpr rfl), rfl, rfl⟩
      · rintro ⟨entry, hentry, hid, hold⟩
        rcases mem_append.mp hentry with hentry | hentry
        · exact absurd hid (hfresh entry hentry)
        · cases mem_singleton.mp hentry
          rw [← hold]
    · rw [if_neg hd, hs.returned d old]
      constructor
      · rintro ⟨entry, hentry, hrest⟩
        exact ⟨entry, mem_append_left _ hentry, hrest⟩
      · rintro ⟨entry, hentry, hid, hold⟩
        rcases mem_append.mp hentry with hentry | hentry
        · exact ⟨entry, hentry, hid, hold⟩
        · cases mem_singleton.mp hentry
          exact absurd hid.symm hd
  · rw [KeyState.afterCommit, map_append, nodup_append]
    refine ⟨hs.once, nodup_singleton _, ?_⟩
    intro a ha b hb
    cases mem_singleton.mp hb
    obtain ⟨entry, hentry, rfl⟩ := mem_map.mp ha
    exact hfresh entry hentry

theorem KeyStep.sound (h : KeyStep shape k s e s') (hs : s.Sound k) : s'.Sound k := by
  cases h with
  | @start c call hphase hon =>
    have hfree : s.lock ≠ some c := by
      have := hs.phases c
      rwa [hphase] at this
    exact hs.advance rfl rfl (.inl ⟨rfl, rfl, rfl⟩) ⟨hon, hfree⟩ hs.unlocked hphase nofun nofun
  | read hphase hfree hselect hdecide => exact read_sound hs hphase hfree hselect hdecide
  | refuse hphase | exhaust hphase =>
    exact hs.advance rfl rfl (.inl ⟨rfl, rfl, rfl⟩) (hs.reading hphase).2 hs.unlocked hphase nofun
      nofun
  | write hphase hpending htouch hexec => exact write_sound hs hphase hpending htouch hexec
  | skip hphase => exact skip_sound hs hphase
  | retry hphase _ hexec => exact retry_sound hs hphase hexec
  | commit hphase => exact commit_sound hs hphase
  | abort _ hactive => exact abort_sound hs hactive

theorem initial_sound (t : PgTable shape.baseKey) : (KeyState.initial t).Sound k :=
  ⟨fun _ => nofun, fun _ => rfl, nofun, fun _ _ => ⟨nofun, fun ⟨_, h, _⟩ => absurd h not_mem_nil⟩,
    nodup_nil⟩

end Rektifier
