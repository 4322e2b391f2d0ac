import Rektifier.ApiToken
import Rektifier.Fallible
import Rektifier.Runs

namespace Rektifier

open ApiTokenVerifier Function

variable {hash : TokenHash}

/-- Of every row it is noted what it was, and when, at its last read. -/
structure TokenSystem where
  clock : Clock
  rows : TokenHash → Option ApiTokenRow
  cache : TokenCache
  lastRead : TokenHash → Option (Option ApiTokenRow × Clock)

namespace TokenSystem

def start (clock : Clock) (rows : TokenHash → Option ApiTokenRow) : TokenSystem :=
  ⟨clock, rows, .empty, fun _ => none⟩

variable (v : ApiTokenVerifier) (s : TokenSystem)

/-- A request, the error of a store out of reach, and the clock when it has answered. -/
structure Verification where
  req : HttpRequest
  storeError : Option String
  read : Clock

def fetchTokenRow (storeError : Option String) (hash : TokenHash) :
    Except String (Option ApiTokenRow) :=
  match storeError with
  | some msg => .error msg
  | none => .ok (s.rows hash)

def rowRead (e : Verification) : Option TokenHash :=
  match v.bearerToken e.req, e.storeError with
  | .ok (_, token), none =>
    if s.cache.get s.clock.instant (v.hmacPepper token) = none then some (v.hmacPepper token)
    else none
  | _, _ => none

def answer (e : Verification) : Except AuthError Identity :=
  (v.verify s.cache s.clock e.read (s.fetchTokenRow e.storeError) e.req).1

def verified (e : Verification) : TokenSystem where
  clock := if (s.rowRead v e).isSome then e.read else s.clock
  rows := s.rows
  cache := (v.verify s.cache s.clock e.read (s.fetchTokenRow e.storeError) e.req).2
  lastRead := match s.rowRead v e with
    | some hash => update s.lastRead hash (some (s.rows hash, e.read))
    | none => s.lastRead

end TokenSystem

open TokenSystem

inductive TokenEvent where
  | verification (e : Verification)
  | rowsChanged (rows : TokenHash → Option ApiTokenRow)
  | clockAdvanced (clock : Clock)

/-- The time of day may jump either way; the other clock does not go back. -/
inductive TokenStep (v : ApiTokenVerifier) : TokenSystem → TokenEvent → TokenSystem → Prop
  | verification {s : TokenSystem} (e : Verification) : s.clock.instant ≤ e.read.instant →
      TokenStep v s (.verification e) (s.verified v e)
  | rowsChanged {s : TokenSystem} (rows : TokenHash → Option ApiTokenRow) :
      TokenStep v s (.rowsChanged rows) { s with rows := rows }
  | clockAdvanced {s : TokenSystem} (clock : Clock) : s.clock.instant ≤ clock.instant →
      TokenStep v s (.clockAdvanced clock) { s with clock := clock }

section Verify

variable {v : ApiTokenVerifier} {s : TokenSystem} {e : Verification} {kind : TokenKind}
  {token : List Char} {t : CachedToken}

theorem rowRead_eq_some (h : s.rowRead v e = some hash) :
    ∃ kind token, v.bearerToken e.req = .ok (kind, token) ∧ v.hmacPepper token = hash ∧
      e.storeError = none ∧ s.cache.get s.clock.instant hash = none := by
  unfold rowRead at h
  split at h
  · next kind token hbearer hstore =>
    split at h
    · next hmiss =>
      obtain rfl := Option.some.inj h
      exact ⟨kind, token, hbearer, rfl, hstore, hmiss⟩
    · cases h
  · cases h

theorem rowRead_of_miss (hbearer : v.bearerToken e.req = .ok (kind, token))
    (hstore : e.storeError = none)
    (hmiss : s.cache.get s.clock.instant (v.hmacPepper token) = none) :
    s.rowRead v e = some (v.hmacPepper token) := by
  simp [rowRead, hbearer, hstore, hmiss]

theorem rowRead_of_hit (hbearer : v.bearerToken e.req = .ok (kind, token))
    (hhit : s.cache.get s.clock.instant (v.hmacPepper token) = some (some t)) :
    s.rowRead v e = none := by
  cases hstore : e.storeError with
  | none => simp [rowRead, hbearer, hstore, hhit]
  | some msg => simp [rowRead, hbearer, hstore]

theorem cache_of_no_read (h : s.rowRead v e = none) : (s.verified v e).cache = s.cache := by
  simp only [verified, ApiTokenVerifier.verify]
  split
  · rfl
  · next kind token hbearer =>
    split
    · rfl
    · rfl
    · next hmiss =>
      cases hstore : e.storeError with
      | none => simp [rowRead_of_miss hbearer hstore hmiss] at h
      | some msg => rfl

theorem cache_of_read (h : s.rowRead v e = some hash) :
    (s.verified v e).cache = match checkRow e.read (s.rows hash) with
      | .ok t => s.cache.insertPositive hash t (t.fetchedAt + v.ttl)
      | .error _ => s.cache.insertNegative hash (e.read.instant + v.negativeTtl) := by
  obtain ⟨kind, token, hbearer, rfl, hstore, hmiss⟩ := rowRead_eq_some h
  simp only [verified, ApiTokenVerifier.verify, hbearer, hmiss, fetchTokenRow, hstore]
  cases checkRow e.read (s.rows (v.hmacPepper token)) <;> rfl

/-- A token is accepted on a live entry, or on a row read for it. -/
theorem answer_ok_iff {identity : Identity} : s.answer v e = .ok identity ↔ ∃ kind token t,
    v.bearerToken e.req = .ok (kind, token) ∧ identity = finalizeIdentity t kind ∧
      (s.cache.get s.clock.instant (v.hmacPepper token) = some (some t) ∨
        s.rowRead v e = some (v.hmacPepper token) ∧
          checkRow e.read (s.rows (v.hmacPepper token)) = .ok t) := by
  constructor
  · intro h
    simp only [answer, ApiTokenVerifier.verify] at h
    split at h
    · cases h
    · next kind token hbearer =>
      split at h
      · next t hhit => exact ⟨kind, token, t, hbearer, (Except.ok.inj h).symm, .inl hhit⟩
      · cases h
      · next hmiss =>
        cases hstore : e.storeError with
        | some msg => simp [hstore, fetchTokenRow] at h
        | none =>
          simp only [hstore, fetchTokenRow] at h
          split at h
          · cases h
          · next t hrow =>
            exact ⟨kind, token, t, hbearer, (Except.ok.inj h).symm,
              .inr ⟨rowRead_of_miss hbearer hstore hmiss, hrow⟩⟩
  · rintro ⟨kind, token, t, hbearer, rfl, hhit | ⟨hread, hrow⟩⟩
    · simp only [answer, ApiTokenVerifier.verify, hbearer, hhit]
    · obtain ⟨kind', token', hbearer', hhash, hstore, hmiss⟩ := rowRead_eq_some hread
      simp only [answer, ApiTokenVerifier.verify, hbearer, hmiss, fetchTokenRow, hstore, hrow]

theorem checkRow_ok_iff {read : Clock} {row : Option ApiTokenRow} : checkRow read row = .ok t ↔
    ∃ r, row = some r ∧ r.enabled ∧ (∀ exp, r.expiresAtMs = some exp → read.nowMs ≤ exp) ∧
      t = ⟨r.principal, r.expiresAtMs, read.instant⟩ := by
  cases row with
  | none => simp [checkRow]
  | some r =>
    simp only [checkRow, Option.some.injEq]
    constructor
    · intro h
      split at h
      · cases h
      · next henabled =>
        split at h
        · cases h
        · next hvalid =>
          refine ⟨r, rfl, by simpa using henabled, ?_, (Except.ok.inj h).symm⟩
          intro exp hexp
          simpa [hexp] using hvalid
    · rintro ⟨_, rfl, henabled, hvalid, rfl⟩
      have hnot : ¬r.expiresAtMs.any (· < read.nowMs) := by
        cases hexp : r.expiresAtMs with
        | none => simp
        | some exp => simpa using hvalid exp hexp
      rw [if_neg (by simp [henabled]), if_neg hnot]

end Verify

/-- The live entries are what was made of the rows when last read. -/
structure Tracked (v : ApiTokenVerifier) (s : TokenSystem) : Prop where
  live : ∀ hash t expiresAt, s.cache.positive hash = some (t, expiresAt) →
    s.clock.instant < expiresAt → ∃ row read, s.lastRead hash = some (row, read) ∧
      checkRow read row = .ok t ∧ expiresAt = read.instant + v.ttl
  filed : ∀ hash row read t, s.lastRead hash = some (row, read) → checkRow read row = .ok t →
    s.cache.positive hash = some (t, read.instant + v.ttl)

section Tracked

variable {v : ApiTokenVerifier} {s s' : TokenSystem} {e : Verification}

theorem Tracked.start (clock : Clock) (rows : TokenHash → Option ApiTokenRow) :
    Tracked v (.start clock rows) :=
  ⟨fun _ _ _ h => absurd h (by simp [TokenSystem.start, TtlCache.empty]),
    fun _ _ _ _ h => absurd h (by simp [TokenSystem.start])⟩

theorem Tracked.advanced (h : Tracked v s) (hclock : s.clock.instant ≤ s'.clock.instant)
    (hcache : s'.cache = s.cache) (hread : s'.lastRead = s.lastRead) : Tracked v s' := by
  constructor
  · intro hash t expiresAt hentry hlives
    rw [hcache] at hentry
    rw [hread]
    exact h.live hash t expiresAt hentry (by omega)
  · intro hash row read t hlast hrow
    rw [hread] at hlast
    rw [hcache]
    exact h.filed hash row read t hlast hrow

/-- A read replaces what is known of one row, whose entry was not live. -/
theorem Tracked.read (h : Tracked v s) (hread : s.rowRead v e = some hash)
    (hclock : s.clock.instant ≤ e.read.instant) : Tracked v (s.verified v e) := by
  obtain ⟨_, _, _, _, _, hmiss⟩ := rowRead_eq_some hread
  have hcache := cache_of_read hread
  have hnow : (s.verified v e).clock = e.read := by simp [verified, hread]
  have hlast : (s.verified v e).lastRead =
      update s.lastRead hash (some (s.rows hash, e.read)) := by simp [verified, hread]
  have hothers : ∀ k ≠ hash, (s.verified v e).cache.positive k = s.cache.positive k := by
    intro k hk
    rw [hcache]
    cases checkRow e.read (s.rows hash) with
    | ok t => exact update_of_ne hk _ _
    | error err => rfl
  constructor
  · intro k t expiresAt hentry hlives
    rw [hnow] at hlives
    rw [hlast]
    by_cases hk : k = hash
    · subst hk
      refine ⟨s.rows k, e.read, update_self .., ?_⟩
      rw [hcache] at hentry
      cases hrow : checkRow e.read (s.rows k) with
      | ok t' =>
        rw [hrow] at hentry
        simp only [TtlCache.insertPositive, update_self] at hentry
        obtain ⟨rfl, rfl⟩ := Prod.mk.inj (Option.some.inj hentry)
        obtain ⟨_, _, _, _, rfl⟩ := checkRow_ok_iff.mp hrow
        exact ⟨rfl, rfl⟩
      | error err =>
        rw [hrow] at hentry
        have hdead := TtlCache.dead_of_get_none hmiss hentry
        omega
    · rw [hothers k hk] at hentry
      rw [update_of_ne hk]
      exact h.live k t expiresAt hentry (by omega)
  · intro k row read t hlastRead hrow
    rw [hlast] at hlastRead
    by_cases hk : k = hash
    · subst hk
      rw [update_self] at hlastRead
      obtain ⟨rfl, rfl⟩ := Prod.mk.inj (Option.some.inj hlastRead)
      obtain ⟨_, _, _, _, ht⟩ := checkRow_ok_iff.mp hrow
      rw [hcache, hrow, ht]
      exact update_self ..
    · rw [update_of_ne hk] at hlastRead
      rw [hothers k hk]
      exact h.filed k row read t hlastRead hrow

theorem TokenStep.tracked {event : TokenEvent} (hstep : TokenStep v s event s')
    (h : Tracked v s) : Tracked v s' := by
  cases hstep with
  | verification e hclock =>
    cases hread : s.rowRead v e with
    | none =>
      refine h.advanced ?_ (cache_of_no_read hread) ?_
      · simp [verified, hread]
      · simp [verified, hread]
    | some hash => exact h.read hread hclock
  | rowsChanged rows => exact h.advanced le_rfl rfl rfl
  | clockAdvanced clock hclock => exact h.advanced hclock rfl rfl

/-- The cache answers for a row exactly while its last read, had it been good, is recent. -/
theorem Tracked.get_iff (h : Tracked v s) {t : CachedToken} :
    s.cache.get s.clock.instant hash = some (some t) ↔ ∃ row read,
      s.lastRead hash = some (row, read) ∧ checkRow read row = .ok t ∧
        s.clock.instant < read.instant + v.ttl := by
  rw [TtlCache.get_eq_value_iff]
  constructor
  · rintro ⟨expiresAt, hentry, hlives⟩
    obtain ⟨row, read, hlast, hrow, rfl⟩ := h.live hash t expiresAt hentry hlives
    exact ⟨row, read, hlast, hrow, hlives⟩
  · rintro ⟨row, read, hlast, hrow, hlives⟩
    exact ⟨_, h.filed hash row read t hlast hrow, hlives⟩

end Tracked

/-- An accepted token has not outlived the row last read for it. -/
def ExpiryKept (v : ApiTokenVerifier) (s : TokenSystem) : TokenEvent → Prop
  | .verification e => ∀ identity, s.answer v e = .ok identity → ∃ kind token row read,
      v.bearerToken e.req = .ok (kind, token) ∧
        (s.verified v e).lastRead (v.hmacPepper token) = some (some row, read) ∧
        ∀ exp, row.expiresAtMs = some exp → (s.verified v e).clock.wallMs ≤ exp
  | _ => True

/-- No token is presented within the lifetime of a good row's entry when the row has expired. -/
def NotOutlived (v : ApiTokenVerifier) (s : TokenSystem) : TokenEvent → Prop
  | .verification e => ∀ kind token row read exp, v.bearerToken e.req = .ok (kind, token) →
      s.lastRead (v.hmacPepper token) = some (some row, read) → row.enabled = true →
      row.expiresAtMs = some exp → read.nowMs ≤ exp →
      s.clock.instant < read.instant + v.ttl → s.clock.wallMs ≤ exp
  | _ => True

theorem expiryKept_iff {v : ApiTokenVerifier} {s : TokenSystem} (h : Tracked v s)
    (event : TokenEvent) : ExpiryKept v s event ↔ NotOutlived v s event := by
  cases event with
  | rowsChanged rows | clockAdvanced clock => exact Iff.rfl
  | verification e =>
    constructor
    · intro hkept kind token row read exp hbearer hlast henabled hexp hvalid hlives
      have hrow : checkRow read (some row) = .ok ⟨row.principal, row.expiresAtMs, read.instant⟩ :=
        checkRow_ok_iff.mpr ⟨row, rfl, henabled, by simpa [hexp] using hvalid, rfl⟩
      have hhit := h.get_iff.mpr ⟨some row, read, hlast, hrow, hlives⟩
      obtain ⟨kind', token', row', read', hbearer', hlast', hexpiry⟩ :=
        hkept _ (answer_ok_iff.mpr ⟨kind, token, _, hbearer, rfl, .inl hhit⟩)
      have hnoread := rowRead_of_hit hbearer hhit
      obtain ⟨rfl, rfl⟩ := Prod.mk.inj (Except.ok.inj (hbearer.symm.trans hbearer'))
      simp only [verified, hnoread] at hlast' hexpiry
      rw [hlast] at hlast'
      obtain ⟨hsame, rfl⟩ := Prod.mk.inj (Option.some.inj hlast')
      exact hexpiry exp (Option.some.inj hsame ▸ hexp)
    · intro hfresh identity hanswer
      obtain ⟨kind, token, t, hbearer, _, hhit | ⟨hread, hrow⟩⟩ := answer_ok_iff.mp hanswer
      · obtain ⟨row, read, hlast, hrow, hlives⟩ := h.get_iff.mp hhit
        obtain ⟨row, rfl, henabled, hvalid, _⟩ := checkRow_ok_iff.mp hrow
        have hnoread := rowRead_of_hit hbearer hhit
        refine ⟨kind, token, row, read, hbearer, by simpa [verified, hnoread] using hlast, ?_⟩
        intro exp hexp
        have hwall := hfresh kind token row read exp hbearer hlast henabled hexp
          (hvalid exp hexp) hlives
        simpa [verified, hnoread] using hwall
      · obtain ⟨row, hstored, _, hvalid, _⟩ := checkRow_ok_iff.mp hrow
        refine ⟨kind, token, row, e.read, hbearer, by simp [verified, hread, hstored], ?_⟩
        intro exp hexp
        have hnow := hvalid exp hexp
        have hwall : e.read.wallMs ≤ e.read.nowMs := le_max_right _ _
        simp only [verified, hread, Option.isSome_some, if_true]
        omega

/-- Tokens are never accepted after their row's expiry, in a run, exactly if none is presented after
it while the cache still has the row. -/
theorem token_expiry_kept_iff (v : ApiTokenVerifier) {clock : Clock}
    {rows : TokenHash → Option ApiTokenRow} {trace : List (TokenSystem × TokenEvent)}
    {t : TokenSystem} (hrun : Run (TokenStep v) (.start clock rows) trace t) :
    (∀ e ∈ trace, ExpiryKept v e.1 e.2) ↔ ∀ e ∈ trace, NotOutlived v e.1 e.2 := by
  have htracked : ∀ e ∈ trace, Tracked v e.1 :=
    hrun.preserved_states (Tracked v) (fun _ _ _ hstep => hstep.tracked)
      (Tracked.start clock rows)
  exact forall₂_congr fun e he => expiryKept_iff (htracked e he) e.2

/-- Five minutes for rows, half a minute for their absence. -/
def sampleVerifier : ApiTokenVerifier where
  hmacPepper := fun token => token.map fun c => UInt8.ofNat c.toNat
  acceptTestTokens := false
  ttl := 300000
  negativeTtl := 30000

/-- One token, asked for at one second, that expires half a second later. -/
def sampleStart : TokenSystem :=
  .start ⟨0, 1000⟩ fun _ => some ⟨"user:a", true, some 1500⟩

def sampleCall (read : Clock) : Verification := ⟨bearerRequest "rekt_pat_a", none, read⟩

/-- Asked again before it expires, the verifier accepts the token from its cache. -/
theorem token_expiry_kept_cached :
    let first := sampleCall ⟨0, 1000⟩
    let cached := sampleStart.verified sampleVerifier first
    let again := sampleCall ⟨400, 1400⟩
    let later := { cached with clock := ⟨400, 1400⟩ }
    Run (TokenStep sampleVerifier) sampleStart [(sampleStart, .verification first),
        (cached, .clockAdvanced ⟨400, 1400⟩), (later, .verification again)]
        (later.verified sampleVerifier again) ∧
      later.answer sampleVerifier again =
        .ok (finalizeIdentity ⟨"user:a", some 1500, 0⟩ .pat) ∧
      ExpiryKept sampleVerifier later (.verification again) := by
  intro first cached again later
  have hrun : Run (TokenStep sampleVerifier) sampleStart [(sampleStart, .verification first),
      (cached, .clockAdvanced ⟨400, 1400⟩), (later, .verification again)]
      (later.verified sampleVerifier again) :=
    .cons (.verification first (by decide)) (.cons (.clockAdvanced _ (by decide +kernel))
      (.cons (.verification again (by decide +kernel)) (.nil _)))
  have hbearer : sampleVerifier.bearerToken again.req = .ok (.pat, "rekt_pat_a".toList) := by
    decide +kernel
  have hread : later.lastRead (sampleVerifier.hmacPepper "rekt_pat_a".toList) =
      some (some ⟨"user:a", true, some 1500⟩, ⟨0, 1000⟩) := by decide +kernel
  refine ⟨hrun, by decide +kernel,
    (token_expiry_kept_iff sampleVerifier hrun).mpr ?_ (later, .verification again) (by simp)⟩
  simp only [List.forall_mem_cons, List.not_mem_nil, false_imp_iff, implies_true, and_true]
  refine ⟨?_, trivial, ?_⟩
  · intro kind token row read exp _ hlast
    cases hlast
  · intro kind token row read exp htoken hlast _ hexp _ _
    cases hbearer.symm.trans htoken
    cases hread.symm.trans hlast
    cases hexp
    decide

/-- Asked again at two seconds, the verifier answers from its cache, which holds the expiry time,
and accepts the expired token. -/
theorem expired_token_accepted :
    let first := sampleCall ⟨0, 1000⟩
    let cached := sampleStart.verified sampleVerifier first
    let again := sampleCall ⟨1000, 2000⟩
    let later := { cached with clock := ⟨1000, 2000⟩ }
    Run (TokenStep sampleVerifier) sampleStart [(sampleStart, .verification first),
        (cached, .clockAdvanced ⟨1000, 2000⟩), (later, .verification again)]
        (later.verified sampleVerifier again) ∧
      later.lastRead (sampleVerifier.hmacPepper "rekt_pat_a".toList) =
        some (some ⟨"user:a", true, some 1500⟩, ⟨0, 1000⟩) ∧
      later.answer sampleVerifier again =
        .ok (finalizeIdentity ⟨"user:a", some 1500, 0⟩ .pat) := by
  intro first cached again later
  refine ⟨.cons (.verification first (by decide)) (.cons (.clockAdvanced _ ?_)
    (.cons (.verification again ?_) (.nil _))), ?_, ?_⟩
  · decide +kernel
  · decide +kernel
  · decide +kernel
  · decide +kernel

end Rektifier
