import Rektifier.CachedReads
import Rektifier.Sigv4Spec

namespace Rektifier

open CachedReads Function

variable {stored : Option StoredCredential}

inductive CryptoError where
  | encryptFailed
  | decryptFailed
  | invalidKeyLen (len : Nat)
deriving DecidableEq

def CryptoError.text : CryptoError → String
  | encryptFailed => "AES-GCM encryption failed"
  | decryptFailed => "AES-GCM decryption failed (ciphertext tampered or wrong key)"
  | invalidKeyLen len => "invalid key length: expected 32 bytes, got " ++ toString len

inductive StoreError where
  | pool (msg : String)
  | pg (msg : String)
  | crypto (e : CryptoError)
  | malformed (akid reason : String)
deriving DecidableEq

def StoreError.text : StoreError → String
  | pool msg => "pool error: " ++ msg
  | pg msg => "postgres error: " ++ msg
  | crypto e => "crypto error: " ++ e.text
  | malformed akid reason => "malformed credential row for AKID " ++ akid ++ ": " ++ reason

/-- A row of `_rektifier_aws_credentials`. -/
structure StoredCredential where
  secretAesEnc : List UInt8
  secretNonce : List UInt8
  principal : String
  enabled : Bool
deriving DecidableEq

structure CredentialRow where
  accessKeyId : String
  secretAccessKey : String
  principal : String
  enabled : Bool
deriving DecidableEq

/-- The lifetimes of the cache, the longest read of a row, and what is taken from libraries. -/
structure SecretFetch where
  ttl : Nat
  negativeTtl : Nat
  latency : Nat
  decrypt : List UInt8 → List UInt8 → Except CryptoError (List UInt8)
  fromUtf8 : List UInt8 → Option String

namespace SecretFetch

def credentialRow (f : SecretFetch) (akid : String) :
    Option StoredCredential → Except StoreError (Option CredentialRow)
  | none => .ok none
  | some row =>
    if row.secretNonce.length ≠ 12 then
      .error (.malformed akid "secret_nonce must be 12 bytes")
    else match f.decrypt row.secretNonce row.secretAesEnc with
      | .error e => .error (.crypto e)
      | .ok plain => match f.fromUtf8 plain with
        | none => .error (.malformed akid "decrypted secret is not UTF-8")
        | some secret => .ok (some ⟨akid, secret, row.principal, row.enabled⟩)

def lookupError : StoreError → AuthError
  | .crypto _ => .internal "credential decryption failed — master key mismatch"
  | e => .internal ("credential lookup failed: " ++ e.text)

/-- What `fetch_secret` caches as a secret, what as missing, and what it does not cache. -/
def judge (f : SecretFetch) (akid : String) (row : Option StoredCredential) :
    Judged Credential AuthError :=
  match f.credentialRow akid row with
  | .ok (some row) =>
    if row.enabled then .value ⟨row.secretAccessKey, row.principal⟩ else .absent .identityDisabled
  | .ok none => .absent .identityNotFound
  | .error e => .failed (lookupError e)

/-- One of many readers of the cache and the store. -/
def fetchSecret (f : SecretFetch) :
    CachedReads String (Option StoredCredential) Credential AuthError where
  ttl := f.ttl
  negativeTtl := f.negativeTtl
  latency := f.latency
  judge := f.judge
  missing := .identityNotFound

end SecretFetch

abbrev SecretSystem := CachedReads.State String (Option StoredCredential) Credential AuthError

abbrev SecretEvent := CachedReads.Event String (Option StoredCredential)

def SecretSystem.boot (now : Nat) (rows : String → Option StoredCredential) : SecretSystem :=
  ⟨now, rows, .empty, fun _ => none⟩

def CredentialAccepted (lib : Sigv4Lib) (s : SecretSystem) (id : Nat) (akid : String) (startedAt : Nat) :
    Prop :=
  ∃ task result now clockSkewSecs req identity, s.tasks id = some task ∧ task.key = akid ∧
    task.startedAt = startedAt ∧ task.phase = .done result ∧
    Sigv4Verifier.verify lib ⟨now, clockSkewSecs, fun _ => result⟩ req = .ok identity

theorem credentialRow_enabled {f : SecretFetch} {akid : String}
    {row : CredentialRow} (h : f.credentialRow akid stored = .ok (some row)) :
    ∃ cipher, stored = some cipher ∧ cipher.enabled = row.enabled := by
  cases stored with
  | none => cases h
  | some cipher =>
    simp only [SecretFetch.credentialRow] at h
    split at h
    · cases h
    · split at h
      · cases h
      · split at h
        · cases h
        · cases h
          exact ⟨cipher, rfl, rfl⟩

theorem judge_value_enabled {f : SecretFetch} {akid : String}
    {credential : Credential} (h : f.judge akid stored = .value credential) :
    ∃ cipher, stored = some cipher ∧ cipher.enabled := by
  unfold SecretFetch.judge at h
  split at h
  · next row hrow =>
    split at h
    · next henabled =>
      obtain ⟨cipher, hstored, hsame⟩ := credentialRow_enabled hrow
      exact ⟨cipher, hstored, hsame.trans henabled⟩
    · cases h
  · cases h
  · cases h

theorem boot_timely (f : SecretFetch) (now : Nat) (rows : String → Option StoredCredential) :
    Timely f.fetchSecret (SecretSystem.boot now rows) := by
  refine ⟨?_, ?_, ?_⟩
  · intro k a expiresAt h
    cases h
  · intro id task h
    cases h
  · intro id task time h
    cases h

/-- A credential that is disabled or deleted, and not enabled again, is accepted by no verification
that begins later than the cache's lifetime and the longest read after, in any run of any number of
verifications. -/
theorem disabled_credential_refused (f : SecretFetch) (lib : Sigv4Lib) {bootTime : Nat}
    {rows : String → Option StoredCredential} {s t : SecretSystem}
    {before after : List (SecretSystem × SecretEvent)}
    (hbefore : Run (Step f.fetchSecret) (SecretSystem.boot bootTime rows) before s)
    (hafter : Run (Step f.fetchSecret) s after t) {akid : String}
    (hdisabled : ∀ e ∈ after, ∀ row, e.1.rows akid = some row → row.enabled = false) {id : Nat}
    {startedAt : Nat} (hlate : s.now + f.ttl + f.latency < startedAt) :
    ¬CredentialAccepted lib t id akid startedAt := by
  rintro ⟨task, result, now, clockSkewSecs, req, identity, htask, hkey, rfl, hdone, haccepted⟩
  obtain ⟨parsed, amzDate, credential, hchecks, _⟩ := verify_ok_iff.mp haccepted
  have hresult : result = .ok credential := hchecks.known
  have htimely : Timely f.fetchSecret s :=
    hbefore.preserved (Timely f.fetchSecret) (fun _ _ _ hstep hi => hi.step hstep)
      (boot_timely f bootTime rows)
  have hgone : ∀ e ∈ after, ∀ a, f.fetchSecret.judge akid (e.1.rows akid) ≠ .value a := by
    intro e he a hvalue
    obtain ⟨stored, hrow, henabled⟩ := judge_value_enabled hvalue
    rw [hdisabled e he stored hrow] at henabled
    cases henabled
  have hstarted := startedAt_le_of_served htimely hafter hgone htask hkey (by rw [hdone, hresult])
  have hbound : task.startedAt ≤ s.now + f.ttl + f.latency := hstarted
  omega

/-- Keys are not encrypted; a secret lives for ten ticks and a row is read in two. -/
def plainFetch : SecretFetch := ⟨10, 1, 2, fun _ cipher => .ok cipher, fun _ => some "secret"⟩

def sampleCredential (enabled : Bool) : String → Option StoredCredential :=
  fun _ => some ⟨[], List.replicate 12 0, "user", enabled⟩

def secretTask (startedAt : Nat) (phase : Phase Credential AuthError) :
    Task String Credential AuthError := ⟨"AKIA", startedAt, phase⟩

def SecretSystem.withTask (s : SecretSystem) (id startedAt : Nat) (phase : Phase Credential AuthError)
    (cache : TtlCache String (Credential × Nat)) : SecretSystem :=
  { s with cache := cache, tasks := update s.tasks id (some (secretTask startedAt phase)) }

/-- A slow read of the row as it was before brings the secret into the cache, and a verification
that begins once it has died there is refused. -/
theorem disabled_credential_refused_slow : ∃ before after s t,
    Run (Step plainFetch.fetchSecret) (SecretSystem.boot 0 (sampleCredential true)) before s ∧
      Run (Step plainFetch.fetchSecret) s after t ∧ s.now = 0 ∧
      t.cache.positive "AKIA" = some ((⟨"secret", "user"⟩, 2), 12) ∧
      ∀ lib, ¬CredentialAccepted lib t 1 "AKIA" 13 := by
  let secret : Credential := ⟨"secret", "user"⟩
  let s₀ := SecretSystem.boot 0 (sampleCredential true)
  let s₁ := s₀.withTask 0 0 .begun s₀.cache
  let s₂ := s₁.withTask 0 0 (.reading 0) s₁.cache
  let s₃ := s₂.withTask 0 0 (.answered 0 (.value secret)) s₂.cache
  let s₄ : SecretSystem := { s₃ with rows := sampleCredential false }
  let s₅ : SecretSystem := { s₄ with now := 2 }
  let s₆ := s₅.withTask 0 0 (.holding secret 2) s₅.cache
  let s₇ := s₆.withTask 0 0 (.storing secret 2) (s₆.cache.removeNegative "AKIA")
  let s₈ := s₇.withTask 0 0 (.done (.ok secret)) (s₇.cache.putPositive "AKIA" (secret, 2) (2 + 10))
  let s₉ : SecretSystem := { s₈ with now := 13 }
  let s₁₀ := s₉.withTask 1 13 .begun s₉.cache
  let s₁₁ := s₁₀.withTask 1 13 (.reading 13) s₁₀.cache
  have htask : ∀ (s : SecretSystem) id startedAt phase cache,
      (s.withTask id startedAt phase cache).tasks id = some (secretTask startedAt phase) :=
    fun s id _ _ _ => update_self ..
  have hbefore : Run (Step plainFetch.fetchSecret) s₀ [(s₀, .start 0 "AKIA"), (s₁, .advance 0),
      (s₂, .advance 0), (s₃, .change (sampleCredential false))] s₄ :=
    .cons (.start rfl) (.cons (.advance (htask _ 0 0 .begun _) (.miss rfl rfl))
      (.cons (.advance (htask _ 0 0 (.reading 0) _) (.answer rfl)) (.cons .change (.nil _))))
  let after : List (SecretSystem × SecretEvent) := [(s₄, .tick 2), (s₅, .advance 0),
    (s₆, .advance 0), (s₇, .advance 0), (s₈, .tick 13), (s₉, .start 1 "AKIA"), (s₁₀, .advance 1)]
  have hafter : Run (Step plainFetch.fetchSecret) s₄ after s₁₁ :=
    .cons (.tick (by decide)) (.cons
      (.advance (htask s₂ 0 0 (.answered 0 (.value secret)) s₂.cache) (.finishValue rfl (by decide)))
      (.cons (.advance (htask _ 0 0 (.holding secret 2) _) (.dropNegative rfl))
        (.cons (.advance (htask _ 0 0 (.storing secret 2) _) (.store rfl))
          (.cons (.tick (by decide)) (.cons (.start rfl)
            (.cons (.advance (htask _ 1 13 .begun _) (.miss rfl (by decide +kernel))) (.nil _)))))))
  have hdisabled : ∀ e ∈ after, ∀ row, e.1.rows "AKIA" = some row → row.enabled = false := by
    intro e he row hrow
    have hrows : e.1.rows = sampleCredential false := by
      simp only [after, List.mem_cons, List.not_mem_nil, or_false] at he
      rcases he with rfl | rfl | rfl | rfl | rfl | rfl | rfl <;> rfl
    rw [hrows] at hrow
    cases hrow
    rfl
  refine ⟨_, _, s₄, s₁₁, hbefore, hafter, rfl, by decide +kernel, fun lib => ?_⟩
  exact disabled_credential_refused plainFetch lib hbefore hafter hdisabled (by decide)

end Rektifier
