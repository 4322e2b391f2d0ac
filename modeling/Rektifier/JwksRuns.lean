import Rektifier.Jwt
import Rektifier.Base64
import Rektifier.Fallible
import Rektifier.Runs

namespace Rektifier

open JwtVerifier Fallible List Function

variable {cache : JwksCache} {kid : String} {p : Presented} {t : IssuedToken}

/-- The caches, what the issuers' addresses answer, and the clock. -/
structure JwtSystem where
  clock : Clock
  responses : String → JwksResponse
  caches : String → JwksCache

inductive JwtEvent where
  | request (req : HttpRequest)
  | published (responses : String → JwksResponse)
  | clockAdvanced (clock : Clock)
  | warmUp (iss : String)

namespace JwtSystem

variable (lib : JwtLib) (v : JwtVerifier) (s : JwtSystem)

def fetched (iss : String) : Except JwksError (List PinnedKey) :=
  fetchKeys lib.componentError (s.caches iss).url (s.responses (s.caches iss).url)

def answered (req : HttpRequest) : Except AuthError Identity × (String → JwksCache) :=
  v.verify lib s.caches s.responses s.clock req

def warmedUp (iss : String) : JwtSystem :=
  match s.fetched lib iss with
  | .error _ => s
  | .ok keys =>
    { s with caches := update s.caches iss ((s.caches iss).store keys s.clock.instant) }

def next : JwtEvent → JwtSystem
  | .request req => { s with caches := (s.answered lib v req).2 }
  | .published responses => { s with responses := responses }
  | .clockAdvanced clock => { s with clock := clock }
  | .warmUp iss => s.warmedUp lib iss

end JwtSystem

inductive JwtStep (lib : JwtLib) (v : JwtVerifier) : JwtSystem → JwtEvent → JwtSystem → Prop
  | mk {s : JwtSystem} {event : JwtEvent} :
      s.clock.instant ≤ (s.next lib v event).clock.instant →
      JwtStep lib v s event (s.next lib v event)

/-- A warm-up, or a token with a key id the cached copy lacks, and the fetch succeeds. -/
def Refreshes (lib : JwtLib) (v : JwtVerifier) (iss : String) (s : JwtSystem) (event : JwtEvent) :
    Prop :=
  (∃ keys, s.fetched lib iss = .ok keys) ∧ (event = .warmUp iss ∨ ∃ req p, event = .request req ∧
    v.present lib req = .ok p ∧ p.iss = iss ∧ (s.caches iss).lookup p.kid = none)

def Removed (lib : JwtLib) (iss : String) (key : PinnedKey) (s : JwtSystem) : Prop :=
  ∀ keys, s.fetched lib iss = .ok keys → keys.find? (fun k => k.kid = key.kid) ≠ some key

section Steps

variable {lib : JwtLib} {v : JwtVerifier} {s s' : JwtSystem} {event : JwtEvent} {iss : String}
  {key : PinnedKey}

theorem getKey_hit (h : cache.lookup kid = some key) (now : Nat)
    (fetched : Except JwksError (List PinnedKey)) : cache.getKey kid now fetched =
    (.ok key, cache) := by
  simp only [JwksCache.getKey, h, JwksCache.scheduleRefresh, ite_self]

theorem getKey_miss (h : cache.lookup kid = none) (now : Nat)
    {keys : List PinnedKey} : (cache.getKey kid now (.ok keys)).2 = cache.store keys now := by
  simp only [JwksCache.getKey, h]
  split <;> rfl

theorem getKey_unreachable (h : cache.lookup kid = none)
    (now : Nat) (err : JwksError) : cache.getKey kid now (.error err) = (.error err, cache) := by
  simp only [JwksCache.getKey, h]

theorem lookup_store (cache : JwksCache) (keys : List PinnedKey) (now : Nat) (kid : String) :
    (cache.store keys now).lookup kid = keys.find? fun k => k.kid = kid := rfl

theorem caches_request (lib : JwtLib) (v : JwtVerifier) (s : JwtSystem) (iss : String)
    (req : HttpRequest) :
    ((s.answered lib v req).2 iss = s.caches iss ∧ ¬Refreshes lib v iss s (.request req)) ∨
    ∃ keys, s.fetched lib iss = .ok keys ∧ Refreshes lib v iss s (.request req) ∧
      (s.answered lib v req).2 iss = (s.caches iss).store keys s.clock.instant := by
  cases hpresent : v.present lib req with
  | error err =>
    refine .inl ⟨by simp [JwtSystem.answered, JwtVerifier.verify, hpresent], ?_⟩
    rintro ⟨_, hevent | ⟨_, p, hevent, hp, _⟩⟩
    · cases hevent
    · cases hevent
      rw [hpresent] at hp
      cases hp
  | ok p =>
    -- a refresh is for the issuer of this token, and by this token's key id
    have hrefresh : Refreshes lib v iss s (.request req) ↔
        (∃ keys, s.fetched lib iss = .ok keys) ∧ p.iss = iss ∧ (s.caches iss).lookup p.kid = none := by
      constructor
      · rintro ⟨hkeys, hevent | ⟨_, p', hevent, hp, hiss, hmiss⟩⟩
        · cases hevent
        · cases hevent
          obtain rfl : p = p' := Except.ok.inj (hpresent.symm.trans hp)
          exact ⟨hkeys, hiss, hmiss⟩
      · rintro ⟨hkeys, hiss, hmiss⟩
        exact ⟨hkeys, .inr ⟨req, p, rfl, hpresent, hiss, hmiss⟩⟩
    rw [hrefresh]
    have hcaches : (s.answered lib v req).2 = update s.caches p.iss
        ((s.caches p.iss).getKey p.kid s.clock.instant (s.fetched lib p.iss)).2 := by
      simp only [JwtSystem.answered, JwtVerifier.verify, hpresent]
      rfl
    rw [hcaches]
    by_cases hiss : p.iss = iss
    · subst hiss
      rw [update_self]
      cases hlookup : (s.caches p.iss).lookup p.kid with
      | some k => exact .inl ⟨by rw [getKey_hit hlookup], by simp⟩
      | none =>
        cases hfetched : s.fetched lib p.iss with
        | error err => exact .inl ⟨by rw [getKey_unreachable hlookup], by simp⟩
        | ok keys => exact .inr ⟨keys, rfl, ⟨⟨keys, rfl⟩, rfl, rfl⟩, getKey_miss hlookup _⟩
    · exact .inl ⟨update_of_ne (Ne.symm hiss) _ _, fun h => hiss h.2.1⟩

/-- A cache is what it was, or has just been refreshed. -/
theorem JwtStep.caches (h : JwtStep lib v s event s') (iss : String) :
    (s'.caches iss = s.caches iss ∧ ¬Refreshes lib v iss s event) ∨
      ∃ keys, s.fetched lib iss = .ok keys ∧ Refreshes lib v iss s event ∧
        s'.caches iss = (s.caches iss).store keys s.clock.instant := by
  obtain ⟨_⟩ := h
  cases event with
  | request req => exact caches_request lib v s iss req
  | published responses | clockAdvanced clock => exact .inl ⟨rfl, by simp [Refreshes]⟩
  | warmUp iss' =>
    by_cases hiss : iss' = iss
    · subst hiss
      cases hfetched : s.fetched lib iss' with
      | error err => exact .inl ⟨by simp [JwtSystem.next, JwtSystem.warmedUp, hfetched],
          by simp [Refreshes, hfetched]⟩
      | ok keys => exact .inr ⟨keys, rfl, ⟨⟨keys, hfetched⟩, .inl rfl⟩,
          by simp [JwtSystem.next, JwtSystem.warmedUp, hfetched]⟩
    · refine .inl ⟨?_, by simp [Refreshes, hiss]⟩
      simp only [JwtSystem.next, JwtSystem.warmedUp]
      split
      · rfl
      · exact update_of_ne (Ne.symm hiss) _ _

def Served (iss : String) (key : PinnedKey) (s : JwtSystem) : Prop :=
  (s.caches iss).lookup key.kid = some key

/-- A removed key is given out until the first refresh. -/
theorem JwtStep.served_iff (h : JwtStep lib v s event s') (hremoved : Removed lib iss key s) :
    Served iss key s' ↔ Served iss key s ∧ ¬Refreshes lib v iss s event := by
  rcases h.caches iss with ⟨hsame, hnot⟩ | ⟨keys, hfetched, hrefresh, hstored⟩
  · rw [Served, hsame]
    exact ⟨fun hserved => ⟨hserved, hnot⟩, And.left⟩
  · rw [Served, hstored, lookup_store]
    exact ⟨fun hserved => absurd hserved (hremoved keys hfetched), fun h => absurd hrefresh h.2⟩

theorem served_at_end_iff {trace : List (JwtSystem × JwtEvent)}
    (hrun : Run (JwtStep lib v) s trace s') (hremoved : ∀ e ∈ trace, Removed lib iss key e.1) :
    Served iss key s' ↔ Served iss key s ∧ ∀ e ∈ trace, ¬Refreshes lib v iss e.1 e.2 :=
  hrun.holds_iff (Served iss key) (fun _ _ _ hstep hgone => hstep.served_iff hgone) hremoved

/-- A fetch cannot bring a removed key back. -/
theorem getKey_eq_key_iff (hremoved : Removed lib iss key s) :
    ((s.caches iss).getKey key.kid s.clock.instant (s.fetched lib iss)).1 = .ok key ↔
      Served iss key s := by
  cases hlookup : (s.caches iss).lookup key.kid with
  | some k =>
    rw [getKey_hit hlookup, Served, hlookup]
    simp
  | none =>
    have hnot : ¬Served iss key s := by simp [Served, hlookup]
    refine iff_of_false ?_ hnot
    cases hfetched : s.fetched lib iss with
    | error err => simp [getKey_unreachable hlookup]
    | ok keys =>
      have hgone := hremoved keys hfetched
      simp only [JwksCache.getKey, hlookup, lookup_store]
      split
      · next k hfind =>
        rw [hfind] at hgone
        simpa using hgone
      · simp

end Steps

theorem acceptUnder_ok_iff {lib : JwtLib} {nowSecs : Int} {key : PinnedKey}
    {identity : Identity} : acceptUnder lib nowSecs p key = .ok identity ↔
    key.alg = p.header.alg ∧ key.alg ∈ p.config.allowedAlgs ∧
      ∃ claims principal,
        lib.decode nowSecs p.token key.key (validation p.config key.alg) = .ok claims ∧
        p.config.resolvePrincipal (reassembled claims) = some principal ∧
        identity = ⟨.jwt, principal, some claims.iss, reassembled claims⟩ := by
  unfold acceptUnder
  refine ⟨fun h => ?_, ?_⟩
  · by_cases halg : key.alg = p.header.alg
    · by_cases hallowed : key.alg ∈ p.config.allowedAlgs
      · rw [if_neg (not_not.mpr halg), if_neg (not_not.mpr hallowed)] at h
        cases hdecode : lib.decode nowSecs p.token key.key (validation p.config key.alg) with
        | error e =>
          simp only [hdecode] at h
          cases h
        | ok claims =>
          simp only [hdecode, ok_bind] at h
          split at h
          · cases h
          · next principal hprincipal =>
            cases h
            exact ⟨halg, hallowed, claims, principal, rfl, hprincipal, rfl⟩
      · rw [if_neg (not_not.mpr halg), if_pos hallowed] at h
        cases h
    · rw [if_pos halg] at h
      cases h
  · rintro ⟨halg, hallowed, claims, principal, hdecode, hprincipal, rfl⟩
    rw [if_neg (not_not.mpr halg), if_neg (not_not.mpr hallowed)]
    simp only [hdecode, ok_bind, hprincipal]
    rfl

/-- A request that passes every check if its token is checked with the key. -/
def PassesUnder (lib : JwtLib) (v : JwtVerifier) (iss : String) (key : PinnedKey) (s : JwtSystem)
    (event : JwtEvent) : Prop :=
  ∃ req p identity, event = .request req ∧ v.present lib req = .ok p ∧ p.iss = iss ∧
    p.kid = key.kid ∧ acceptUnder lib (s.clock.wallMs / 1000) p key = .ok identity

/-- A request that is accepted, its token checked with the key. -/
def AcceptedUnder (lib : JwtLib) (v : JwtVerifier) (iss : String) (key : PinnedKey) (s : JwtSystem)
    (event : JwtEvent) : Prop :=
  ∃ req p identity, event = .request req ∧ v.present lib req = .ok p ∧ p.iss = iss ∧
    p.kid = key.kid ∧
    ((s.caches iss).getKey p.kid s.clock.instant (s.fetched lib iss)).1 = .ok key ∧
    (s.answered lib v req).1 = .ok identity

theorem acceptedUnder_iff {lib : JwtLib} {v : JwtVerifier} {iss : String} {key : PinnedKey}
    {s : JwtSystem} {event : JwtEvent} (hremoved : Removed lib iss key s) :
    AcceptedUnder lib v iss key s event ↔ PassesUnder lib v iss key s event ∧ Served iss key s := by
  have hanswer : ∀ req p, v.present lib req = .ok p → p.iss = iss → p.kid = key.kid →
      ((s.caches iss).getKey p.kid s.clock.instant (s.fetched lib iss)).1 = .ok key →
      (s.answered lib v req).1 = acceptUnder lib (s.clock.wallMs / 1000) p key := by
    rintro req p hpresent rfl _ hkey
    simp only [JwtSystem.answered, JwtVerifier.verify, hpresent]
    unfold JwtSystem.fetched at hkey
    rw [hkey]
    rfl
  constructor
  · rintro ⟨req, p, identity, rfl, hpresent, hiss, hkid, hkey, haccepted⟩
    rw [hanswer req p hpresent hiss hkid hkey] at haccepted
    rw [hkid] at hkey
    exact ⟨⟨req, p, identity, rfl, hpresent, hiss, hkid, haccepted⟩,
      (getKey_eq_key_iff hremoved).mp hkey⟩
  · rintro ⟨⟨req, p, identity, rfl, hpresent, hiss, hkid, haccepted⟩, hserved⟩
    have hkey := (getKey_eq_key_iff hremoved).mpr hserved
    rw [← hkid] at hkey
    exact ⟨req, p, identity, rfl, hpresent, hiss, hkid, hkey,
      (hanswer req p hpresent hiss hkid hkey).trans haccepted⟩

/-- A request refreshes a stale copy exactly if it lacks the token's key id. -/
theorem stale_refreshed_iff {lib : JwtLib} {v : JwtVerifier} {s : JwtSystem} {req : HttpRequest}
    {keys : List PinnedKey} (hpresent : v.present lib req = .ok p)
    (hfetched : s.fetched lib p.iss = .ok keys)
    (hstale : (s.caches p.iss).isStale s.clock.instant) :
    ((s.answered lib v req).2 p.iss).entry = some ⟨keys, s.clock.instant⟩ ↔
      (s.caches p.iss).lookup p.kid = none := by
  rcases caches_request lib v s p.iss req with
    ⟨hsame, hnot⟩ | ⟨keys', hkeys, ⟨_, hrefresh⟩, hstored⟩
  · refine iff_of_false ?_ ?_
    · intro hentry
      rw [hsame] at hentry
      simp [JwksCache.isStale, hentry] at hstale
    · intro hmiss
      exact hnot ⟨⟨keys, hfetched⟩, .inr ⟨req, p, rfl, hpresent, rfl, hmiss⟩⟩
  · obtain rfl : keys = keys' := Except.ok.inj (hfetched.symm.trans hkeys)
    refine iff_of_true (by rw [hstored]; rfl) ?_
    rcases hrefresh with hevent | ⟨req', p', hevent, hpresent', _, hmiss⟩
    · cases hevent
    · cases hevent
      obtain rfl : p = p' := Except.ok.inj (hpresent.symm.trans hpresent')
      exact hmiss

/-- A request refreshes a copy older than its lifetime only if the key id is unknown. So a cached
key no longer published is refused, in a run, exactly if such a request or a warm-up has come before
every token that would pass under it. -/
theorem removed_key_refused_iff (lib : JwtLib) (v : JwtVerifier) {iss : String} {key : PinnedKey}
    {s t : JwtSystem} {trace : List (JwtSystem × JwtEvent)} (hrun : Run (JwtStep lib v) s trace t)
    (hremoved : ∀ e ∈ trace, Removed lib iss key e.1) (bound : Nat) :
    (∀ e ∈ trace, ∀ req p keys, e.2 = .request req → v.present lib req = .ok p →
      e.1.fetched lib p.iss = .ok keys → (e.1.caches p.iss).isStale e.1.clock.instant = true →
      (((e.1.answered lib v req).2 p.iss).entry = some ⟨keys, e.1.clock.instant⟩ ↔
        (e.1.caches p.iss).lookup p.kid = none)) ∧
    ((∀ e ∈ trace, s.clock.instant + bound < e.1.clock.instant →
        ¬AcceptedUnder lib v iss key e.1 e.2) ↔
      (Served iss key s → ∀ earlier e later, trace = earlier ++ e :: later →
        s.clock.instant + bound < e.1.clock.instant → PassesUnder lib v iss key e.1 e.2 →
          ∃ r ∈ earlier, Refreshes lib v iss r.1 r.2)) := by
  refine ⟨fun e _ req p keys _ => stale_refreshed_iff, ?_⟩
  -- at each step a key that was served is so still exactly if no earlier step was a refresh
  have hhere : ∀ earlier e later, trace = earlier ++ e :: later →
      (AcceptedUnder lib v iss key e.1 e.2 ↔ PassesUnder lib v iss key e.1 e.2 ∧
        Served iss key s ∧ ∀ r ∈ earlier, ¬Refreshes lib v iss r.1 r.2) := by
    rintro earlier e later rfl
    rw [acceptedUnder_iff (hremoved e (by simp)),
      served_at_end_iff hrun.before fun r hr => hremoved r (by simp [hr])]
  constructor
  · intro hrefused hserved earlier e later hsplit hlate hpasses
    by_contra hnone
    push Not at hnone
    exact hrefused e (by simp [hsplit]) hlate
      ((hhere earlier e later hsplit).mpr ⟨hpasses, hserved, hnone⟩)
  · intro hrefreshed e he hlate haccepted
    obtain ⟨earlier, later, hsplit⟩ := append_of_mem he
    obtain ⟨hpasses, hserved, hnone⟩ := (hhere earlier e later hsplit).mp haccepted
    obtain ⟨r, hr, hrefresh⟩ := hrefreshed hserved earlier e later hsplit hlate hpasses
    exact hnone r hr hrefresh

def edKey (kid : String) : DecodingKey :=
  .ed (if kid = "k" then "11qYAYKxCrfVS_7TyWQHOg7hcvPapiMlrwIaaPcHURo"
    else "PUAXw-hDiVqStwqnTRt-vJyYLM8uxJaMwM1V8Sr0Zgw")

/-- Signed with Ed25519 under the key of that id. -/
structure IssuedToken where
  kid : String
  headerSeg : String
  payloadSeg : String
  signature : String
  payloadText : String
  payload : ClaimMap
deriving DecidableEq

namespace IssuedToken

def text (t : IssuedToken) : List Char :=
  t.headerSeg.toList ++ '.' :: (t.payloadSeg.toList ++ '.' :: t.signature.toList)

def header (t : IssuedToken) : JwtHeader := ⟨some "JWT", .EdDSA, some t.kid⟩

def request (t : IssuedToken) : HttpRequest := bearerRequest (String.ofList t.text)

end IssuedToken

/-- Good to the end of the century. -/
def kToken : IssuedToken where
  kid := "k"
  headerSeg := "eyJ0eXAiOiJKV1QiLCJhbGciOiJFZERTQSIsImtpZCI6ImsifQ"
  payloadSeg := "eyJhdWQiOiJkYiIsImV4cCI6NDEwMjQ0NDgwMCwiaXNzIjoiaWRwIiwic3ViIjoidXNlciJ9"
  signature :=
    "ocSyKGPCVr-7u3bzQNUbHtdAUJgcOyq80_0Sp6qriF1vf9ptE7z-eYDWTTMup3NpbUa1kcc6gArA6jc1xG2YDw"
  payloadText := "\x7b\"aud\":\"db\",\"exp\":4102444800,\"iss\":\"idp\",\"sub\":\"user\"\x7d"
  payload := .ofList [("aud", .str "db"), ("exp", .num 4102444800), ("iss", .str "idp"),
    ("sub", .str "user")]

def mToken : IssuedToken :=
  { kToken with
    kid := "m"
    headerSeg := "eyJ0eXAiOiJKV1QiLCJhbGciOiJFZERTQSIsImtpZCI6Im0ifQ"
    signature :=
      "ekw0kmeWN8KDCeY2s33G36n6COvjWw0mcCG9xzDVVL5i--vW0vH2bURSIRxnxPDPrpLl3OT_1Khea8T2RzuqBg" }

/-- Begins at 900 s. -/
def laterToken : IssuedToken where
  kid := "k"
  headerSeg := "eyJ0eXAiOiJKV1QiLCJhbGciOiJFZERTQSIsImtpZCI6ImsifQ"
  payloadSeg := "eyJhdWQiOiJkYiIsImV4cCI6MTAwMCwiaXNzIjoiaWRwIiwibmJmIjo5MDAsInN1YiI6InVzZXIifQ"
  signature :=
    "_4abGmirvV3Xsc_84Z2J7rDQ-72L_Au0ZrzG5Yyuwtqf1DazIR8K1e2LhV5cOvyQdz6cuwsx3GfkL1lSA4UVDw"
  payloadText := "\x7b\"aud\":\"db\",\"exp\":1000,\"iss\":\"idp\",\"nbf\":900,\"sub\":\"user\"\x7d"
  payload := .ofList [("aud", .str "db"), ("exp", .num 1000), ("iss", .str "idp"),
    ("nbf", .num 900), ("sub", .str "user")]

def issuedTokens : List IssuedToken := [kToken, mToken, laterToken]

def issuedToken (token : List Char) : Option IssuedToken :=
  issuedTokens.find? fun t => t.text = token

/-- The digits `-` and `_`, and no padding. -/
def base64UrlDecode (seg : List Char) : Option (List UInt8) :=
  if seg.any (· ∈ ['+', '/', '=']) then none
  else Base64.decodeChars
    (seg.map (fun c => if c = '-' then '+' else if c = '_' then '/' else c)
      ++ List.replicate ((4 - seg.length % 4) % 4) '=')

/-- What is wrong with the claims of a token whose signature is good. -/
def Validation.refusal (validation : Validation) (nowSecs : Int) (claims : JwtClaims) :
    Option String :=
  if validation.timesOk nowSecs claims = false then some "ExpiredSignature"
  else if claims.iss ∉ validation.iss then some "InvalidIssuer"
  else if ∀ aud ∈ audiences claims.aud, aud ∉ validation.aud then some "InvalidAudience"
  else none

/-- The libraries' answers on the issuer's tokens; no other text is signed by it. -/
def sampleJwtLib : JwtLib where
  decodeHeader := fun token => match issuedToken token with
    | some t => .ok t.header
    | none => .error "InvalidToken"
  base64UrlDecode := base64UrlDecode
  readObject := fun bytes =>
    match issuedTokens.find? fun t => t.payloadText.toList = bytes.map (Char.ofNat ·.toNat) with
    | some t => .ok t.payload
    | none => .error "expected value at line 1 column 1"
  decode := fun nowSecs token key validation => match issuedToken token with
    | none => .error "InvalidToken"
    | some t => match JwtClaims.ofPayload t.payload with
      | none => .error "Json"
      | some claims =>
        if .EdDSA ∉ validation.algorithms then .error "InvalidAlgorithm"
        else if edKey t.kid ≠ key then .error "InvalidSignature"
        else match validation.refusal nowSecs claims with
          | some e => .error e
          | none => .ok claims
  componentError := fun _ => none

def isHeaderChar (c : Char) : Bool := isVisibleAscii (UInt8.ofNat c.toNat) && c.toNat < 256

theorem issuedTokens_read : ∀ t ∈ issuedTokens, issuedToken t.text = some t ∧
    t.text.all isHeaderChar ∧ t.text.count '.' = 2 ∧
    sampleJwtLib.payload t.text = some t.payload ∧ t.payload.text "iss" = some "idp" := by
  decide +kernel

theorem headerText_chars {text : List Char} (h : text.all isHeaderChar) :
    headerText (text.map fun c => UInt8.ofNat c.toNat) = some (String.ofList text) := by
  have hchars : ∀ c ∈ text, isVisibleAscii (UInt8.ofNat c.toNat) ∧ c.toNat < 256 := by
    simpa [isHeaderChar] using h
  have hvisible : (text.map fun c => UInt8.ofNat c.toNat).all isVisibleAscii = true := by
    rw [all_map, all_eq_true]
    exact fun c hc => (hchars c hc).1
  have hback : (text.map fun c => UInt8.ofNat c.toNat).map (fun b => Char.ofNat b.toNat)
      = text := by
    rw [map_map]
    refine (map_congr_left fun c hc => ?_).trans (map_id text)
    simp [UInt8.toNat_ofNat_of_lt' (hchars c hc).2]
  rw [headerText, if_pos hvisible, hback]

theorem authorization_bearer {token : List Char} (h : token.all isHeaderChar) :
    (bearerRequest (String.ofList token)).authorization
      = .ok (String.ofList ("Bearer ".toList ++ token)) := by
  have hheader : (bearerRequest (String.ofList token)).header "authorization"
      = some (("Bearer ".toList ++ token).map fun c => UInt8.ofNat c.toNat) := by
    simp [HttpRequest.header, HttpRequest.headerValues, bearerRequest]
  have hbearer : "Bearer ".toList.all isHeaderChar := by decide
  have hall : ("Bearer ".toList ++ token).all isHeaderChar := by
    rw [all_append, hbearer, h, Bool.and_self]
  rw [HttpRequest.authorization, hheader]
  simp only [headerText_chars hall, wellFormed]

/-- What the verifier takes from an issued token before it has a key. -/
theorem present_issued {v : JwtVerifier} {config : JwtIssuerConfig}
    (hissuer : v.issuer "idp" = some config) (ht : t ∈ issuedTokens) :
    v.present sampleJwtLib t.request = .ok ⟨t.text, t.header, "idp", config, t.kid⟩ := by
  obtain ⟨hknown, hvisible, hdots, hpayload, hiss⟩ := issuedTokens_read t ht
  obtain ⟨seg, hseg, hbytes⟩ := Option.bind_eq_some_iff.mp hpayload
  obtain ⟨bytes, hbytes, hread⟩ := Option.bind_eq_some_iff.mp hbytes
  have hread := toOption_eq_some_iff.mp hread
  have hafter : textAfter "Bearer " (String.ofList ("Bearer ".toList ++ t.text)).toList
      = some t.text := by
    simp [textAfter]
  have hheader : sampleJwtLib.decodeHeader t.text = .ok t.header := by
    simp only [sampleJwtLib, hknown]
  rw [present, IssuedToken.request, authorization_bearer hvisible, ok_bind, hafter]
  simp only [wellFormed, ok_bind, hheader, IssuedToken.header, hdots, hseg, hbytes, hread,
    hiss, hissuer]
  rfl

def edPinned (kid : String) : PinnedKey := ⟨kid, .EdDSA, edKey kid⟩

/-- An issued token is accepted where its key is found and its claims are good. -/
theorem verify_issued {v : JwtVerifier} {config : JwtIssuerConfig}
    {caches : String → JwksCache} {responses : String → JwksResponse} {clock : Clock}
    {claims : JwtClaims} {principal : String} (hissuer : v.issuer "idp" = some config)
    (ht : t ∈ issuedTokens) (hallowed : .EdDSA ∈ config.allowedAlgs)
    (hkey : ((caches "idp").getKey t.kid clock.instant (fetchKeys sampleJwtLib.componentError
      (caches "idp").url (responses (caches "idp").url))).1 = .ok (edPinned t.kid))
    (hclaims : JwtClaims.ofPayload t.payload = some claims)
    (hrefusal : (validation config .EdDSA).refusal (clock.wallMs / 1000) claims = none)
    (hprincipal : config.resolvePrincipal (reassembled claims) = some principal) :
    (v.verify sampleJwtLib caches responses clock t.request).1
      = .ok ⟨.jwt, principal, some claims.iss, reassembled claims⟩ := by
  have hdecode : sampleJwtLib.decode (clock.wallMs / 1000) t.text (edKey t.kid)
      (validation config .EdDSA) = .ok claims := by
    have halg : ¬ .EdDSA ∉ (validation config .EdDSA).algorithms := by simp [validation]
    simp only [sampleJwtLib, (issuedTokens_read t ht).1, hclaims, if_neg halg, ne_eq,
      not_true_eq_false, if_false, hrefusal]
  simp only [verify, present_issued hissuer ht, hkey, Except.mapError, ok_bind]
  exact acceptUnder_ok_iff.mpr ⟨rfl, hallowed, claims, principal, hdecode, hprincipal, rfl⟩

/-- Key sets are kept for ten minutes. -/
def sampleConfig : JwtIssuerConfig :=
  ⟨"idp", "https://idp/jwks", ["db"], [.EdDSA], 60, 600, .subject "idp:"⟩

def sampleIssuer : JwtVerifier := ⟨[sampleConfig]⟩

def edJwk (kid x : String) : RawJwk :=
  ⟨some kid, "OKP", some "EdDSA", none, none, some x, none, some "Ed25519"⟩

/-- The issuer has just replaced its key k by m. -/
def rotated : JwtSystem where
  clock := ⟨0, 0⟩
  responses := fun _ => .ok (.ok [edJwk "m" "PUAXw-hDiVqStwqnTRt-vJyYLM8uxJaMwM1V8Sr0Zgw"])
  caches := fun _ => ⟨"https://idp/jwks", 600, some ⟨[edPinned "k"], 0⟩⟩

def userClaims : JwtClaims := ⟨"idp", .str "db", some "user", some 4102444800, .empty⟩

def userIdentity : Identity :=
  ⟨.jwt, "idp:user", some "idp",
    .ofList [("iss", .str "idp"), ("sub", .str "user"), ("exp", .num 4102444800)]⟩

theorem kToken_claims : JwtClaims.ofPayload kToken.payload = some userClaims := by decide +kernel

theorem sampleIssuer_issuer : sampleIssuer.issuer "idp" = some sampleConfig := by decide

def samplePresented (t : IssuedToken) : Presented := ⟨t.text, t.header, "idp", sampleConfig, t.kid⟩

theorem present_sample (ht : t ∈ issuedTokens) :
    sampleIssuer.present sampleJwtLib t.request = .ok (samplePresented t) :=
  present_issued sampleIssuer_issuer ht

theorem rotated_served : Served "idp" (edPinned "k") rotated := by
  show (rotated.caches "idp").lookup "k" = some (edPinned "k")
  decide +kernel

theorem JwtStep.hit {lib : JwtLib} {v : JwtVerifier} {s : JwtSystem} {req : HttpRequest}
    {key : PinnedKey} (hpresent : v.present lib req = .ok p)
    (hlookup : (s.caches p.iss).lookup p.kid = some key) : JwtStep lib v s (.request req) s := by
  have hnext : s.next lib v (.request req) = s := by
    simp only [JwtSystem.next, JwtSystem.answered, JwtVerifier.verify, hpresent, getKey_hit hlookup,
      update_eq_self]
  have hstep : JwtStep lib v s (.request req) (s.next lib v (.request req)) := ⟨by rw [hnext]⟩
  rwa [hnext] at hstep

theorem removed_of_fetched {s : JwtSystem}
    (h : s.fetched sampleJwtLib "idp" = .ok [edPinned "m"]) :
    Removed sampleJwtLib "idp" (edPinned "k") s := by
  intro keys hkeys
  obtain rfl := Except.ok.inj (h.symm.trans hkeys)
  decide

/-- A token under the new key makes the verifier forget the old one. -/
theorem removed_key_refused_after_new :
    let new := JwtEvent.request mToken.request
    let old := JwtEvent.request kToken.request
    let renewed := rotated.next sampleJwtLib sampleIssuer new
    let late := { renewed with clock := ⟨601, 601000⟩ }
    let trace := [(rotated, new), (renewed, .clockAdvanced ⟨601, 601000⟩), (late, old)]
    Run (JwtStep sampleJwtLib sampleIssuer) rotated trace
        (late.next sampleJwtLib sampleIssuer old) ∧
      ∀ e ∈ trace, rotated.clock.instant + 600 < e.1.clock.instant →
        ¬AcceptedUnder sampleJwtLib sampleIssuer "idp" (edPinned "k") e.1 e.2 := by
  intro new old renewed late trace
  have hrun : Run (JwtStep sampleJwtLib sampleIssuer) rotated trace
      (late.next sampleJwtLib sampleIssuer old) := by
    refine .cons ⟨?_⟩ (.cons ⟨?_⟩ (.cons ⟨?_⟩ (.nil _)))
    · decide +kernel
    · decide +kernel
    · decide +kernel
  have hremoved : ∀ e ∈ trace, Removed sampleJwtLib "idp" (edPinned "k") e.1 := by
    intro e he
    apply removed_of_fetched
    simp only [trace, mem_cons, not_mem_nil, or_false] at he
    rcases he with rfl | rfl | rfl
    · decide +kernel
    · decide +kernel
    · decide +kernel
  have hrefresh : Refreshes sampleJwtLib sampleIssuer "idp" rotated new := by
    refine ⟨⟨[edPinned "m"], by decide +kernel⟩, .inr ⟨_, samplePresented mToken, rfl,
      present_sample (by simp [issuedTokens]), rfl, by decide +kernel⟩⟩
  refine ⟨hrun, ((removed_key_refused_iff sampleJwtLib sampleIssuer hrun hremoved 600).2).mpr ?_⟩
  intro _ earlier e later hsplit hlate _
  cases earlier with
  | nil =>
    obtain rfl := (List.cons.inj hsplit).1
    exact absurd hlate (by decide)
  | cons first earlier =>
    obtain rfl := (List.cons.inj hsplit).1
    exact ⟨_, mem_cons_self, hrefresh⟩

/-- Eleven days after the key was taken back, with the issuer in reach, a token under it is still
accepted. -/
theorem removed_key_accepted :
    let old := JwtEvent.request kToken.request
    let stale := { rotated with clock := ⟨601, 601000⟩ }
    let late := { rotated with clock := ⟨1000000, 1000000000⟩ }
    Run (JwtStep sampleJwtLib sampleIssuer) rotated [(rotated, .clockAdvanced stale.clock),
        (stale, old), (stale, .clockAdvanced late.clock), (late, old)] late ∧
      rotated.fetched sampleJwtLib "idp" = .ok [edPinned "m"] ∧
      (stale.caches "idp").isStale stale.clock.instant = true ∧
      (late.answered sampleJwtLib sampleIssuer kToken.request).1 =
        .ok userIdentity := by
  intro old stale late
  have hstep : ∀ clock, JwtStep sampleJwtLib sampleIssuer { rotated with clock := clock } old
      { rotated with clock := clock } :=
    fun _ => .hit (present_sample (by simp [issuedTokens])) rotated_served
  refine ⟨.cons ⟨?_⟩ (.cons (hstep _) (.cons ⟨?_⟩ (.cons (hstep _) (.nil _)))), ?_, ?_, ?_⟩
  · decide +kernel
  · decide +kernel
  · decide +kernel
  · decide +kernel
  · exact verify_issued sampleIssuer_issuer (by simp [issuedTokens]) (by decide)
      (by decide +kernel) kToken_claims (by decide +kernel) rfl

end Rektifier
