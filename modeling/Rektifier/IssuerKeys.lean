import Rektifier.JwksRuns

namespace Rektifier

open JwtVerifier Fallible List

/-- Only a token signed under the key, with one of the algorithms, of an issuer and for an audience
asked for. -/
def JwtLib.DecodesSigned (lib : JwtLib) (signed : List Char → DecodingKey → Algorithm → Prop) :
    Prop :=
  ∀ nowSecs token key validation claims, lib.decode nowSecs token key validation = .ok claims →
    (∃ alg ∈ validation.algorithms, signed token key alg) ∧ claims.iss ∈ validation.iss ∧
      ∃ aud ∈ audiences claims.aud, aud ∈ validation.aud

/-- Each issuer's cache is of its own address. -/
def JwtVerifier.Wired (v : JwtVerifier) (caches : String → JwksCache) : Prop :=
  ∀ iss config, v.issuer iss = some config → (caches iss).url = config.jwksUrl

def JwtSystem.Caches (s : JwtSystem) (iss : String) (key : PinnedKey) : Prop :=
  ∃ entry, (s.caches iss).entry = some entry ∧ key ∈ entry.keys

def JwtSystem.Publishes (lib : JwtLib) (s : JwtSystem) (url : String) (key : PinnedKey) : Prop :=
  ∃ keys, fetchKeys lib.componentError url (s.responses url) = .ok keys ∧ key ∈ keys

section Configuration

variable {urlScheme : String → Option String} {v w : JwtVerifier} {config : JwtIssuerConfig}
  {configs : List JwtIssuerConfig}

theorem validate_ok (h : config.validate urlScheme = .ok ()) :
    config.expectedAudience ≠ [] ∧ ∀ alg ∈ config.allowedAlgs, alg.isSymmetric = false := by
  unfold JwtIssuerConfig.validate at h
  split at h
  · cases h
  · split at h
    · cases h
    · split at h
      · cases h
      · next haud =>
        split at h
        · cases h
        · split at h
          · cases h
          · next halgs => exact ⟨haud, by simpa using halgs⟩

theorem addIssuer_ok (h : v.addIssuer urlScheme config = .ok w) :
    config.validate urlScheme = .ok () ∧ w.issuers = v.issuers ++ [config] := by
  obtain ⟨_, hvalid, hw⟩ := bind_ok h
  cases hw
  exact ⟨hvalid, rfl⟩

/-- The issuers are those of the configuration, and each passed its check. -/
theorem foldlM_addIssuer_ok (h : configs.foldlM (addIssuer urlScheme) v = .ok w) :
    w.issuers = v.issuers ++ configs ∧ ∀ config ∈ configs, config.validate urlScheme = .ok () := by
  induction configs generalizing v with
  | nil =>
    cases h
    simp
  | cons config configs ih =>
    rw [foldlM_cons] at h
    obtain ⟨v', hadd, hrest⟩ := bind_ok h
    obtain ⟨hvalid, hissuers⟩ := addIssuer_ok hadd
    obtain ⟨hw, hall⟩ := ih hrest
    refine ⟨by rw [hw, hissuers, append_assoc]; rfl, forall_mem_cons.mpr ⟨hvalid, hall⟩⟩

theorem issuer_some {iss : String} (h : v.issuer iss = some config) :
    config ∈ v.issuers ∧ config.issuer = iss := by
  have hmem := mem_of_find?_eq_some h
  have hiss := List.find?_some h
  exact ⟨mem_reverse.mp hmem, by simpa using hiss⟩

end Configuration

section Verification

variable {lib : JwtLib} {v : JwtVerifier} {req : HttpRequest} {p : Presented} {key : PinnedKey}
  {identity : Identity}

theorem present_ok (h : v.present lib req = .ok p) :
    (∃ auth, req.authorization = .ok auth ∧ textAfter "Bearer " auth.toList = some p.token) ∧
      lib.decodeHeader p.token = .ok p.header ∧ p.header.kid = some p.kid ∧
      v.issuer p.iss = some p.config := by
  unfold present at h
  obtain ⟨auth, hauth, h⟩ := bind_ok h
  obtain ⟨token, htoken, h⟩ := bind_ok h
  have htoken : textAfter "Bearer " auth.toList = some token := by
    cases htext : textAfter "Bearer " auth.toList with
    | none =>
      rw [htext] at htoken
      cases htoken
    | some text =>
      rw [htext] at htoken
      exact congrArg some (Except.ok.inj htoken)
  cases hheader : lib.decodeHeader token with
  | error e =>
    simp only [hheader] at h
    cases h
  | ok header =>
    simp only [hheader, ok_bind] at h
    -- a check that fails refuses the token, so what is left is that all of them passed
    repeat' split at h
    all_goals cases h
    all_goals exact ⟨⟨auth, hauth, htoken⟩, hheader, by assumption, by assumption⟩

/-- A key that is given out is then in the cache. -/
theorem lookup_getKey {cache : JwksCache} {kid : String} {now : Nat}
    {fetched : Except JwksError (List PinnedKey)} (h : (cache.getKey kid now fetched).1 = .ok key) :
    (cache.getKey kid now fetched).2.lookup kid = some key := by
  cases hlookup : cache.lookup kid with
  | some k =>
    rw [getKey_hit hlookup] at h ⊢
    exact hlookup.trans (congrArg some (Except.ok.inj h))
  | none =>
    cases fetched with
    | error e =>
      rw [getKey_unreachable hlookup] at h
      cases h
    | ok keys =>
      rw [getKey_miss hlookup]
      simp only [JwksCache.getKey, hlookup] at h
      split at h
      · next k hfound => exact hfound.trans (congrArg some (Except.ok.inj h))
      · cases h

theorem lookup_some {cache : JwksCache} {kid : String} (h : cache.lookup kid = some key) :
    key.kid = kid ∧ ∃ entry, cache.entry = some entry ∧ key ∈ entry.keys := by
  obtain ⟨entry, hentry, hfind⟩ := Option.bind_eq_some_iff.mp h
  have hkid := List.find?_some hfind
  exact ⟨by simpa using hkid, entry, hentry, mem_of_find?_eq_some hfind⟩

/-- An accepted token was checked with a key its issuer's cache then holds. -/
theorem answered_ok {s : JwtSystem} (h : (s.answered lib v req).1 = .ok identity) :
    ∃ p key, v.present lib req = .ok p ∧
      acceptUnder lib (s.clock.wallMs / 1000) p key = .ok identity ∧ key.kid = p.kid ∧
      (s.next lib v (.request req)).Caches p.iss key := by
  cases hpresent : v.present lib req with
  | error e =>
    simp only [JwtSystem.answered, JwtVerifier.verify, hpresent] at h
    cases h
  | ok p =>
    simp only [JwtSystem.answered, JwtVerifier.verify, hpresent] at h
    obtain ⟨key, hkey, haccept⟩ := bind_ok h
    have hgot : ((s.caches p.iss).getKey p.kid s.clock.instant (s.fetched lib p.iss)).1 = .ok key := by
      revert hkey
      unfold JwtSystem.fetched
      generalize ((s.caches p.iss).getKey p.kid s.clock.instant _).1 = found
      intro hkey
      cases found with
      | error e => cases hkey
      | ok k => exact congrArg Except.ok (Except.ok.inj hkey)
    obtain ⟨hkid, hcached⟩ := lookup_some (lookup_getKey hgot)
    have hnext : (s.next lib v (.request req)).caches p.iss =
        ((s.caches p.iss).getKey p.kid s.clock.instant (s.fetched lib p.iss)).2 := by
      simp only [JwtSystem.next, JwtSystem.answered, JwtVerifier.verify, hpresent,
        Function.update_self]
      rfl
    refine ⟨p, key, rfl, haccept, hkid, ?_⟩
    rwa [JwtSystem.Caches, hnext]

end Verification

section Origin

variable {lib : JwtLib} {v : JwtVerifier} {s s' t : JwtSystem} {event : JwtEvent} {iss : String}
  {key : PinnedKey} {trace : List (JwtSystem × JwtEvent)}

theorem JwtStep.url (h : JwtStep lib v s event s') (iss : String) :
    (s'.caches iss).url = (s.caches iss).url := by
  rcases h.caches iss with ⟨hsame, _⟩ | ⟨keys, _, _, hstored⟩
  · rw [hsame]
  · rw [hstored]
    rfl

/-- A cached key was so before the step, or a document at the cache's address has it. -/
theorem JwtStep.caches_origin (h : JwtStep lib v s event s') (hcached : s'.Caches iss key) :
    s.Caches iss key ∨ s.Publishes lib (s.caches iss).url key := by
  obtain ⟨entry, hentry, hmem⟩ := hcached
  rcases h.caches iss with ⟨hsame, _⟩ | ⟨keys, hfetched, _, hstored⟩
  · rw [hsame] at hentry
    exact .inl ⟨entry, hentry, hmem⟩
  · rw [hstored] at hentry
    obtain rfl : ⟨keys, s.clock.instant⟩ = entry := Option.some.inj hentry
    exact .inr ⟨keys, hfetched, hmem⟩

/-- A key cached at the end was so at the beginning, or has been in a document at the cache's
address. -/
theorem caches_origin (hrun : Run (JwtStep lib v) s trace t) (hcached : t.Caches iss key) :
    s.Caches iss key ∨ ∃ e ∈ trace, e.1.Publishes lib (s.caches iss).url key := by
  induction hrun with
  | nil => exact .inl hcached
  | cons hfirst _ ih =>
    rcases ih hcached with hcached | ⟨e, he, hpublished⟩
    · rcases hfirst.caches_origin hcached with hcached | hpublished
      · exact .inl hcached
      · exact .inr ⟨_, mem_cons_self, hpublished⟩
    · rw [hfirst.url] at hpublished
      exact .inr ⟨e, mem_cons_of_mem _ he, hpublished⟩

end Origin

/-- The issuer's cache held the key when the run began, or a document at its address has had it
since. -/
def KeyOf (lib : JwtLib) (v : JwtVerifier) (s : JwtSystem) (trace : List (JwtSystem × JwtEvent))
    (iss : String) (key : PinnedKey) : Prop :=
  ∃ config, v.issuer iss = some config ∧
    (s.Caches iss key ∨ ∃ e ∈ trace, e.1.Publishes lib config.jwksUrl key)

/-- What stands behind an identity: the token, the issuer's configuration, the key and the decoded
claims. -/
structure BoundTo (lib : JwtLib) (signed : List Char → DecodingKey → Algorithm → Prop)
    (req : HttpRequest) (identity : Identity) (p : Presented) (key : PinnedKey)
    (claims : JwtClaims) :
    Prop where
  token : ∃ auth, req.authorization = .ok auth ∧ textAfter "Bearer " auth.toList = some p.token
  header : lib.decodeHeader p.token = .ok p.header
  decoded : ∃ nowSecs validation, lib.decode nowSecs p.token key.key validation = .ok claims
  signature : signed p.token key.key key.alg
  kid : p.header.kid = some key.kid
  issuer : identity.issuer = some p.config.issuer
  asymmetric : key.alg.isSymmetric = false
  headerAlg : key.alg = p.header.alg
  allowed : key.alg ∈ p.config.allowedAlgs
  audience : ∃ aud ∈ audiences claims.aud, aud ∈ p.config.expectedAudience

/-- In any run of a configured verifier, whatever its caches held at first, an accepted token is
signed by a key of the issuer the identity names, with its algorithms and for its audience. A key
that is not of an issuer never gives an identity of it. -/
theorem accepted_token_bound {urlScheme : String → Option String} {configs : List JwtIssuerConfig}
    {v : JwtVerifier} (hbuilt : buildJwt urlScheme configs = .ok v) {lib : JwtLib}
    {signed : List Char → DecodingKey → Algorithm → Prop} (hdecodes : lib.DecodesSigned signed)
    {s t : JwtSystem} {trace : List (JwtSystem × JwtEvent)} (hwired : v.Wired s.caches)
    (hrun : Run (JwtStep lib v) s trace t) {req : HttpRequest} {identity : Identity}
    (haccepted : (t.answered lib v req).1 = .ok identity) :
    ∃ p key claims, BoundTo lib signed req identity p key claims ∧ p.config ∈ configs ∧
      KeyOf lib v s (trace ++ [(t, .request req)]) p.config.issuer key ∧
      ∀ iss, ¬KeyOf lib v s (trace ++ [(t, .request req)]) iss key → identity.issuer ≠ some iss := by
  obtain ⟨p, key, hpresent, haccept, hkid, hcached⟩ := answered_ok haccepted
  obtain ⟨htoken, hheader, hkid', hissuer⟩ := present_ok hpresent
  obtain ⟨halg, hallowed, claims, principal, hdecode, _, rfl⟩ := acceptUnder_ok_iff.mp haccept
  obtain ⟨⟨alg, hin, hsigned⟩, hclaimed, haud⟩ := hdecodes _ _ _ _ _ hdecode
  obtain rfl : alg = key.alg := by simpa [validation] using hin
  have hclaimed : claims.iss = p.config.issuer := by simpa [validation] using hclaimed
  obtain ⟨hconfig, hname⟩ := issuer_some hissuer
  obtain ⟨hissuers, hvalid⟩ := foldlM_addIssuer_ok hbuilt
  have hconfig : p.config ∈ configs := by simpa [hissuers] using hconfig
  have hasymmetric := (validate_ok (hvalid _ hconfig)).2 _ hallowed
  have hlast : JwtStep lib v t (.request req) (t.next lib v (.request req)) := ⟨Nat.le_refl _⟩
  have horigin := caches_origin (hrun.concat hlast) hcached
  rw [hwired _ _ hissuer] at horigin
  have howner : KeyOf lib v s (trace ++ [(t, .request req)]) p.config.issuer key := by
    rw [hname]
    exact ⟨p.config, hissuer, horigin⟩
  refine ⟨p, key, claims, ⟨htoken, hheader, ⟨_, _, hdecode⟩, hsigned, hkid'.trans (by rw [hkid]),
    congrArg some hclaimed, hasymmetric, halg, hallowed, haud⟩, hconfig, howner, ?_⟩
  rintro iss hnot hsame
  obtain rfl : claims.iss = iss := Option.some.inj hsame
  rw [hclaimed] at hnot
  exact hnot howner

/-- The key and the algorithm a sample token is signed with. -/
def sampleSigned (token : List Char) (key : DecodingKey) (alg : Algorithm) : Prop :=
  ∃ t, issuedToken token = some t ∧ edKey t.kid = key ∧ alg = .EdDSA

theorem refusal_eq_none_iff {validation : Validation} {nowSecs : Int} {claims : JwtClaims} :
    validation.refusal nowSecs claims = none ↔ claims.iss ∈ validation.iss ∧
      (∃ aud ∈ audiences claims.aud, aud ∈ validation.aud) ∧
      validation.timesOk nowSecs claims := by
  unfold Validation.refusal
  split
  · next htimes => simp [htimes]
  · next htimes =>
    have htimes : validation.timesOk nowSecs claims = true := by simpa using htimes
    split
    · next hiss => simp [hiss]
    · next hiss =>
      split
      · next haud =>
        simp only [reduceCtorEq, false_iff]
        rintro ⟨_, ⟨aud, hmem, hin⟩, _⟩
        exact haud aud hmem hin
      · next haud =>
        push Not at hiss haud
        simp [htimes, hiss, haud]

def claimsOfSample (token : List Char) : Option JwtClaims :=
  (issuedToken token).bind fun t => JwtClaims.ofPayload t.payload

theorem sampleJwtLib_decode_iff {nowSecs : Int} {token : List Char} {key : DecodingKey}
    {validation : Validation} {claims : JwtClaims} :
    sampleJwtLib.decode nowSecs token key validation = .ok claims ↔
      (∃ alg ∈ validation.algorithms, sampleSigned token key alg) ∧
        claimsOfSample token = some claims ∧ claims.iss ∈ validation.iss ∧
        (∃ aud ∈ audiences claims.aud, aud ∈ validation.aud) ∧
        validation.timesOk nowSecs claims := by
  rw [← refusal_eq_none_iff]
  simp only [sampleJwtLib, claimsOfSample, sampleSigned]
  rcases htoken : issuedToken token with _ | t
  · simp
  rcases hclaims : JwtClaims.ofPayload t.payload with _ | decoded
  · simp [hclaims]
  by_cases halg : .EdDSA ∈ validation.algorithms
  · by_cases hkey : edKey t.kid = key
    · simp only [Option.bind_some, hclaims]
      rw [if_neg (not_not.mpr halg), if_neg (not_not.mpr hkey)]
      rcases hrefusal : validation.refusal nowSecs decoded with _ | e
      · constructor
        · intro h
          cases h
          exact ⟨⟨.EdDSA, halg, t, rfl, hkey, rfl⟩, rfl, hrefusal⟩
        · rintro ⟨_, hsome, _⟩
          cases hsome
          rfl
      · constructor
        · intro h
          cases h
        · rintro ⟨_, hsome, hnone⟩
          cases hsome
          rw [hrefusal] at hnone
          cases hnone
    · simp [halg, hkey, hclaims]
  · simp only [Option.bind_some, hclaims, halg, not_false_eq_true, if_true]
    constructor
    · intro h
      cases h
    · rintro ⟨⟨_, hmem, _, _, _, rfl⟩, _⟩
      exact absurd hmem halg

theorem sampleJwtLib_decodesSigned : sampleJwtLib.DecodesSigned sampleSigned := by
  intro nowSecs token key validation claims h
  obtain ⟨hsigned, _, hiss, haud, _⟩ := sampleJwtLib_decode_iff.mp h
  exact ⟨hsigned, hiss, haud⟩

/-- A verifier that has fetched nothing yet accepts a token under the published key. -/
theorem accepted_token_bound_fresh :
    let s := { rotated with caches := fun _ => ⟨"https://idp/jwks", 600, none⟩ }
    let req := mToken.request
    ∃ p key claims, BoundTo sampleJwtLib sampleSigned req userIdentity p key claims ∧
      p.config ∈ sampleIssuer.issuers ∧
      KeyOf sampleJwtLib sampleIssuer s ([] ++ [(s, .request req)]) p.config.issuer key ∧
      ∀ iss, ¬KeyOf sampleJwtLib sampleIssuer s ([] ++ [(s, .request req)]) iss key →
        some "idp" ≠ some iss := by
  intro s req
  have hbuilt : buildJwt (fun _ => some "https") sampleIssuer.issuers = .ok sampleIssuer := rfl
  have hwired : sampleIssuer.Wired s.caches := by
    intro iss config hissuer
    obtain ⟨hmem, _⟩ := issuer_some hissuer
    obtain rfl := mem_singleton.mp hmem
    rfl
  have hclaims : JwtClaims.ofPayload mToken.payload = some userClaims := kToken_claims
  have haccepted : (s.answered sampleJwtLib sampleIssuer req).1 = .ok userIdentity :=
    verify_issued sampleIssuer_issuer (by simp [issuedTokens]) (by decide) (by decide +kernel)
      hclaims (by decide +kernel) rfl
  exact accepted_token_bound hbuilt sampleJwtLib_decodesSigned hwired (.nil s) haccepted

end Rektifier
