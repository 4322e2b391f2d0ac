import Rektifier.IssuerKeys

namespace Rektifier

open JwtVerifier Fallible

variable {caches : String → JwksCache} {responses : String → JwksResponse}

/-- The claims of a token signed under the key, of an issuer and for an audience asked for, and
whose times are good. -/
def JwtLib.DecodesExactly (lib : JwtLib) (signed : List Char → DecodingKey → Algorithm → Prop)
    (claimsOf : List Char → Option JwtClaims) : Prop :=
  ∀ nowSecs token key validation claims, lib.decode nowSecs token key validation = .ok claims ↔
    (∃ alg ∈ validation.algorithms, signed token key alg) ∧ claimsOf token = some claims ∧
      claims.iss ∈ validation.iss ∧ (∃ aud ∈ audiences claims.aud, aud ∈ validation.aud) ∧
      validation.timesOk nowSecs claims = true

def JwtVerifier.Presented.issuerKey (p : Presented) (lib : JwtLib) (caches : String → JwksCache)
    (responses : String → JwksResponse) (instant : Nat) : Except JwksError PinnedKey :=
  ((caches p.iss).getKey p.kid instant
    (fetchKeys lib.componentError (caches p.iss).url (responses (caches p.iss).url))).1

/-- Everything but its times is right. -/
structure CorrectToken (signed : List Char → DecodingKey → Algorithm → Prop)
    (claimsOf : List Char → Option JwtClaims) (p : Presented) (key : PinnedKey)
    (claims : JwtClaims) : Prop where
  headerAlg : key.alg = p.header.alg
  allowed : key.alg ∈ p.config.allowedAlgs
  signature : signed p.token key.key key.alg
  claimed : claimsOf p.token = some claims
  issuer : claims.iss = p.config.issuer
  audience : ∃ aud ∈ audiences claims.aud, aud ∈ p.config.expectedAudience
  principal : ∃ principal, p.config.resolvePrincipal (reassembled claims) = some principal

/-- Not after the end and not before the beginning, but for the skew. -/
structure InWindow (claims : JwtClaims) (skew : Nat) (nowSecs : Int) : Prop where
  expiry : ∃ exp, claims.exp = some exp ∧ nowSecs ≤ exp + skew
  beginning : ∀ nbf, claims.nbf = some nbf → nbf - skew ≤ nowSecs

variable {lib : JwtLib} {signed : List Char → DecodingKey → Algorithm → Prop}
  {claimsOf : List Char → Option JwtClaims}

/-- Only the expiry is looked at. -/
theorem timesOk_validation (config : JwtIssuerConfig) (alg : Algorithm) (nowSecs : Int)
    (claims : JwtClaims) : (validation config alg).timesOk nowSecs claims ↔
      ∃ exp, claims.exp = some exp ∧ nowSecs ≤ exp + config.clockSkewSecs := by
  cases hexp : claims.exp with
  | none => simp [Validation.timesOk, validation, hexp]
  | some exp =>
    simp only [Validation.timesOk, validation, hexp, Option.any_some, Bool.not_true, Bool.false_or,
      Bool.not_false, Bool.true_or, Bool.and_true, Option.some.injEq, exists_eq_left']
    exact decide_eq_true_iff

theorem acceptUnder_iff_correct (hlib : lib.DecodesExactly signed claimsOf) {nowSecs : Int}
    {p : Presented} {key : PinnedKey} :
    (∃ identity, acceptUnder lib nowSecs p key = .ok identity) ↔
      ∃ claims, CorrectToken signed claimsOf p key claims ∧
        ∃ exp, claims.exp = some exp ∧ nowSecs ≤ exp + p.config.clockSkewSecs := by
  constructor
  · rintro ⟨identity, h⟩
    obtain ⟨halg, hallowed, claims, principal, hdecode, hprincipal, _⟩ := acceptUnder_ok_iff.mp h
    obtain ⟨⟨alg, hin, hsigned⟩, hclaimed, hiss, haud, htimes⟩ := (hlib _ _ _ _ _).mp hdecode
    obtain rfl : alg = key.alg := by simpa [validation] using hin
    have hiss : claims.iss = p.config.issuer := by simpa [validation] using hiss
    exact ⟨claims, ⟨halg, hallowed, hsigned, hclaimed, hiss, haud, principal, hprincipal⟩,
      (timesOk_validation _ _ _ _).mp htimes⟩
  · rintro ⟨claims, h, hexp⟩
    obtain ⟨principal, hprincipal⟩ := h.principal
    have hdecode : lib.decode nowSecs p.token key.key (validation p.config key.alg) =
        .ok claims := by
      refine (hlib _ _ _ _ _).mpr ⟨⟨key.alg, ?_, h.signature⟩, h.claimed, ?_, h.audience, ?_⟩
      · simp [validation]
      · simp [validation, h.issuer]
      · exact (timesOk_validation _ _ _ _).mpr hexp
    exact ⟨_, acceptUnder_ok_iff.mpr ⟨h.headerAlg, h.allowed, claims, principal, hdecode,
      hprincipal, rfl⟩⟩

theorem verify_ok_iff_accepts {v : JwtVerifier} {clock : Clock} {req : HttpRequest}
    {identity : Identity} :
    (v.verify lib caches responses clock req).1 = .ok identity ↔
      ∃ p key, v.present lib req = .ok p ∧
        p.issuerKey lib caches responses clock.instant = .ok key ∧
        acceptUnder lib (clock.wallMs / 1000) p key = .ok identity := by
  cases hpresent : v.present lib req with
  | error e =>
    rw [verify, hpresent]
    constructor
    · intro h
      cases h
    · rintro ⟨_, _, h, _⟩
      cases h
  | ok p =>
    have hverify : (v.verify lib caches responses clock req).1 =
        ((p.issuerKey lib caches responses clock.instant).mapError (keyError p.kid) >>=
          acceptUnder lib (clock.wallMs / 1000) p) := by
      rw [verify, hpresent]
      rfl
    rw [hverify]
    cases hkey : p.issuerKey lib caches responses clock.instant with
    | error e =>
      constructor
      · intro h
        cases h
      · rintro ⟨_, _, hp, h, _⟩
        cases hp
        cases hkey.symm.trans h
    | ok key =>
      refine ⟨fun h => ⟨p, key, rfl, hkey, h⟩, ?_⟩
      rintro ⟨_, _, hp, h, haccept⟩
      cases hp
      cases hkey.symm.trans h
      exact haccept

/-- The tokens accepted are those correct and not expired. -/
theorem verify_ok_iff_correct (hlib : lib.DecodesExactly signed claimsOf) {v : JwtVerifier}
    {clock : Clock}
    {req : HttpRequest} :
    (∃ identity, (v.verify lib caches responses clock req).1 = .ok identity) ↔
      ∃ p key claims, v.present lib req = .ok p ∧
        p.issuerKey lib caches responses clock.instant = .ok key ∧
        CorrectToken signed claimsOf p key claims ∧
        ∃ exp, claims.exp = some exp ∧ clock.wallMs / 1000 ≤ exp + p.config.clockSkewSecs := by
  constructor
  · rintro ⟨identity, h⟩
    obtain ⟨p, key, hpresent, hkey, haccept⟩ := verify_ok_iff_accepts.mp h
    obtain ⟨claims, hcorrect, hexp⟩ := (acceptUnder_iff_correct hlib).mp ⟨identity, haccept⟩
    exact ⟨p, key, claims, hpresent, hkey, hcorrect, hexp⟩
  · rintro ⟨p, key, claims, hpresent, hkey, hcorrect, hexp⟩
    obtain ⟨identity, haccept⟩ := (acceptUnder_iff_correct hlib).mpr ⟨claims, hcorrect, hexp⟩
    exact ⟨identity, verify_ok_iff_accepts.mpr ⟨p, key, hpresent, hkey, haccept⟩⟩

/-- A token is never accepted after its end. It is never accepted before its beginning either, at
any time since the epoch, exactly when that is no more than the skew after the epoch. -/
theorem token_window_iff (hlib : lib.DecodesExactly signed claimsOf) (v : JwtVerifier)
    (caches : String → JwksCache) (responses : String → JwksResponse) (instant : Nat)
    (req : HttpRequest) :
    (∀ wallMs identity p claims,
      (v.verify lib caches responses ⟨instant, wallMs⟩ req).1 = .ok identity →
      v.present lib req = .ok p → claimsOf p.token = some claims →
      ∃ exp, claims.exp = some exp ∧ wallMs / 1000 ≤ exp + p.config.clockSkewSecs) ∧
    ((∀ wallMs identity p claims, 0 ≤ wallMs →
      (v.verify lib caches responses ⟨instant, wallMs⟩ req).1 = .ok identity →
      v.present lib req = .ok p → claimsOf p.token = some claims →
      InWindow claims p.config.clockSkewSecs (wallMs / 1000)) ↔
    ∀ p key claims exp, v.present lib req = .ok p →
      p.issuerKey lib caches responses instant = .ok key →
      CorrectToken signed claimsOf p key claims → claims.exp = some exp →
      0 ≤ exp + p.config.clockSkewSecs → ∀ nbf, claims.nbf = some nbf →
        nbf ≤ p.config.clockSkewSecs) := by
  have haccepted : ∀ wallMs identity p claims,
      (v.verify lib caches responses ⟨instant, wallMs⟩ req).1 = .ok identity →
      v.present lib req = .ok p → claimsOf p.token = some claims →
      ∃ key, p.issuerKey lib caches responses instant = .ok key ∧
        CorrectToken signed claimsOf p key claims ∧
        ∃ exp, claims.exp = some exp ∧ wallMs / 1000 ≤ exp + p.config.clockSkewSecs := by
    intro wallMs identity p claims hverify hpresent hclaims
    obtain ⟨p', key, claims', hpresent', hkey, hcorrect, hexp⟩ :=
      (verify_ok_iff_correct hlib).mp ⟨identity, hverify⟩
    obtain rfl : p = p' := Except.ok.inj (hpresent.symm.trans hpresent')
    obtain rfl : claims = claims' := Option.some.inj (hclaims.symm.trans hcorrect.claimed)
    exact ⟨key, hkey, hcorrect, hexp⟩
  refine ⟨fun wallMs identity p claims hverify hpresent hclaims => ?_, ?_, ?_⟩
  · obtain ⟨_, _, _, hexp⟩ := haccepted wallMs identity p claims hverify hpresent hclaims
    exact hexp
  · intro hwindow p key claims exp hpresent hkey hcorrect hexp hend nbf hnbf
    -- the token is accepted at the epoch
    have hnow : (0 : Int) / 1000 ≤ exp + p.config.clockSkewSecs := by omega
    have hok : ∃ identity, (v.verify lib caches responses ⟨instant, 0⟩ req).1 = .ok identity :=
      (verify_ok_iff_correct hlib).mpr
        ⟨p, key, claims, hpresent, hkey, hcorrect, exp, hexp, hnow⟩
    obtain ⟨identity, hverify⟩ := hok
    have hbegun := (hwindow 0 identity p claims le_rfl hverify hpresent hcorrect.claimed).beginning
      nbf hnbf
    simpa using hbegun
  · intro hbegins wallMs identity p claims hwall hverify hpresent hclaims
    obtain ⟨key, hkey, hcorrect, exp, hexp, hnow⟩ :=
      haccepted wallMs identity p claims hverify hpresent hclaims
    have hsecs : 0 ≤ wallMs / 1000 := by omega
    refine ⟨⟨exp, hexp, hnow⟩, fun nbf hnbf => ?_⟩
    have hle := hbegins p key claims exp hpresent hkey hcorrect hexp (hsecs.trans hnow) nbf hnbf
    have hsecs : (0 : ℚ) ≤ ((wallMs / 1000 : Int) : ℚ) := by exact_mod_cast hsecs
    linarith

theorem sampleJwtLib_decodesExactly : sampleJwtLib.DecodesExactly sampleSigned claimsOfSample :=
  fun _ _ _ _ _ => sampleJwtLib_decode_iff

def laterClaims : JwtClaims :=
  ⟨"idp", .str "db", some "user", some 1000, .ofList [("nbf", .num 900)]⟩

theorem claimsOfSample_issued {t : IssuedToken} (ht : t ∈ issuedTokens) :
    claimsOfSample t.text = JwtClaims.ofPayload t.payload := by
  rw [claimsOfSample, (issuedTokens_read t ht).1, Option.bind_some]

theorem token_window_iff_user : InWindow userClaims 60 0 := by
  have ht : kToken ∈ issuedTokens := by simp [issuedTokens]
  have hbegins := (token_window_iff sampleJwtLib_decodesExactly sampleIssuer
    rotated.caches rotated.responses 0 kToken.request).2.mpr
  have hclaims : claimsOfSample (samplePresented kToken).token = some userClaims :=
    (claimsOfSample_issued ht).trans kToken_claims
  have hverify : (sampleIssuer.verify sampleJwtLib rotated.caches rotated.responses ⟨0, 0⟩
      kToken.request).1 = .ok _ :=
    verify_issued sampleIssuer_issuer ht (by decide) (by decide +kernel) kToken_claims
      (by decide +kernel) rfl
  refine hbegins ?_ 0 _ _ _ le_rfl hverify (present_sample ht) hclaims
  intro p key claims exp hpresent _ hcorrect _ _ nbf hnbf
  cases (present_sample ht).symm.trans hpresent
  cases hclaims.symm.trans hcorrect.claimed
  cases hnbf

/-- With a skew of a minute a token is accepted at the epoch, fifteen minutes before it is valid. -/
theorem unbegun_token_accepted : sampleJwtLib.DecodesExactly sampleSigned claimsOfSample ∧
    sampleIssuer.present sampleJwtLib laterToken.request = .ok (samplePresented laterToken) ∧
    claimsOfSample (samplePresented laterToken).token = some laterClaims ∧
    (∃ identity, (sampleIssuer.verify sampleJwtLib rotated.caches rotated.responses
      ⟨0, 0⟩ laterToken.request).1 = .ok identity) ∧
    ¬ InWindow laterClaims (samplePresented laterToken).config.clockSkewSecs 0 := by
  have ht : laterToken ∈ issuedTokens := by simp [issuedTokens]
  have hclaims : JwtClaims.ofPayload laterToken.payload = some laterClaims := by decide +kernel
  refine ⟨sampleJwtLib_decodesExactly, present_sample ht, (claimsOfSample_issued ht).trans hclaims,
    ⟨_, verify_issued sampleIssuer_issuer ht (by decide) (by decide +kernel) hclaims
      (by decide +kernel) rfl⟩, fun h => ?_⟩
  have hbegun := h.beginning 900 rfl
  norm_num [samplePresented, sampleConfig] at hbegun

end Rektifier
