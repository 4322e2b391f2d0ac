import Rektifier.TokenWindow

namespace Rektifier

open JwtVerifier Fallible List

variable {pieces : List TemplatePiece}

def JwtLib.DecodesPayload (lib : JwtLib) : Prop :=
  ∀ nowSecs token key validation claims, lib.decode nowSecs token key validation = .ok claims →
    (lib.payload token).bind JwtClaims.ofPayload = some claims

/-- Characters and placeholders. -/
inductive TemplatePiece where
  | text (c : Char)
  | placeholder (name : List Char)

namespace TemplatePiece

def source : TemplatePiece → List Char
  | text c => [c]
  | placeholder name => '\x7b' :: (name ++ ['\x7d'])

def value (claims : ClaimMap) : TemplatePiece → Option (List Char)
  | text c => some [c]
  | placeholder name => (claims.text (.ofList name)).map String.toList

/-- No brace stands where it would be read otherwise. -/
def Proper : TemplatePiece → Prop
  | text c => c ≠ '\x7b'
  | placeholder name => '\x7d' ∉ name

end TemplatePiece

/-- With its placeholders replaced, where they all name texts among the claims. -/
def fillTemplate (claims : ClaimMap) (pieces : List TemplatePiece) : Option (List Char) :=
  (pieces.mapM (TemplatePiece.value claims)).map List.flatten

/-- The identity has all that the payload claims. -/
structure KeepsClaims (payload : ClaimMap) (config : JwtIssuerConfig) (identity : Identity) :
    Prop where
  claims : ∀ name value, payload.get name = some value → identity.claims.get name = some value
  principal : ∀ template pieces filled, config.principalFormat = .custom template →
    template.toList = pieces.flatMap TemplatePiece.source → (∀ piece ∈ pieces, piece.Proper) →
    fillTemplate payload pieces = some filled → identity.principal = .ofList filled

/-- Not the audience, nor a null in the place of the subject or the expiry. -/
def ClaimKept (name : String) (value : Json) : Prop :=
  name ≠ "aud" ∧ (value = .null → name ≠ "sub" ∧ name ≠ "exp")

variable {payload : ClaimMap} {claims : JwtClaims} {lib : JwtLib}

theorem ofPayload_eq_some (h : JwtClaims.ofPayload payload = some claims) :
    payload.get "iss" = some (.str claims.iss) ∧ payload.get "aud" = some claims.aud ∧
      optionalField Json.asStr (payload.get "sub") = some claims.sub ∧
      optionalField Json.asInt (payload.get "exp") = some claims.exp ∧
      claims.extra = payload.eraseAll ["iss", "aud", "sub", "exp"] := by
  unfold JwtClaims.ofPayload at h
  obtain ⟨iss, hiss, h⟩ := Option.bind_eq_some_iff.mp h
  obtain ⟨aud, haud, h⟩ := Option.bind_eq_some_iff.mp h
  obtain ⟨sub, hsub, h⟩ := Option.bind_eq_some_iff.mp h
  obtain ⟨exp, hexp, h⟩ := Option.bind_eq_some_iff.mp h
  cases h
  obtain ⟨v, hv, htext⟩ := Option.bind_eq_some_iff.mp hiss
  cases v <;> cases htext
  exact ⟨hv, haud, hsub, hexp, rfl⟩

theorem extra_get (h : JwtClaims.ofPayload payload = some claims) (name : String) :
    claims.extra.get name =
      if name ∈ ["iss", "aud", "sub", "exp"] then none else payload.get name := by
  obtain ⟨_, _, _, _, hextra⟩ := ofPayload_eq_some h
  rw [hextra]
  split
  · next hmem =>
    refine Option.eq_none_iff_forall_ne_some.mpr fun v hv => ?_
    exact (OrderedMap.get_eraseAll_eq_some hv).1 hmem
  · next hmem => exact OrderedMap.get_eraseAll_of_not_mem hmem

theorem get_insertSome {α : Type} (m : ClaimMap) (k name : String) (f : α → Json) (o : Option α) :
    (o.elim m fun a => m.insert k (f a)).get name =
      if name = k then (o.map f).or (m.get name) else m.get name := by
  by_cases hname : name = k
  · subst hname
    cases o with
    | none => simp
    | some a => simp
  · rw [if_neg hname]
    cases o with
    | none => rfl
    | some a => exact m.get_insert_of_ne hname _

/-- The claims put together again, without the audience. -/
theorem reassembled_get (h : JwtClaims.ofPayload payload = some claims) (name : String) :
    (reassembled claims).get name =
      if name = "exp" then claims.exp.map (fun exp => .num exp)
      else if name = "sub" then claims.sub.map .str
      else if name = "aud" then none
      else payload.get name := by
  have hiss := (ofPayload_eq_some h).1
  have hextra := extra_get h name
  have hassembled : reassembled claims =
      claims.exp.elim (claims.sub.elim (claims.extra.insert "iss" (.str claims.iss)) fun sub =>
        (claims.extra.insert "iss" (.str claims.iss)).insert "sub" (.str sub)) fun exp =>
        (claims.sub.elim (claims.extra.insert "iss" (.str claims.iss)) fun sub =>
          (claims.extra.insert "iss" (.str claims.iss)).insert "sub" (.str sub)).insert "exp"
            (.num exp) := by
    unfold reassembled
    cases claims.sub <;> cases claims.exp <;> rfl
  have hother : name ≠ "iss" → (claims.extra.insert "iss" (.str claims.iss)).get name =
      if name ∈ ["iss", "aud", "sub", "exp"] then none else payload.get name := by
    intro hne
    rw [OrderedMap.get_insert_of_ne _ hne, hextra]
  rw [hassembled, get_insertSome, get_insertSome]
  by_cases hexp : name = "exp"
  · subst hexp
    simp [hother]
  by_cases hsub : name = "sub"
  · subst hsub
    simp [hother]
  by_cases hissName : name = "iss"
  · subst hissName
    simp [hiss]
  · simp [hexp, hsub, hissName, hother]

/-- A field that is written back is there and not null. -/
theorem optionalField_map_iff {α : Type} {read : Json → Option α} {write : α → Json}
    (hwrite : ∀ v a, read v = some a → write a = v) {x : Option Json} {o : Option α}
    (h : optionalField read x = some o) (v : Json) :
    o.map write = some v ↔ x = some v ∧ v ≠ .null := by
  unfold optionalField at h
  split at h
  · cases h
    simp
  · cases h
    simp +contextual [eq_comm]
  · next v' hnull =>
    obtain ⟨a, hread, rfl⟩ := Option.map_eq_some_iff.mp h
    rw [Option.map_some, hwrite v' a hread]
    refine ⟨fun heq => ⟨heq, ?_⟩, And.left⟩
    cases heq
    exact hnull

theorem asStr_write (v : Json) (s : String) (h : v.asStr = some s) : Json.str s = v := by
  cases v <;> cases h
  rfl

theorem asInt_write (v : Json) (n : Int) (h : v.asInt = some n) : Json.num n = v := by
  cases v with
  | num q =>
    change (if q.den = 1 then some q.num else none) = some n at h
    split at h
    · next hden =>
      cases h
      rw [Rat.coe_int_num_of_den_eq_one hden]
    · cases h
  | _ => cases h

/-- The claims kept are those of the payload but a few. -/
theorem reassembled_get_iff (h : JwtClaims.ofPayload payload = some claims) (name : String)
    (value : Json) : (reassembled claims).get name = some value ↔
      payload.get name = some value ∧ ClaimKept name value := by
  obtain ⟨_, _, hsub, hexp, _⟩ := ofPayload_eq_some h
  rw [reassembled_get h, ClaimKept]
  by_cases hnameExp : name = "exp"
  · subst hnameExp
    simpa using optionalField_map_iff asInt_write hexp value
  by_cases hnameSub : name = "sub"
  · subst hnameSub
    simpa using optionalField_map_iff asStr_write hsub value
  by_cases hnameAud : name = "aud"
  · simp [hnameAud]
  · simp [hnameExp, hnameSub, hnameAud]

theorem text_of_reassembled (h : JwtClaims.ofPayload payload = some claims) {name text : String}
    (htext : (reassembled claims).text name = some text) : payload.text name = some text := by
  obtain ⟨v, hv, hstr⟩ := Option.bind_eq_some_iff.mp htext
  exact Option.bind_eq_some_iff.mpr ⟨v, ((reassembled_get_iff h name v).mp hv).1, hstr⟩

theorem renderTemplate_placeholder (claims : ClaimMap) {name : List Char} (hname : '\x7d' ∉ name)
    (seen rest : List Char) :
    renderTemplate claims (some seen) (name ++ '\x7d' :: rest) =
      (claims.text (.ofList (seen ++ name))).bind fun v =>
        (renderTemplate claims none rest).map (v.toList ++ ·) := by
  induction name generalizing seen with
  | nil =>
    rw [nil_append, append_nil, renderTemplate, if_pos rfl]
    rfl
  | cons c name ih =>
    obtain ⟨hc, hname⟩ := not_or.mp (mt mem_cons.mpr hname)
    rw [cons_append, renderTemplate, if_neg (Ne.symm hc), ih hname, append_assoc]
    rfl

/-- A template is rendered piece by piece. -/
theorem renderTemplate_pieces (claims : ClaimMap)
    (hproper : ∀ piece ∈ pieces, piece.Proper) :
    renderTemplate claims none (pieces.flatMap TemplatePiece.source) =
      fillTemplate claims pieces := by
  induction pieces with
  | nil => rfl
  | cons piece pieces ih =>
    have hrest := ih fun piece hp => hproper piece (mem_cons_of_mem _ hp)
    have hfill : fillTemplate claims (piece :: pieces) =
        (piece.value claims).bind fun v => (fillTemplate claims pieces).map (v ++ ·) := by
      rw [fillTemplate, mapM_cons]
      cases piece.value claims with
      | none => rfl
      | some v =>
        rw [fillTemplate]
        cases pieces.mapM (TemplatePiece.value claims) <;> rfl
    have hpiece := hproper piece mem_cons_self
    rw [hfill, flatMap_cons]
    cases piece with
    | text c =>
      rw [TemplatePiece.source, singleton_append, renderTemplate, if_neg hpiece, hrest]
      rfl
    | placeholder name =>
      rw [TemplatePiece.source, cons_append, append_assoc, renderTemplate, if_pos rfl,
        singleton_append, renderTemplate_placeholder claims hpiece, hrest]
      rw [TemplatePiece.value, Option.bind_map]
      rfl

theorem fillTemplate_of_reassembled (h : JwtClaims.ofPayload payload = some claims)
    {filled : List Char}
    (hfill : fillTemplate (reassembled claims) pieces = some filled) :
    fillTemplate payload pieces = some filled := by
  obtain ⟨values, hvalues, rfl⟩ := Option.map_eq_some_iff.mp hfill
  refine Option.map_eq_some_iff.mpr ⟨values, ?_, rfl⟩
  clear hfill
  induction pieces generalizing values with
  | nil => exact hvalues
  | cons piece pieces ih =>
    rw [mapM_cons] at hvalues ⊢
    obtain ⟨v, hv, hvalues⟩ := Option.bind_eq_some_iff.mp hvalues
    obtain ⟨vs, hvs, hvalues⟩ := Option.bind_eq_some_iff.mp hvalues
    have hv' : piece.value payload = some v := by
      cases piece with
      | text c => exact hv
      | placeholder name =>
        obtain ⟨text, htext, rfl⟩ := Option.map_eq_some_iff.mp hv
        exact Option.map_eq_some_iff.mpr ⟨text, text_of_reassembled h htext, rfl⟩
    exact Option.bind_eq_some_iff.mpr ⟨v, hv', Option.bind_eq_some_iff.mpr ⟨vs, ih vs hvs, hvalues⟩⟩

/-- No identity has all that the payload claims: the audience is always missing, and of the other
claims a null subject or expiry. A principal that is made of a template is as it should be. -/
theorem identity_never_keeps_claims (hlib : lib.DecodesPayload) {v : JwtVerifier}
    {caches : String → JwksCache} {responses : String → JwksResponse} {clock : Clock}
    {req : HttpRequest} {identity : Identity}
    (hverify : (v.verify lib caches responses clock req).1 = .ok identity) :
    ∃ p payload, v.present lib req = .ok p ∧ lib.payload p.token = some payload ∧
      ¬ KeepsClaims payload p.config identity ∧
      (∀ name value, identity.claims.get name = some value ↔
        payload.get name = some value ∧ ClaimKept name value) ∧
      ∀ template pieces filled, p.config.principalFormat = .custom template →
        template.toList = pieces.flatMap TemplatePiece.source → (∀ piece ∈ pieces, piece.Proper) →
        fillTemplate payload pieces = some filled → identity.principal = .ofList filled := by
  obtain ⟨p, key, hpresent, _, haccept⟩ := verify_ok_iff_accepts.mp hverify
  obtain ⟨_, _, claims, principal, hdecode, hprincipal, rfl⟩ := acceptUnder_ok_iff.mp haccept
  obtain ⟨payload, hpayload, hclaims⟩ := Option.bind_eq_some_iff.mp (hlib _ _ _ _ _ hdecode)
  refine ⟨p, payload, hpresent, hpayload, fun hkeeps => ?_, reassembled_get_iff hclaims, ?_⟩
  · have haud := hkeeps.claims "aud" _ (ofPayload_eq_some hclaims).2.1
    exact ((reassembled_get_iff hclaims _ _).mp haud).2.1 rfl
  · intro template pieces filled hformat hsource hproper hfill
    rw [JwtIssuerConfig.resolvePrincipal, hformat] at hprincipal
    obtain ⟨out, hout, rfl⟩ := Option.map_eq_some_iff.mp hprincipal
    rw [hsource, renderTemplate_pieces _ hproper] at hout
    have := fillTemplate_of_reassembled hclaims hout
    rw [hfill] at this
    cases this
    rfl

theorem sampleJwtLib_decodesPayload : sampleJwtLib.DecodesPayload := by
  intro nowSecs token key validation claims h
  obtain ⟨_, hclaims, _⟩ := sampleJwtLib_decode_iff.mp h
  obtain ⟨t, ht, hpayload⟩ := Option.bind_eq_some_iff.mp hclaims
  obtain rfl : t.text = token := by simpa using List.find?_some ht
  obtain ⟨_, _, _, hread, _⟩ := issuedTokens_read t (mem_of_find?_eq_some ht)
  rw [hread, Option.bind_some, hpayload]

def templateIssuer : JwtVerifier :=
  ⟨[{ sampleConfig with principalFormat := .custom "idp:\x7bsub\x7d" }]⟩

theorem templateIssuer_accepts :
    (templateIssuer.verify sampleJwtLib rotated.caches rotated.responses ⟨0, 0⟩
      kToken.request).1 = .ok userIdentity :=
  verify_issued rfl (by simp [issuedTokens]) (by decide) (by decide +kernel) kToken_claims
    (by decide +kernel) (by decide +kernel)

theorem identity_never_keeps_claims_sample :
    (templateIssuer.verify sampleJwtLib rotated.caches rotated.responses ⟨0, 0⟩
      kToken.request).1 = .ok userIdentity ∧
    ∃ config, ¬ KeepsClaims kToken.payload config userIdentity := by
  obtain ⟨p, payload, hpresent, hpayload, hnot, _⟩ :=
    identity_never_keeps_claims sampleJwtLib_decodesPayload templateIssuer_accepts
  have ht : kToken ∈ issuedTokens := by simp [issuedTokens]
  cases (present_issued rfl ht).symm.trans hpresent
  obtain ⟨_, _, _, hsame, _⟩ := issuedTokens_read kToken ht
  cases hsame.symm.trans hpayload
  exact ⟨templateIssuer_accepts, _, hnot⟩

/-- The audience of the payload is not among the claims of the identity. -/
theorem audience_lost :
    (templateIssuer.verify sampleJwtLib rotated.caches rotated.responses ⟨0, 0⟩
      kToken.request).1 = .ok userIdentity ∧
    kToken.payload.get "aud" = some (.str "db") ∧ userIdentity.claims.get "aud" = none :=
  ⟨templateIssuer_accepts, by decide +kernel, by decide +kernel⟩

end Rektifier
