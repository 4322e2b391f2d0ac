import Rektifier.Sigv4Canonical

namespace Rektifier

open Fallible Sigv4Verifier List

def amzTarget : String := "x-amz-target"

section Accepted

variable {lib : Sigv4Lib} {st st' : Sigv4State} {req req' : HttpRequest} {secret : String}
  {parsed : ParsedAuth}

structure AcceptedBy (lib : Sigv4Lib) (secret : String) (st : Sigv4State) (req : HttpRequest)
    (parsed : ParsedAuth) : Prop where
  accepted : ∃ identity, verify lib st req = .ok identity
  authorization : (req.authorization >>= parseAuthorization) = .ok parsed
  secret : (st.fetchSecret parsed.akid).map Credential.secret = .ok secret

/-- The signature was made over the date and the canonical request. -/
theorem AcceptedBy.signed (h : AcceptedBy lib secret st req parsed) : ∃ amzDate canonical,
    req.amzDate = .ok amzDate ∧ lib.canonicalRequest req parsed.signedHeaders = .ok canonical ∧
      lib.computeSignature (lib.signingKey secret parsed) (lib.stringToSign amzDate parsed canonical) =
        parsed.signature.toList := by
  obtain ⟨identity, hverify⟩ := h.accepted
  obtain ⟨parsed', amzDate, credential, hchecks, ⟨canonical, hcanonical, hsigned⟩, _⟩ :=
    verify_ok_iff.mp hverify
  obtain rfl : parsed' = parsed := Except.ok.inj (hchecks.authorization.symm.trans h.authorization)
  have hsecret := h.secret
  rw [hchecks.known] at hsecret
  obtain rfl : credential.secret = secret := Except.ok.inj hsecret
  exact ⟨amzDate, canonical, hchecks.dated, hcanonical, hsigned⟩

theorem amzDate_eq_ok {amzDate : String} (h : req.amzDate = .ok amzDate) :
    ∃ value, req.header "x-amz-date" = some value ∧ headerText value = some amzDate := by
  unfold HttpRequest.amzDate at h
  split at h
  · cases h
  · next value hvalue =>
    cases htext : headerText value with
    | none =>
      rw [htext] at h
      cases h
    | some text =>
      rw [htext] at h
      obtain rfl : text = amzDate := Except.ok.inj h
      exact ⟨value, hvalue, htext⟩

/-- Requests accepted by one secret on one authorization agree on all that was signed. -/
theorem AcceptedBy.alike (hlib : lib.NoCollisions) (h : AcceptedBy lib secret st req parsed)
    (h' : AcceptedBy lib secret st' req' parsed) :
    SignedAlike lib parsed.signedHeaders req req' ∧
      req.header "x-amz-date" = req'.header "x-amz-date" := by
  obtain ⟨amzDate, canonical, hdate, hcanonical, hsigned⟩ := h.signed
  obtain ⟨amzDate', canonical', hdate', hcanonical', hsigned'⟩ := h'.signed
  obtain ⟨value, hvalue, htext⟩ := amzDate_eq_ok hdate
  obtain ⟨value', hvalue', htext'⟩ := amzDate_eq_ok hdate'
  have hsts := computeSignature_injective hlib _ (hsigned.trans hsigned'.symm)
  obtain ⟨rfl, rfl⟩ := stringToSign_inj hlib (newline_not_mem_headerText htext)
    (newline_not_mem_headerText htext') hsts
  refine ⟨signedAlike_of_canonicalRequest hlib hcanonical hcanonical', ?_⟩
  rw [hvalue, hvalue', headerText_inj htext htext']

end Accepted

namespace HttpRequest

/-- Other values for the target, everything else as it was. -/
def withTargets (req : HttpRequest) (values : List (List UInt8)) : HttpRequest :=
  { req with headers := values.map (fun v => (amzTarget, v)) ++
      req.headers.filter fun h => h.1 ≠ amzTarget }

variable {req : HttpRequest} {values : List (List UInt8)}

theorem headerValues_withTargets : (req.withTargets values).headerValues amzTarget = values := by
  simp [withTargets, headerValues, filter_map, filter_filter, Function.comp_def]

theorem headerValues_withTargets_of_ne {name : String} (h : name ≠ amzTarget) :
    (req.withTargets values).headerValues name = req.headerValues name := by
  have hnew : (values.map fun v => (amzTarget, v)).filter (fun h => h.1 = name) = [] := by
    simp [filter_map, Function.comp_def, Ne.symm h]
  have hold : ∀ p : String × List UInt8, (p.1 = name ∧ p.1 ≠ amzTarget) ↔ p.1 = name :=
    fun p => ⟨And.left, fun hp => ⟨hp, hp ▸ h⟩⟩
  rw [withTargets, headerValues, filter_append, hnew, filter_filter]
  simp only [nil_append, ← Bool.decide_and, hold]
  rfl

theorem header_withTargets_of_ne {name : String} (h : name ≠ amzTarget) :
    (req.withTargets values).header name = req.header name := by
  rw [header, headerValues_withTargets_of_ne h]
  rfl

theorem authorization_withTargets : (req.withTargets values).authorization = req.authorization := by
  rw [authorization, header_withTargets_of_ne (by decide)]
  rfl

theorem amzDate_withTargets : (req.withTargets values).amzDate = req.amzDate := by
  rw [amzDate, header_withTargets_of_ne (by decide)]
  rfl

theorem target_withTargets (value : List UInt8) :
    (req.withTargets (value :: values)).target = headerText value := by
  have hvalues : (req.withTargets (value :: values)).headerValues "x-amz-target" = value :: values :=
    headerValues_withTargets
  rw [target, header, hvalues]
  rfl

/-- The canonical form shows the target as it is. -/
structure Plain (req : HttpRequest) : Prop where
  path : req.path ≠ ""
  target : req.headerValues amzTarget = [] ∨ ∃ value text, req.headerValues amzTarget = [value] ∧
    headerText value = some text ∧ text ≠ "" ∧ trimCollapse text.toList = text.toList

theorem Plain.target_eq (h : req.Plain) : req.target =
    if joinValues (req.headerValues amzTarget) = [] then none
    else some (.ofList (joinValues (req.headerValues amzTarget))) := by
  have htarget : req.target = (req.headerValues amzTarget).head?.bind headerText := rfl
  rcases h.target with hnone | ⟨value, text, hvalue, htext, hnonempty, hfolded⟩
  · rw [htarget, hnone]
    rfl
  · have hjoined : joinValues [value] = text.toList := by
      simp [joinValues, joinValue, htext, hfolded]
    rw [htarget, hvalue, hjoined, if_neg (by simpa using hnonempty), String.ofList_toList]
    simpa using htext

end HttpRequest

section Retargeted

variable {lib : Sigv4Lib} {st : Sigv4State} {req : HttpRequest} {secret : String}
  {parsed : ParsedAuth} {values : List (List UInt8)}

theorem canonicalRequest_withTargets {signedHeaders : String}
    (h : amzTarget.toList ∈ signedNames signedHeaders →
      joinValues values = joinValues (req.headerValues amzTarget)) :
    lib.canonicalRequest (req.withTargets values) signedHeaders =
      lib.canonicalRequest req signedHeaders := by
  have hlines : ((signedNames signedHeaders).insertionSort (· ≤ ·)).flatMap
      (namedLine (req.withTargets values)) =
        ((signedNames signedHeaders).insertionSort (· ≤ ·)).flatMap (namedLine req) := by
    refine flatMap_congr fun name hname => ?_
    by_cases htarget : name = amzTarget.toList
    · subst htarget
      have hjoin := h ((mem_insertionSort _).mp hname)
      rw [namedLine, namedLine, String.ofList_toList, HttpRequest.headerValues_withTargets, hjoin]
    · have hne : String.ofList name ≠ amzTarget := fun heq => htarget (by simp [← heq])
      rw [namedLine, namedLine, HttpRequest.headerValues_withTargets_of_ne hne]
  rw [canonicalRequest_eq, canonicalRequest_eq, hlines]
  rfl

/-- Another target goes unnoticed unless the header is signed and looks different. -/
theorem AcceptedBy.withTargets (h : AcceptedBy lib secret st req parsed)
    (hvalues : amzTarget.toList ∈ signedNames parsed.signedHeaders →
      joinValues values = joinValues (req.headerValues amzTarget)) :
    AcceptedBy lib secret st (req.withTargets values) parsed := by
  have hsame : (req.withTargets values).authorization = req.authorization :=
    HttpRequest.authorization_withTargets
  have hauth := h.authorization
  rw [← hsame] at hauth
  refine ⟨?_, hauth, h.secret⟩
  obtain ⟨identity, hverify⟩ := h.accepted
  obtain ⟨parsed', amzDate, credential, hchecks, ⟨canonical, hcanonical, hsigned⟩, hidentity⟩ :=
    verify_ok_iff.mp hverify
  obtain rfl : parsed' = parsed := Except.ok.inj (hchecks.authorization.symm.trans h.authorization)
  have hchecks' : PassesChecks lib st (req.withTargets values) parsed' amzDate credential :=
    ⟨hauth, HttpRequest.amzDate_withTargets.trans hchecks.dated, hchecks.recent, hchecks.known⟩
  exact ⟨identity, verify_ok_iff.mpr ⟨parsed', amzDate, credential, hchecks',
    ⟨canonical, (canonicalRequest_withTargets hvalues).trans hcanonical, hsigned⟩, hidentity⟩⟩

end Retargeted

/-- What the server acts on is the same. -/
structure ActedOnAlike (lib : Sigv4Lib) (req req' : HttpRequest) : Prop where
  method : req.method = req'.method
  path : req.path = req'.path
  params : (lib.decodedParams (req.query.getD "")).Perm (lib.decodedParams (req'.query.getD ""))
  amzDate : req.header "x-amz-date" = req'.header "x-amz-date"
  body : req.body = req'.body
  target : req.target = req'.target

theorem agree_of_signed_target {lib : Sigv4Lib} {parsed : ParsedAuth} {req req' : HttpRequest}
    (halike : SignedAlike lib parsed.signedHeaders req req')
    (hdate : req.header "x-amz-date" = req'.header "x-amz-date")
    (hsigned : amzTarget.toList ∈ signedNames parsed.signedHeaders) (hplain : req.Plain)
    (hplain' : req'.Plain) : ActedOnAlike lib req req' := by
  have hvalues := halike.values _ hsigned
  rw [String.ofList_toList] at hvalues
  refine ⟨halike.method, ?_, halike.params, hdate, halike.body, ?_⟩
  · rcases halike.path with hpath | ⟨hpath, hpath'⟩
    · exact hpath
    · have hslash : req.path = "/" := by simpa [hplain.path] using hpath
      have hslash' : req'.path = "/" := by simpa [hplain'.path] using hpath'
      rw [hslash, hslash']
  · rw [hplain.target_eq, hplain'.target_eq, hvalues]

/-- Under a target that is not signed, another is accepted. -/
theorem exists_retargeted {lib : Sigv4Lib} {st : Sigv4State} {secret : String} {req : HttpRequest}
    {parsed : ParsedAuth} (h : AcceptedBy lib secret st req parsed) (hplain : req.Plain)
    (hunsigned : amzTarget.toList ∉ signedNames parsed.signedHeaders) :
    ∃ req', req'.header "authorization" = req.header "authorization" ∧
      AcceptedBy lib secret st req' parsed ∧ req'.Plain ∧ req'.target ≠ req.target := by
  have hother : ∃ value text, headerText value = some text ∧ text ≠ "" ∧
      trimCollapse text.toList = text.toList ∧ headerText value ≠ req.target := by
    by_cases htarget : req.target = some "A"
    · exact ⟨[66], "B", by decide, by decide, by decide, by rw [htarget]; decide⟩
    · exact ⟨[65], "A", by decide, by decide, by decide, fun heq => htarget (heq.symm.trans (by decide))⟩
  obtain ⟨value, text, htext, hnonempty, hfolded, hne⟩ := hother
  refine ⟨req.withTargets [value], HttpRequest.header_withTargets_of_ne (by decide),
    h.withTargets fun hsigned => absurd hsigned hunsigned, ⟨hplain.path, .inr ?_⟩, ?_⟩
  · exact ⟨value, text, HttpRequest.headerValues_withTargets, htext, hnonempty, hfolded⟩
  · rwa [HttpRequest.target_withTargets]

/-- A first value taken for empty changes what dispatch reads, signed or not. -/
theorem exists_masked {lib : Sigv4Lib} {st : Sigv4State} {secret : String} {req : HttpRequest}
    {parsed : ParsedAuth} (h : AcceptedBy lib secret st req parsed) :
    ∃ req', req'.header "authorization" = req.header "authorization" ∧
      AcceptedBy lib secret st req' parsed ∧ req'.target ≠ req.target := by
  have hmask : ∃ value, joinValue [] value = [] ∧ headerText value ≠ req.target := by
    by_cases htarget : req.target = some ""
    · exact ⟨[128], by decide, by rw [htarget]; decide⟩
    · exact ⟨[], by decide, fun heq => htarget (heq.symm.trans (by decide))⟩
  obtain ⟨value, hempty, hne⟩ := hmask
  refine ⟨req.withTargets (value :: req.headerValues amzTarget),
    HttpRequest.header_withTargets_of_ne (by decide), h.withTargets fun _ => ?_, ?_⟩
  · rw [joinValues, foldl_cons, hempty]
    rfl
  · rwa [HttpRequest.target_withTargets]

/-- Requests accepted by one secret on one authorization always agree on method, parameters, date,
body and, but for the empty one, path. The target they agree on exactly when its header is signed,
as long as it is given at most once and in canonical form. -/
theorem accepted_requests_agree_iff {lib : Sigv4Lib} (hlib : lib.NoCollisions) {secret : String}
    {st : Sigv4State} {req : HttpRequest} {parsed : ParsedAuth}
    (h : AcceptedBy lib secret st req parsed) :
    (∀ st' req', req'.header "authorization" = req.header "authorization" →
      AcceptedBy lib secret st' req' parsed → SignedAlike lib parsed.signedHeaders req req' ∧
        req.header "x-amz-date" = req'.header "x-amz-date") ∧
    (req.Plain → ((∀ st' req', req'.header "authorization" = req.header "authorization" →
      AcceptedBy lib secret st' req' parsed → req'.Plain → ActedOnAlike lib req req') ↔
        amzTarget.toList ∈ signedNames parsed.signedHeaders)) ∧
    ∃ req', req'.header "authorization" = req.header "authorization" ∧
      AcceptedBy lib secret st req' parsed ∧ req'.target ≠ req.target := by
  refine ⟨fun _ _ _ h' => h.alike hlib h', fun hplain => ⟨fun hagree => ?_, ?_⟩, exists_masked h⟩
  · by_contra hunsigned
    obtain ⟨req', hauth, h', hplain', hne⟩ := exists_retargeted h hplain hunsigned
    exact hne (hagree st req' hauth h' hplain').target.symm
  · intro hsigned st' req' _ h' hplain'
    obtain ⟨halike, hdate⟩ := h.alike hlib h'
    exact agree_of_signed_target halike hdate hsigned hplain hplain'

theorem codedLib_noCollisions (canonical : String) : (codedLib canonical).NoCollisions :=
  ⟨(Equiv.swap _ _).injective, fun _ => (Equiv.swap _ _).injective⟩

def postParsed (signedHeaders signature : String) : ParsedAuth :=
  ⟨"AKIA", "20260101", "us-east-1", "dynamodb", signedHeaders, signature⟩

theorem accepted_requests_agree_signed :
    let lib := codedLib ("POST\n/\n\nhost:db\nx-amz-target:DynamoDB_20120810.GetItem\n\n"
      ++ "host;X-Amz-Target\n7b7d")
    let req := postRequest "DynamoDB_20120810.GetItem" "host;X-Amz-Target" "02"
    let parsed := postParsed "host;X-Amz-Target" "02"
    AcceptedBy lib "wJalr" oneKeyState req parsed ∧ req.Plain ∧
      ∀ st' req', req'.header "authorization" = req.header "authorization" →
        AcceptedBy lib "wJalr" st' req' parsed → req'.Plain → ActedOnAlike lib req req' := by
  intro lib req parsed
  have haccepted : AcceptedBy lib "wJalr" oneKeyState req parsed := by
    refine ⟨⟨identity ⟨"wJalr", "aws:akid:AKIA"⟩ parsed, ?_⟩, ?_, ?_⟩
    · decide +kernel
    · decide +kernel
    · decide +kernel
  have hplain : req.Plain := by
    refine ⟨by decide, .inr ⟨PercentCoding.utf8 "DynamoDB_20120810.GetItem".toList,
      "DynamoDB_20120810.GetItem", ?_, ?_, by decide, ?_⟩⟩
    · decide +kernel
    · decide +kernel
    · decide +kernel
  refine ⟨haccepted, hplain, ?_⟩
  exact ((accepted_requests_agree_iff (codedLib_noCollisions _) haccepted).2.1 hplain).mpr
    (by decide +kernel)

/-- A client signs the host and the date of a GetItem; whoever relays it makes it a DeleteItem,
accepted as the client's. -/
theorem retargeted_request_accepted :
    let lib := codedLib
      "POST\n/\n\nhost:db\nx-amz-date:20260101T000000Z\n\nhost;x-amz-date\n7b7d"
    let get := postRequest "DynamoDB_20120810.GetItem" "host;x-amz-date" "02"
    let delete := postRequest "DynamoDB_20120810.DeleteItem" "host;x-amz-date" "02"
    let accepted := identity ⟨"wJalr", "aws:akid:AKIA"⟩ (postParsed "host;x-amz-date" "02")
    lib.NoCollisions ∧ get.header "authorization" = delete.header "authorization" ∧
      verify lib oneKeyState get = .ok accepted ∧ verify lib oneKeyState delete = .ok accepted ∧
      get.target = some "DynamoDB_20120810.GetItem" ∧
      delete.target = some "DynamoDB_20120810.DeleteItem" := by
  refine ⟨codedLib_noCollisions _, ?_⟩
  decide +kernel

end Rektifier
