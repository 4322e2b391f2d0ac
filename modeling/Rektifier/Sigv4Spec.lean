import Rektifier.Sigv4
import Rektifier.Fallible

namespace Rektifier

open Fallible Sigv4Verifier

def signedNames (signedHeaders : String) : List (List Char) :=
  (signedHeaders.toList.splitOn ';').map fun name => name.map Char.toLower

def namedLine (req : HttpRequest) (name : List Char) : List Char :=
  headerLine (name, joinValues (req.headerValues (.ofList name)))

/-- One line for each name, in their order; a text that is no header name fails the whole. -/
theorem canonicalHeaders_eq (req : HttpRequest) (signedHeaders : String) :
    canonicalHeaders req (signedHeaders.toList.splitOn ';') =
      if ∀ name ∈ signedNames signedHeaders, validHeaderName name = true then
        .ok (((signedNames signedHeaders).insertionSort (· ≤ ·)).flatMap (namedLine req))
      else .error (.panicked headerNamePanic) := by
  have hentries : (signedHeaders.toList.splitOn ';').mapM (canonicalEntry req) =
      (signedNames signedHeaders).mapM fun name => if validHeaderName name = true
        then .ok (name, joinValues (req.headerValues (.ofList name))) else .error (.panicked headerNamePanic) := by
    rw [signedNames, List.mapM_map]
    rfl
  rw [canonicalHeaders, hentries, mapM_ite]
  split
  · rw [ok_bind, ← List.map_insertionSort (· ≤ ·) (fun a b => a.1 ≤ b.1)
      (fun name => (name, joinValues (req.headerValues (.ofList name)))) _ fun _ _ _ _ => Iff.rfl,
      List.flatMap_map]
    rfl
  · rfl

section Verify

variable {lib : Sigv4Lib} {st : Sigv4State} {req : HttpRequest} {parsed : ParsedAuth}
  {amzDate : String} {credential : Credential} {identity : Identity}

/-- What holds once the checks before canonicalisation are passed. -/
structure PassesChecks (lib : Sigv4Lib) (st : Sigv4State) (req : HttpRequest) (parsed : ParsedAuth)
    (amzDate : String) (credential : Credential) : Prop where
  authorization : (req.authorization >>= parseAuthorization) = .ok parsed
  dated : req.amzDate = .ok amzDate
  recent : checkClockSkew lib st amzDate = .ok ()
  known : st.fetchSecret parsed.akid = .ok credential

theorem refuse_ok_iff {α : Type} {r : Except AuthError α} {a : α} :
    refuse r = .ok a ↔ r = .ok a := by
  cases r <;> simp [refuse, Except.mapError]

theorem refuse_ne_panicked {α : Type} {r : Except AuthError α} {msg : String} :
    refuse r ≠ .error (.panicked msg) := by
  cases r <;> simp [refuse, Except.mapError]

theorem verify_ok_iff : verify lib st req = .ok identity ↔ ∃ parsed amzDate credential,
    PassesChecks lib st req parsed amzDate credential ∧
      (∃ canonical, lib.canonicalRequest req parsed.signedHeaders = .ok canonical ∧
        lib.computeSignature (lib.signingKey credential.secret parsed)
          (lib.stringToSign amzDate parsed canonical) = parsed.signature.toList) ∧
      identity = Sigv4Verifier.identity credential parsed := by
  simp only [verify, bind_ok_iff, refuse_ok_iff]
  constructor
  · rintro ⟨auth, hauth, parsed, hparsed, amzDate, hdate, _, hrecent, credential, hknown,
      canonical, hcanonical, h⟩
    have hchecks : PassesChecks lib st req parsed amzDate credential :=
      ⟨bind_ok_iff.mpr ⟨auth, hauth, hparsed⟩, hdate, hrecent, hknown⟩
    split at h
    · cases h
    · next hsigned =>
      exact ⟨parsed, amzDate, credential, hchecks, ⟨canonical, hcanonical, not_not.mp hsigned⟩,
        (Except.ok.inj h).symm⟩
  · rintro ⟨parsed, amzDate, credential, hchecks, ⟨canonical, hcanonical, hsigned⟩, rfl⟩
    obtain ⟨auth, hauth, hparsed⟩ := bind_ok hchecks.authorization
    refine ⟨auth, hauth, parsed, hparsed, amzDate, hchecks.dated, (), hchecks.recent, credential,
      hchecks.known, canonical, hcanonical, ?_⟩
    rw [if_neg (not_not.mpr hsigned)]
    rfl

theorem verify_panicked_iff {msg : String} : verify lib st req = .error (.panicked msg) ↔
    ∃ parsed amzDate credential, PassesChecks lib st req parsed amzDate credential ∧
      lib.canonicalRequest req parsed.signedHeaders = .error (.panicked msg) := by
  simp only [verify, bind_error_iff, refuse_ok_iff, refuse_ne_panicked, false_or]
  constructor
  · rintro ⟨auth, hauth, parsed, hparsed, amzDate, hdate, _, hrecent, credential, hknown, h⟩
    refine ⟨parsed, amzDate, credential,
      ⟨bind_ok_iff.mpr ⟨auth, hauth, hparsed⟩, hdate, hrecent, hknown⟩, ?_⟩
    rcases h with h | ⟨canonical, hcanonical, h⟩
    · exact h
    · split at h <;> cases h
  · rintro ⟨parsed, amzDate, credential, hchecks, h⟩
    obtain ⟨auth, hauth, hparsed⟩ := bind_ok hchecks.authorization
    exact ⟨auth, hauth, parsed, hparsed, amzDate, hchecks.dated, (), hchecks.recent, credential,
      hchecks.known, .inl h⟩

theorem canonicalRequest_eq (lib : Sigv4Lib) (req : HttpRequest) (signedHeaders : String) :
    lib.canonicalRequest req signedHeaders =
      if ∀ name ∈ signedNames signedHeaders, validHeaderName name = true then
        .ok (req.method.toList ++ '\n' :: (encodePath req.path ++ '\n' ::
          (lib.canonicalQueryString (req.query.getD "") ++ '\n' ::
            (((signedNames signedHeaders).insertionSort (· ≤ ·)).flatMap (namedLine req) ++ '\n' ::
              (signedHeaders.toList ++ '\n' :: lib.hexSha256 req.body)))))
      else .error (.panicked headerNamePanic) := by
  rw [Sigv4Lib.canonicalRequest, canonicalHeaders_eq]
  split
  · rfl
  · rfl

end Verify

/-- A request panics exactly when all that is checked before its signature is in order and it says
that it signed something that is no header name. -/
theorem sigv4_panics_iff (lib : Sigv4Lib) (st : Sigv4State) (req : HttpRequest) :
    (∃ msg, verify lib st req = .error (.panicked msg)) ↔
      ∃ parsed amzDate credential, PassesChecks lib st req parsed amzDate credential ∧
        ∃ name ∈ signedNames parsed.signedHeaders, validHeaderName name = false := by
  constructor
  · rintro ⟨msg, h⟩
    obtain ⟨parsed, amzDate, credential, hchecks, hpanic⟩ := verify_panicked_iff.mp h
    refine ⟨parsed, amzDate, credential, hchecks, ?_⟩
    rw [canonicalRequest_eq] at hpanic
    split at hpanic
    · cases hpanic
    · next hnames =>
      push Not at hnames
      simpa using hnames
  · rintro ⟨parsed, amzDate, credential, hchecks, name, hname, hinvalid⟩
    have hnames : ¬∀ name ∈ signedNames parsed.signedHeaders, validHeaderName name = true := by
      intro hvalid
      rw [hvalid name hname] at hinvalid
      cases hinvalid
    refine ⟨headerNamePanic, verify_panicked_iff.mpr ⟨parsed, amzDate, credential, hchecks, ?_⟩⟩
    rw [canonicalRequest_eq, if_neg hnames]

/-- Short codes for one canonical request and for what is signed of it, all else as it is; and a
clock that stands still. -/
def codedLib (canonical : String) : Sigv4Lib where
  sha256 := Equiv.swap (PercentCoding.utf8 canonical.toList) [1]
  hmac := fun _ => Equiv.swap (PercentCoding.utf8
    "AWS4-HMAC-SHA256\n20260101T000000Z\n20260101/us-east-1/dynamodb/aws4_request\n01".toList) [2]
  fromUtf8Lossy := fun bytes => bytes.map fun b => Char.ofNat b.toNat
  timestamp := fun _ => some 0

def oneKeyState : Sigv4State where
  now := 0
  clockSkewSecs := 900
  fetchSecret := fun akid =>
    if akid = "AKIA" then .ok ⟨"wJalr", "aws:akid:AKIA"⟩ else .error .identityNotFound

def postRequest (target signedHeaders signature : String) : HttpRequest where
  method := "POST"
  path := "/"
  query := none
  headers := [("host", PercentCoding.utf8 "db".toList),
    ("x-amz-date", PercentCoding.utf8 "20260101T000000Z".toList),
    ("x-amz-target", PercentCoding.utf8 target.toList),
    ("authorization", PercentCoding.utf8 (
      "AWS4-HMAC-SHA256 Credential=AKIA/20260101/us-east-1/dynamodb/aws4_request, SignedHeaders="
        ++ signedHeaders ++ ", Signature=" ++ signature).toList)]
  body := PercentCoding.utf8 "\x7b\x7d".toList
  methodToken := post_isToken

/-- No secret is needed: a known access key and an empty list of signed headers, or one with a
semicolon too many, are enough. -/
theorem empty_signed_headers_panic :
    verify (codedLib "") oneKeyState (postRequest "DynamoDB_20120810.GetItem" "" "00") =
        .error (.panicked headerNamePanic) ∧
      verify (codedLib "") oneKeyState (postRequest "DynamoDB_20120810.GetItem" "host;" "00") =
        .error (.panicked headerNamePanic) := by
  decide +kernel

end Rektifier
