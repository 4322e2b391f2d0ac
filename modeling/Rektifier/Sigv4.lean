import Rektifier.Auth
import Rektifier.PercentCoding

namespace Rektifier

structure ParsedAuth where
  akid : String
  date : String
  region : String
  service : String
  signedHeaders : String
  signature : String
deriving DecidableEq

structure AuthFields where
  credential : Option (List Char)
  signedHeaders : Option (List Char)
  signature : Option (List Char)

/-- A field given twice has its last value; other parts are passed over. -/
def AuthFields.readPart (fields : AuthFields) (part : List Char) : AuthFields :=
  match textAfter "Credential=" (trimBlanks part) with
  | some v => { fields with credential := some v }
  | none => match textAfter "SignedHeaders=" (trimBlanks part) with
    | some v => { fields with signedHeaders := some v }
    | none => match textAfter "Signature=" (trimBlanks part) with
      | some v => { fields with signature := some v }
      | none => fields

def parseAuthorization (auth : String) : Except AuthError ParsedAuth := do
  let rest ← wellFormed (textAfter "AWS4-HMAC-SHA256 " auth.toList)
  let fields := (rest.splitOn ',').foldl AuthFields.readPart ⟨none, none, none⟩
  let credential ← wellFormed fields.credential
  let signedHeaders ← wellFormed fields.signedHeaders
  let signature ← wellFormed fields.signature
  match credential.splitOn '/' with
  | akid :: date :: region :: service :: terminator :: _ =>
    if terminator ≠ "aws4_request".toList then .error .malformedAuthorization
    else if akid = [] then .error .malformedAuthorization
    else .ok ⟨.ofList akid, .ofList date, .ofList region, .ofList service, .ofList signedHeaders,
      .ofList signature⟩
  | _ => .error .malformedAuthorization

/-- The digests, `from_utf8_lossy`, and a date as seconds. -/
structure Sigv4Lib where
  sha256 : List UInt8 → List UInt8
  hmac : List UInt8 → List UInt8 → List UInt8
  fromUtf8Lossy : List UInt8 → List Char
  timestamp : String → Option Int

structure Credential where
  secret : String
  principal : String
deriving DecidableEq

/-- The time, and the secrets in cache or store. -/
structure Sigv4State where
  now : Int
  clockSkewSecs : Int
  fetchSecret : String → Except AuthError Credential

def checkClockSkew (lib : Sigv4Lib) (st : Sigv4State) (amzDate : String) : Except AuthError Unit :=
  match lib.timestamp amzDate with
  | none => .error (.signatureFailed "invalid X-Amz-Date")
  | some signedTs =>
    if st.clockSkewSecs < (st.now - signedTs).natAbs then
      .error (.signatureFailed
        ("X-Amz-Date out of bounds (>" ++ toString st.clockSkewSecs ++ "s skew)"))
    else .ok ()

/-- `AWS_URI_ENCODE`: control characters and these, not the slash. -/
def awsUriEncode (b : UInt8) : Bool :=
  b < 32 || b = 127 || Char.ofNat b.toNat ∈ " !\"#$%&'()*+,:;<=>?@[\\]^`\x7b|\x7d".toList

def uriEncode (text : List Char) : List Char := PercentCoding.encode awsUriEncode text

def encodePath (path : String) : List Char :=
  if path = "" then ['/'] else ['/'].intercalate ((path.toList.splitOn '/').map uriEncode)

namespace Sigv4Lib

variable (lib : Sigv4Lib)

def hexSha256 (payload : List UInt8) : List Char := hexEncode (lib.sha256 payload)

def decodeComponent (text : List Char) : List Char :=
  lib.fromUtf8Lossy (PercentCoding.decodeBytes (PercentCoding.utf8 text))

/-- Each split at its first equals sign and decoded. -/
def decodedParams (query : String) : List (List Char × List Char) :=
  if query = "" then []
  else (query.toList.splitOn '&').map fun kv =>
    (lib.decodeComponent (kv.takeWhile (· ≠ '=')),
      lib.decodeComponent ((kv.dropWhile (· ≠ '=')).drop 1))

def canonicalQueryString (query : String) : List Char :=
  let pairs := (lib.decodedParams query).map fun p => (uriEncode p.1, uriEncode p.2)
  let sorted := pairs.insertionSort fun a b => a.1 < b.1 ∨ a.1 = b.1 ∧ a.2 ≤ b.2
  ['&'].intercalate (sorted.map fun p => p.1 ++ '=' :: p.2)

end Sigv4Lib

/-- Runs of blanks become one space. -/
def collapseBlanks (prevBlank : Bool) : List Char → List Char
  | [] => []
  | c :: rest =>
    if c ∈ " \t\n\x0c\r".toList then
      if prevBlank then collapseBlanks true rest else ' ' :: collapseBlanks true rest
    else c :: collapseBlanks false rest

def trimCollapse (text : List Char) : List Char := collapseBlanks false (trimBlanks text)

def joinValue (joined : List Char) (value : List UInt8) : List Char :=
  (if joined = [] then joined else joined ++ [',']) ++
    trimCollapse ((headerText value).getD "").toList

/-- All values, with commas from the first that is not empty on. -/
def joinValues (values : List (List UInt8)) : List Char := values.foldl joinValue []

def maxHeaderNameLen : Nat := 65535

def validHeaderName (name : List Char) : Bool :=
  name ≠ [] && (PercentCoding.utf8 name).length ≤ maxHeaderNameLen && name.all isTokenChar

def headerNamePanic : String :=
  "called `Result::unwrap()` on an `Err` value: InvalidHeaderName"

def canonicalEntry (req : HttpRequest) (name : List Char) :
    Except VerifyFailure (List Char × List Char) :=
  let lc := name.map Char.toLower
  if validHeaderName lc then .ok (lc, joinValues (req.headerValues (.ofList lc)))
  else .error (.panicked headerNamePanic)

def headerLine (entry : List Char × List Char) : List Char := entry.1 ++ ':' :: (entry.2 ++ ['\n'])

def canonicalHeaders (req : HttpRequest) (signedHeaderNames : List (List Char)) :
    Except VerifyFailure (List Char) := do
  let entries ← signedHeaderNames.mapM (canonicalEntry req)
  return (entries.insertionSort fun a b => a.1 ≤ b.1).flatMap headerLine

namespace Sigv4Lib

variable (lib : Sigv4Lib)

def canonicalRequest (req : HttpRequest) (signedHeaders : String) :
    Except VerifyFailure (List Char) := do
  let canonicalH ← canonicalHeaders req (signedHeaders.toList.splitOn ';')
  return req.method.toList ++ '\n' :: (encodePath req.path ++ '\n' ::
    (lib.canonicalQueryString (req.query.getD "") ++ '\n' ::
      (canonicalH ++ '\n' :: (signedHeaders.toList ++ '\n' :: lib.hexSha256 req.body))))

def stringToSign (amzDate : String) (parsed : ParsedAuth) (canonicalReq : List Char) : List Char :=
  "AWS4-HMAC-SHA256\n".toList ++ (amzDate.toList ++ '\n' ::
    ((parsed.date ++ "/" ++ parsed.region ++ "/" ++ parsed.service ++ "/aws4_request").toList
      ++ '\n' :: lib.hexSha256 (PercentCoding.utf8 canonicalReq)))

def signingKey (secret : String) (parsed : ParsedAuth) : List UInt8 :=
  let bytes (text : String) := PercentCoding.utf8 text.toList
  let kDate := lib.hmac (bytes ("AWS4" ++ secret)) (bytes parsed.date)
  let kRegion := lib.hmac kDate (bytes parsed.region)
  let kService := lib.hmac kRegion (bytes parsed.service)
  lib.hmac kService (bytes "aws4_request")

def computeSignature (signingKey : List UInt8) (sts : List Char) : List Char :=
  hexEncode (lib.hmac signingKey (PercentCoding.utf8 sts))

end Sigv4Lib

def HttpRequest.amzDate (req : HttpRequest) : Except AuthError String :=
  match req.header "x-amz-date" with
  | none => .error (.signatureFailed "missing X-Amz-Date")
  | some v => wellFormed (headerText v)

namespace Sigv4Verifier

def identity (credential : Credential) (parsed : ParsedAuth) : Identity where
  scheme := .sigv4
  principal := credential.principal
  issuer := none
  claims := .ofList [("aws_akid", .str parsed.akid), ("aws_region", .str parsed.region),
    ("aws_service", .str parsed.service)]

def verify (lib : Sigv4Lib) (st : Sigv4State) (req : HttpRequest) :
    Except VerifyFailure Identity := do
  let auth ← refuse req.authorization
  let parsed ← refuse (parseAuthorization auth)
  let amzDate ← refuse req.amzDate
  refuse (checkClockSkew lib st amzDate)
  let credential ← refuse (st.fetchSecret parsed.akid)
  let canonical ← lib.canonicalRequest req parsed.signedHeaders
  let sts := lib.stringToSign amzDate parsed canonical
  let computed := lib.computeSignature (lib.signingKey credential.secret parsed) sts
  if computed ≠ parsed.signature.toList then
    refuse (.error (.signatureFailed "signature mismatch"))
  else return identity credential parsed

end Sigv4Verifier

example : parseAuthorization ("AWS4-HMAC-SHA256 Credential=AKIA/20260101/us-east-1/dynamodb/aws4_request, "
    ++ "SignedHeaders=host;x-amz-date, Signature=deadbeef") =
    .ok ⟨"AKIA", "20260101", "us-east-1", "dynamodb", "host;x-amz-date", "deadbeef"⟩ := by
  decide +kernel

end Rektifier
