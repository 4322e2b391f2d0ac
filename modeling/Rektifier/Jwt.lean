import Rektifier.Jwks
import Mathlib.Logic.Function.Basic

namespace Rektifier

/-- The text is put before the claim, or is a template. -/
inductive PrincipalFormat where
  | subject (ns : String)
  | email (ns : String)
  | azureObjectId (ns : String)
  | custom (template : String)
deriving DecidableEq

structure JwtIssuerConfig where
  issuer : String
  jwksUrl : String
  expectedAudience : List String
  allowedAlgs : List Algorithm
  clockSkewSecs : Nat
  jwksCacheTtl : Nat
  principalFormat : PrincipalFormat
deriving DecidableEq

inductive IssuerConfigError where
  | insecureJwksUrl (url : String)
  | invalidJwksUrl (url : String)
  | emptyAudience
  | emptyAllowedAlgs
  | noneAlgForbidden
deriving DecidableEq

def Algorithm.isSymmetric (alg : Algorithm) : Bool :=
  match alg with
  | HS256 | HS384 | HS512 => true
  | _ => false

/-- The parser of addresses gives the scheme, of what it can read. -/
def JwtIssuerConfig.validate (urlScheme : String → Option String) (config : JwtIssuerConfig) :
    Except IssuerConfigError Unit :=
  match urlScheme config.jwksUrl with
  | none => .error (.invalidJwksUrl config.jwksUrl)
  | some scheme =>
    if scheme ≠ "https" then .error (.insecureJwksUrl config.jwksUrl)
    else if config.expectedAudience = [] then .error .emptyAudience
    else if config.allowedAlgs = [] then .error .emptyAllowedAlgs
    else if config.allowedAlgs.any Algorithm.isSymmetric then .error .emptyAllowedAlgs
    else .ok ()

abbrev ClaimMap := OrderedMap String Json

def ClaimMap.text (claims : ClaimMap) (name : String) : Option String :=
  (claims.get name).bind Json.asStr

/-- A placeholder that is not closed ends with the template. -/
def renderTemplate (claims : ClaimMap) : Option (List Char) → List Char → Option (List Char)
  | none, [] => some []
  | none, c :: rest =>
    if c = '\x7b' then renderTemplate claims (some []) rest
    else (renderTemplate claims none rest).map (c :: ·)
  | some name, [] => (claims.text (.ofList name)).map String.toList
  | some name, c :: rest =>
    if c = '\x7d' then do
      let v ← claims.text (.ofList name)
      (renderTemplate claims none rest).map (v.toList ++ ·)
    else renderTemplate claims (some (name ++ [c])) rest

def JwtIssuerConfig.resolvePrincipal (config : JwtIssuerConfig) (claims : ClaimMap) :
    Option String :=
  match config.principalFormat with
  | .subject ns => (claims.text "sub").map (ns ++ ·)
  | .email ns => (claims.text "email").map (ns ++ ·)
  | .azureObjectId ns => (claims.text "oid").map (ns ++ ·)
  | .custom template => (renderTemplate claims none template.toList).map .ofList

structure JwtHeader where
  typ : Option String
  alg : Algorithm
  kid : Option String
deriving DecidableEq

structure Validation where
  algorithms : List Algorithm
  leeway : Nat
  iss : List String
  aud : List String
  validateExp : Bool
  validateNbf : Bool

structure JwtClaims where
  iss : String
  aud : Json
  sub : Option String
  exp : Option Int
  extra : ClaimMap
deriving DecidableEq

/-- What the verifier takes from its libraries; `decode` is given the time in seconds. -/
structure JwtLib where
  decodeHeader : List Char → Except String JwtHeader
  base64UrlDecode : List Char → Option (List UInt8)
  readObject : List UInt8 → Except String ClaimMap
  decode : Int → List Char → DecodingKey → Validation → Except String JwtClaims
  componentError : DecodingKey → Option String

def audiences : Json → List String
  | .str aud => [aud]
  | .arr auds => auds.filterMap Json.asStr
  | _ => []

def JwtClaims.nbf (claims : JwtClaims) : Option ℚ :=
  match claims.extra.get "nbf" with
  | some (.num secs) => some secs
  | _ => none

/-- Each time claim as far as its flag asks for it. -/
def Validation.timesOk (validation : Validation) (nowSecs : Int) (claims : JwtClaims) : Bool :=
  (!validation.validateExp || claims.exp.any fun exp => nowSecs ≤ exp + validation.leeway) &&
  (!validation.validateNbf || claims.nbf.all fun nbf => nbf ≤ (nowSecs : ℚ) + validation.leeway)

def JwtLib.payload (lib : JwtLib) (token : List Char) : Option ClaimMap := do
  let seg ← (token.splitOn '.')[1]?
  let bytes ← lib.base64UrlDecode seg
  (lib.readObject bytes).toOption

def optionalField {α : Type} (read : Json → Option α) : Option Json → Option (Option α)
  | none | some .null => some none
  | some v => (read v).map some

def Json.asInt : Json → Option Int
  | .num q => if q.den = 1 then some q.num else none
  | _ => none

/-- The named fields, and all other members. -/
def JwtClaims.ofPayload (payload : ClaimMap) : Option JwtClaims := do
  let iss ← payload.text "iss"
  let aud ← payload.get "aud"
  let sub ← optionalField Json.asStr (payload.get "sub")
  let exp ← optionalField Json.asInt (payload.get "exp")
  return ⟨iss, aud, sub, exp, payload.eraseAll ["iss", "aud", "sub", "exp"]⟩

structure JwtVerifier where
  issuers : List JwtIssuerConfig

namespace JwtVerifier

/-- An issuer added again replaces the earlier one. -/
def issuer (v : JwtVerifier) (iss : String) : Option JwtIssuerConfig :=
  v.issuers.reverse.find? fun config => config.issuer = iss

def addIssuer (urlScheme : String → Option String) (v : JwtVerifier) (config : JwtIssuerConfig) :
    Except IssuerConfigError JwtVerifier := do
  config.validate urlScheme
  return ⟨v.issuers ++ [config]⟩

def buildJwt (urlScheme : String → Option String) (configs : List JwtIssuerConfig) :
    Except IssuerConfigError JwtVerifier :=
  configs.foldlM (addIssuer urlScheme) ⟨[]⟩

/-- What a token says before its signature is checked. -/
structure Presented where
  token : List Char
  header : JwtHeader
  iss : String
  config : JwtIssuerConfig
  kid : String
deriving DecidableEq

def refuseToken {α : Type} (msg : String) : Except AuthError α := .error (.tokenFailed msg)

def present (v : JwtVerifier) (lib : JwtLib) (req : HttpRequest) : Except AuthError Presented := do
  let auth ← req.authorization
  let token ← wellFormed (textAfter "Bearer " auth.toList)
  let header ← match lib.decodeHeader token with
    | .error e => refuseToken ("invalid JWT header: " ++ e)
    | .ok header => .ok header
  match header.typ with
  | some typ =>
    if typ.toList.map Char.toLower ≠ "jwt".toList then
      refuseToken ("unsupported token typ=" ++ typ ++ " (expected JWT)")
  | none => pure ()
  if token.count '.' ≠ 2 then refuseToken "token is not a 3-segment JWS (refusing JWE)"
  let payloadSeg ← match (token.splitOn '.')[1]? with
    | none => refuseToken "token missing payload segment"
    | some seg => .ok seg
  let payloadBytes ← match lib.base64UrlDecode payloadSeg with
    | none => refuseToken "payload segment not base64url"
    | some bytes => .ok bytes
  let prelim ← match lib.readObject payloadBytes with
    | .error e => refuseToken ("payload not JSON: " ++ e)
    | .ok claims => .ok claims
  let iss ← match prelim.text "iss" with
    | none => refuseToken "missing iss claim"
    | some iss => .ok iss
  let config ← match v.issuer iss with
    | none => refuseToken ("issuer " ++ iss ++ " not trusted")
    | some config => .ok config
  let kid ← match header.kid with
    | none => refuseToken "token header missing kid"
    | some kid => .ok kid
  return ⟨token, header, iss, config, kid⟩

/-- `Validation::new` checks the expiry and not the beginning. -/
def validation (config : JwtIssuerConfig) (alg : Algorithm) : Validation where
  algorithms := [alg]
  leeway := config.clockSkewSecs
  iss := [config.issuer]
  aud := config.expectedAudience
  validateExp := true
  validateNbf := false

def reassembled (claims : JwtClaims) : ClaimMap :=
  let withIss := claims.extra.insert "iss" (.str claims.iss)
  let withSub := match claims.sub with
    | some sub => withIss.insert "sub" (.str sub)
    | none => withIss
  match claims.exp with
  | some exp => withSub.insert "exp" (.num exp)
  | none => withSub

/-- The checks against a key of the issuer. -/
def acceptUnder (lib : JwtLib) (nowSecs : Int) (p : Presented) (pinned : PinnedKey) :
    Except AuthError Identity := do
  if pinned.alg ≠ p.header.alg then
    refuseToken ("token alg " ++ p.header.alg.name ++ " does not match JWKS-pinned alg "
      ++ pinned.alg.name ++ " for kid " ++ p.kid)
  if pinned.alg ∉ p.config.allowedAlgs then
    refuseToken ("JWKS alg " ++ pinned.alg.name ++ " not in issuer allowlist")
  let claims ← match lib.decode nowSecs p.token pinned.key (validation p.config pinned.alg) with
    | .error e => refuseToken ("signature/claim validation failed: " ++ e)
    | .ok claims => .ok claims
  match p.config.resolvePrincipal (reassembled claims) with
  | none => refuseToken "principal could not be derived from claims"
  | some principal => return ⟨.jwt, principal, some claims.iss, reassembled claims⟩

def keyError (kid : String) : JwksError → AuthError
  | .unknownKid _ _ => .tokenFailed ("unknown kid: " ++ kid)
  | other => .internal ("JWKS error: " ++ other.text)

/-- The caches by issuer, what the addresses would answer, and the time are given. -/
def verify (v : JwtVerifier) (lib : JwtLib) (caches : String → JwksCache)
    (responses : String → JwksResponse) (clock : Clock) (req : HttpRequest) :
    Except AuthError Identity × (String → JwksCache) :=
  match v.present lib req with
  | .error e => (.error e, caches)
  | .ok p =>
    let cache := caches p.iss
    let found := cache.getKey p.kid clock.instant
      (fetchKeys lib.componentError cache.url (responses cache.url))
    (found.1.mapError (keyError p.kid) >>= acceptUnder lib (clock.wallMs / 1000) p,
      Function.update caches p.iss found.2)

end JwtVerifier

end Rektifier
