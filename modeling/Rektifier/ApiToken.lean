import Rektifier.Auth
import Rektifier.TtlCache

namespace Rektifier

inductive TokenKind where
  | pat
  | svc
  | test
deriving DecidableEq

namespace TokenKind

def prefixText : TokenKind → String
  | pat => "rekt_pat_"
  | svc => "rekt_svc_"
  | test => "rekt_test_"

/-- The first kind whose text the token starts with. -/
def detect (raw : List Char) : Option (TokenKind × List Char) :=
  [pat, svc, test].findSome? fun kind => (textAfter kind.prefixText raw).map fun rest => (kind, rest)

end TokenKind

structure ApiTokenRow where
  principal : String
  enabled : Bool
  expiresAtMs : Option Int
deriving DecidableEq

structure CachedToken where
  principal : String
  expiresAtMs : Option Int
  fetchedAt : Nat
deriving DecidableEq

abbrev TokenHash := List UInt8

abbrev TokenCache := TtlCache TokenHash CachedToken

structure ApiTokenVerifier where
  hmacPepper : List Char → TokenHash
  acceptTestTokens : Bool
  ttl : Nat
  negativeTtl : Nat

namespace ApiTokenVerifier

/-- The kind and text of the token a request bears. -/
def bearerToken (v : ApiTokenVerifier) (req : HttpRequest) :
    Except AuthError (TokenKind × List Char) := do
  let auth ← req.authorization
  let token ← wellFormed (textAfter "Bearer " auth.toList)
  match TokenKind.detect token with
  | none => .error (.tokenFailed
      "token prefix unrecognised (expected rekt_pat_/rekt_svc_/rekt_test_)")
  | some (kind, _) =>
    if kind = .test ∧ v.acceptTestTokens = false then
      .error (.tokenFailed "test tokens are not accepted in this build")
    else .ok (kind, token)

def finalizeIdentity (t : CachedToken) (kind : TokenKind) : Identity where
  scheme := .apiToken
  principal := t.principal
  issuer := none
  claims := .ofList (("token_kind", .str (.ofList (kind.prefixText.toList.rdropWhile (· = '_')))) ::
    (t.expiresAtMs.map fun exp => ("exp_ms", Json.num exp)).toList)

/-- What a row that was read is taken for. -/
def checkRow (read : Clock) : Option ApiTokenRow → Except AuthError CachedToken
  | none => .error .identityNotFound
  | some row =>
    if row.enabled = false then .error .identityDisabled
    else if row.expiresAtMs.any (· < read.nowMs) then .error (.tokenFailed "token expired")
    else .ok ⟨row.principal, row.expiresAtMs, read.instant⟩

/-- One verification: the cache is asked at one time, and a row is read by another. -/
def verify (v : ApiTokenVerifier) (cache : TokenCache) (asked read : Clock)
    (fetchTokenRow : TokenHash → Except String (Option ApiTokenRow)) (req : HttpRequest) :
    Except AuthError Identity × TokenCache :=
  match v.bearerToken req with
  | .error e => (.error e, cache)
  | .ok (kind, token) =>
    let hash := v.hmacPepper token
    match cache.get asked.instant hash with
    | some (some t) => (.ok (finalizeIdentity t kind), cache)
    | some none => (.error .identityNotFound, cache)
    | none =>
      match fetchTokenRow hash with
      | .error msg => (.error (.internal ("api-token lookup failed: " ++ msg)), cache)
      | .ok row =>
        match checkRow read row with
        | .error e => (.error e, cache.insertNegative hash (read.instant + v.negativeTtl))
        | .ok t => (.ok (finalizeIdentity t kind),
            cache.insertPositive hash t (t.fetchedAt + v.ttl))

end ApiTokenVerifier

end Rektifier
