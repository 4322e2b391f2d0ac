import Rektifier.Json
import Mathlib.Data.List.DropRight

namespace Rektifier

inductive AuthScheme where
  | sigv4
  | jwt
  | apiToken
  | permissive
deriving DecidableEq

structure Identity where
  scheme : AuthScheme
  principal : String
  issuer : Option String
  claims : OrderedMap String Json
deriving DecidableEq

inductive AuthError where
  | missingAuthorization
  | malformedAuthorization
  | unsupportedScheme (name : String)
  | signatureFailed (msg : String)
  | tokenFailed (msg : String)
  | identityNotFound
  | identityDisabled
  | internal (msg : String)
deriving DecidableEq

/-- No identity: an error, or a panic. -/
inductive VerifyFailure where
  | refused (e : AuthError)
  | panicked (msg : String)
deriving DecidableEq

def refuse {α : Type} (r : Except AuthError α) : Except VerifyFailure α :=
  r.mapError .refused

/-- One clock that only goes forward, and the time of day. -/
structure Clock where
  instant : Nat
  wallMs : Int
deriving DecidableEq

def Clock.nowMs (clock : Clock) : Int := max 0 clock.wallMs

def isTokenChar (c : Char) : Bool := c.isAlphanum || c ∈ "!#$%&'*+-.^_`|~".toList

/-- What a verifier sees of a request: header names in lower case, each before one value. -/
structure HttpRequest where
  method : String
  path : String
  query : Option String
  headers : List (String × List UInt8)
  body : List UInt8
  methodToken : ∀ c ∈ method.toList, isTokenChar c = true

def isVisibleAscii (b : UInt8) : Bool := (32 ≤ b && b < 127) || b = 9

/-- `HeaderValue::to_str`. -/
def headerText (value : List UInt8) : Option String :=
  if value.all isVisibleAscii then some (.ofList (value.map fun b => Char.ofNat b.toNat)) else none

def wellFormed {α : Type} : Option α → Except AuthError α
  | some a => .ok a
  | none => .error .malformedAuthorization

namespace HttpRequest

def headerValues (req : HttpRequest) (name : String) : List (List UInt8) :=
  (req.headers.filter fun h => h.1 = name).map Prod.snd

def header (req : HttpRequest) (name : String) : Option (List UInt8) :=
  (req.headerValues name).head?

def authorization (req : HttpRequest) : Except AuthError String :=
  match req.header "authorization" with
  | none => .error .missingAuthorization
  | some value => wellFormed (headerText value)

/-- The header dispatch reads. -/
def target (req : HttpRequest) : Option String := (req.header "x-amz-target").bind headerText

end HttpRequest

def textAfter (start : String) (text : List Char) : Option (List Char) :=
  if start.toList.isPrefixOf text then some (text.drop start.toList.length) else none

-- header texts are ASCII, where these are the characters that `trim` takes off
def isBlank (c : Char) : Bool := c ∈ " \t\n\x0b\x0c\r".toList

def trimBlanks (text : List Char) : List Char := (text.dropWhile isBlank).rdropWhile isBlank

theorem post_isToken : ∀ c ∈ "POST".toList, isTokenChar c := List.all_eq_true.mp (by decide)

def bearerRequest (token : String) : HttpRequest where
  method := "POST"
  path := "/"
  query := none
  headers := [("authorization", ("Bearer " ++ token).toList.map fun c => UInt8.ofNat c.toNat)]
  body := []
  methodToken := post_isToken

end Rektifier
