import Rektifier.Auth

namespace Rektifier

/-- The algorithms of `jsonwebtoken`. -/
inductive Algorithm where
  | HS256 | HS384 | HS512
  | ES256 | ES384
  | RS256 | RS384 | RS512
  | PS256 | PS384 | PS512
  | EdDSA
deriving DecidableEq

namespace Algorithm

def name : Algorithm → String
  | HS256 => "HS256" | HS384 => "HS384" | HS512 => "HS512"
  | ES256 => "ES256" | ES384 => "ES384"
  | RS256 => "RS256" | RS384 => "RS384" | RS512 => "RS512"
  | PS256 => "PS256" | PS384 => "PS384" | PS512 => "PS512"
  | EdDSA => "EdDSA"

/-- Symmetric algorithms are not read from a key set. -/
def parseAlg (s : String) : Option Algorithm :=
  [RS256, RS384, RS512, PS256, PS384, PS512, ES256, ES384, EdDSA].find? fun alg => alg.name = s

end Algorithm

inductive DecodingKey where
  | rsa (n e : String)
  | ec (x y : String)
  | ed (x : String)
deriving DecidableEq

structure PinnedKey where
  kid : String
  alg : Algorithm
  key : DecodingKey
deriving DecidableEq

structure RawJwk where
  kid : Option String
  kty : String
  alg : Option String
  n : Option String
  e : Option String
  x : Option String
  y : Option String
  crv : Option String

inductive JwksError where
  | fetch (url msg : String)
  | parse (url msg : String)
  | unknownKid (url kid : String)
deriving DecidableEq

def JwksError.text : JwksError → String
  | fetch url msg => "jwks fetch failed for " ++ url ++ ": " ++ msg
  | parse url msg => "jwks document for " ++ url ++ " is malformed: " ++ msg
  | unknownKid url kid => "kid " ++ kid ++ " not found in jwks at " ++ url ++ " (cache+refresh)"

/-- `componentError` is what is wrong with an entry's parts. -/
def RawJwk.decodingKey (componentError : DecodingKey → Option String) (jwk : RawJwk) (kid : String) :
    Except String DecodingKey :=
  let checked (family : String) (key : DecodingKey) : Except String DecodingKey :=
    match componentError key with
    | some e => .error (family ++ " components for kid " ++ kid ++ ": " ++ e)
    | none => .ok key
  match jwk.kty, jwk.n, jwk.e with
  | "RSA", some n, some e => checked "rsa" (.rsa n e)
  | "EC", _, _ => match jwk.crv, jwk.x, jwk.y with
    | some _, some x, some y => checked "ec" (.ec x y)
    | _, _, _ => .error ("EC key " ++ kid ++ " missing crv/x/y")
  | "OKP", _, _ => match jwk.x with
    | some x => checked "ed" (.ed x)
    | none => .error ("OKP key " ++ kid ++ " missing x")
  | kty, _, _ => .error ("unsupported kty " ++ kty ++ " for kid " ++ kid)

def RawJwk.algText (jwk : RawJwk) : String :=
  jwk.alg.getD (match jwk.kty with
    | "RSA" => "RS256"
    | "EC" => "ES256"
    | "OKP" => "EdDSA"
    | _ => "")

/-- Unsupported algorithms are passed over; a key of a supported one that cannot be built fails the
set. -/
def parseJwks (componentError : DecodingKey → Option String) (url : String) (raw : List RawJwk) :
    Except JwksError (List PinnedKey) :=
  raw.foldlM (fun out jwk =>
    let kid := jwk.kid.getD ("(unkidded-" ++ toString out.length ++ ")")
    match Algorithm.parseAlg jwk.algText with
    | none => .ok out
    | some alg => match jwk.decodingKey componentError kid with
      | .error msg => .error (.parse url msg)
      | .ok key => .ok (out ++ [⟨kid, alg, key⟩])) []

/-- Why there is no document, or the document or why it cannot be read. -/
abbrev JwksResponse := Except String (Except String (List RawJwk))

def fetchKeys (componentError : DecodingKey → Option String) (url : String) :
    JwksResponse → Except JwksError (List PinnedKey)
  | .error msg => .error (.fetch url msg)
  | .ok (.error msg) => .error (.parse url msg)
  | .ok (.ok raw) => parseJwks componentError url raw

structure CacheEntry where
  keys : List PinnedKey
  fetchedAt : Nat
deriving DecidableEq

structure JwksCache where
  url : String
  ttl : Nat
  entry : Option CacheEntry
deriving DecidableEq

namespace JwksCache

def lookup (cache : JwksCache) (kid : String) : Option PinnedKey :=
  cache.entry.bind fun e => e.keys.find? fun k => k.kid = kid

def isStale (cache : JwksCache) (now : Nat) : Bool :=
  match cache.entry with
  | some e => cache.ttl < now - e.fetchedAt
  | none => true

/-- Nothing is scheduled. -/
def scheduleRefresh (cache : JwksCache) : JwksCache := cache

def store (cache : JwksCache) (keys : List PinnedKey) (now : Nat) : JwksCache :=
  { cache with entry := some ⟨keys, now⟩ }

def getKey (cache : JwksCache) (kid : String) (now : Nat)
    (fetched : Except JwksError (List PinnedKey)) : Except JwksError PinnedKey × JwksCache :=
  match cache.lookup kid with
  | some k => (.ok k, if cache.isStale now then cache.scheduleRefresh else cache)
  | none =>
    match fetched with
    | .error e => (.error e, cache)
    | .ok keys =>
      match (cache.store keys now).lookup kid with
      | some k => (.ok k, cache.store keys now)
      | none => (.error (.unknownKid cache.url kid), cache.store keys now)

end JwksCache

end Rektifier
