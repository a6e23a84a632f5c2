import Mathlib.Algebra.Group.Int.Defs
import Mathlib.Algebra.Group.Nat.Defs
import Mathlib.Data.List.Sort
import UtilsRepo.Jwt.JWTCreator

/-!
# java-jwt: decoding and verifying a token

`JWTDecoder` splits and parses a token without looking at its signature; `JWTVerifier` then checks
the algorithm, the signature and the required claims, in this order.
-/

namespace UtilsRepo.Jwt

/-! ## 1. Decoding -/

structure Parts where
  header : String
  payload : String
  signature : String
  deriving DecidableEq, Repr

-- `String.split("\\.")`
def split (token : List Char) : List (List Char) :=
  -- empty pieces at the end are dropped, a text without a dot is kept
  if '.' ∈ token then (token.splitOn '.').rdropWhile (·.isEmpty) else [token]

-- `TokenUtils.splitToken`
def splitToken (token : String) : Except JavaException Parts :=
  match split token.toList with
  -- two pieces and a final dot stand for an empty signature
  | [header, payload] =>
      if token.toList.getLast? = some '.' then
        .ok ⟨String.ofList header, String.ofList payload, ""⟩
      else .error ⟨.jwtDecodeException,
        some "The token was expected to have 3 parts, but got 2."⟩
  | [header, payload, signature] =>
      .ok ⟨String.ofList header, String.ofList payload, String.ofList signature⟩
  | pieces => .error ⟨.jwtDecodeException, some ("The token was expected to have 3 parts, but got "
      ++ toString pieces.length ++ ".")⟩

-- `Base64.decodeBase64`
def decodeBase64 (text : String) : Except JavaException (List UInt8) :=
  match Base64.decodeLenient text.toList with
  | some bytes => .ok bytes
  | none => .error ⟨.illegalArgumentException, some ("Last encoded character (before the paddings " ++
      "if any) is a valid base 64 alphabet but not a possible value. Expected the discarded bits " ++
      "to be zero.")⟩

/-- The fields of a JSON object; `none` for the JSON text `null`. -/
def parseFields (p : Platform) (text : String) :
    Except JavaException (Option (List (String × Json))) :=
  match p.readJson text with
  | some (.obj fields) => .ok (some fields)
  | some .null => .ok none
  | _ => .error ⟨.jwtDecodeException,
      some ("The string '" ++ text ++ "' doesn't have a valid JSON format.")⟩

-- `JsonNode.asText`
def asText (p : Platform) : Json → String
  | .null => "null"
  | .bool b => if b then "true" else "false"
  | .int n => toString n
  | .decimal d => p.decimalText d
  | .str s => s
  | .arr _ => ""
  | .obj _ => ""

def getString (p : Platform) (tree : List (String × Json)) (name : String) : Option String :=
  match tree.lookup name with
  | none => none
  | some .null => none
  | some j => some (asText p j)

-- arithmetic of `long`
def toLong (n : ℤ) : ℤ := n.bmod (2 ^ 64)

def asLong (p : Platform) : Json → Option ℤ
  | .int n => if -2 ^ 63 ≤ n ∧ n < 2 ^ 63 then some n else none
  | .decimal d => p.decimalLong d
  | _ => none

def getDateFromSeconds (p : Platform) (tree : List (String × Json)) (name : String) :
    Except JavaException (Option ℤ) :=
  match tree.lookup name with
  | none => .ok none
  | some .null => .ok none
  | some j =>
      match asLong p j with
      | some seconds => .ok (some (toLong (seconds * 1000)))
      | none => .error ⟨.jwtDecodeException,
          some ("The claim '" ++ name ++ "' contained a non-numeric date value.")⟩

def elementText (p : Platform) : Json → Except JavaException (Option String)
  | .null => .ok none
  | .arr _ | .obj _ => .error ⟨.jwtDecodeException,
      some "Couldn't map the Claim's array contents to String"⟩
  | j => .ok (some (asText p j))

def getStringOrArray (p : Platform) (tree : List (String × Json)) (name : String) :
    Except JavaException (Option (List (Option String))) :=
  match tree.lookup name with
  | some (.str s) => .ok (some (if s.isEmpty then [] else [some s]))
  | some (.arr elements) => do return some (← elements.mapM (elementText p))
  | _ => .ok none

structure Payload where
  issuer : Option String
  subject : Option String
  audience : Option (List (Option String))
  expiresAt : Option ℤ
  notBefore : Option ℤ
  issuedAt : Option ℤ
  id : Option String
  tree : List (String × Json)

-- `PayloadDeserializer.deserialize`
def deserialize (p : Platform) (tree : List (String × Json)) : Except JavaException Payload := do
  let audience ← getStringOrArray p tree "aud"
  let expiresAt ← getDateFromSeconds p tree "exp"
  let notBefore ← getDateFromSeconds p tree "nbf"
  let issuedAt ← getDateFromSeconds p tree "iat"
  return { issuer := getString p tree "iss", subject := getString p tree "sub", audience,
           expiresAt, notBefore, issuedAt, id := getString p tree "jti", tree }

-- `getClaim(name).asString()`
def Payload.claimAsString (payload : Payload) (name : Option String) : Option String :=
  match name.bind fun n => payload.tree.lookup n with
  | some (.str s) => some s
  | _ => none

/-- A decoded token.  The algorithm is the only header claim that is looked at; header or payload
is missing when its JSON text is `null`. -/
structure DecodedJWT where
  parts : Parts
  header : Option (Option String)
  payload : Option Payload

-- `JWT.decode`
def decode (p : Platform) (token : String) : Except JavaException DecodedJWT := do
  let parts ← splitToken token
  let headerText := newString p (← decodeBase64 parts.header)
  let payloadText := newString p (← decodeBase64 parts.payload)
  let header := (← parseFields p headerText).map fun tree => getString p tree "alg"
  let payload ← match ← parseFields p payloadText with
    | none => pure none
    | some tree => some <$> deserialize p tree
  return { parts, header, payload }

/-! ## 2. Requirements -/

inductive Requirement where
  | text (s : String)
  | issuers (accepted : List (Option String))
  | leeway (seconds : ℤ)
  deriving DecidableEq, Repr

-- `JWTVerifier.BaseVerification`
structure Verification (p : Platform) where
  algorithm : Algorithm p
  claims : AList fun _ : String => Requirement

namespace Verification

variable {p : Platform}

-- `JWT.require(algorithm)`
def require (algorithm : Algorithm p) : Verification p := ⟨algorithm, ∅⟩

def requireClaim (v : Verification p) (name : String) (value : Option Requirement) :
    Verification p :=
  match value with
  | none => { v with claims := v.claims.erase name }
  | some r => { v with claims := v.claims.insert name r }

def withSubject (v : Verification p) (subject : Option String) : Verification p :=
  v.requireClaim "sub" (subject.map .text)

def withJWTId (v : Verification p) (jwtId : Option String) : Verification p :=
  v.requireClaim "jti" (jwtId.map .text)

-- `withIssuer(String...)`: issuers that are all `null` require nothing
def withIssuer (v : Verification p) (issuer : List (Option String)) : Verification p :=
  v.requireClaim "iss" (if issuer.all Option.isNone then none else some (.issuers issuer))

def withClaim (v : Verification p) (name : String) (value : Option String) : Verification p :=
  v.requireClaim name (value.map .text)

def acceptExpiresAt (v : Verification p) (leeway : ℤ) : Verification p :=
  v.requireClaim "exp" (some (.leeway leeway))

def acceptNotBefore (v : Verification p) (leeway : ℤ) : Verification p :=
  v.requireClaim "nbf" (some (.leeway leeway))

def acceptIssuedAt (v : Verification p) (leeway : ℤ) : Verification p :=
  v.requireClaim "iat" (some (.leeway leeway))

def addLeeway (v : Verification p) (name : String) : Verification p :=
  if name ∈ v.claims then v else v.requireClaim name (some (.leeway 0))

-- the three dates get the default leeway, zero
def build (v : Verification p) : Verification p :=
  ((v.addLeeway "exp").addLeeway "nbf").addLeeway "iat"

/-- The slot of a name in a `HashMap` of sixteen: `String.hashCode` spread by its upper half. -/
def slot (name : String) : ℕ :=
  let hash := name.toList.foldl (fun h c => (31 * h + c.toNat) % 2 ^ 32) 0
  (hash ^^^ hash / 2 ^ 16) % 16

-- the requirements in the order `entrySet` gives them
def entrySet (v : Verification p) : List (Σ _ : String, Requirement) :=
  v.claims.entries.insertionSort fun e e' => slot e.1 ≤ slot e'.1

end Verification

/-! ## 3. Verifying -/

-- the clock truncated to seconds, in milliseconds
def today (now : ℕ) : ℤ := (now / 1000 * 1000 : ℕ)

def assertDateIsFuture (p : Platform) (date : Option ℤ) (leeway : ℤ) (now : ℕ) :
    Except JavaException Unit :=
  match date with
  | none => .ok ()
  | some date =>
      if today now - leeway * 1000 > date then
        .error ⟨.tokenExpiredException,
          some ("The Token has expired on " ++ p.dateText date ++ ".")⟩
      else .ok ()

def assertDateIsPast (p : Platform) (date : Option ℤ) (leeway : ℤ) (now : ℕ) :
    Except JavaException Unit :=
  match date with
  | none => .ok ()
  | some date =>
      if today now + leeway * 1000 < date then
        .error ⟨.invalidClaimException,
          some ("The Token can't be used before " ++ p.dateText date ++ ".")⟩
      else .ok ()

def assertValidStringClaim (name : String) (value : Option String) (expected : String) :
    Except JavaException Unit :=
  if value = some expected then .ok ()
  else .error ⟨.invalidClaimException,
    some ("The Claim '" ++ name ++ "' value doesn't match the required one.")⟩

def assertValidIssuerClaim (issuer : Option String) (accepted : List (Option String)) :
    Except JavaException Unit :=
  if issuer.isSome ∧ issuer ∈ accepted then .ok ()
  else .error ⟨.invalidClaimException,
    some "The Claim 'iss' value doesn't match the required issuer."⟩

-- one round of the loop of `verifyClaims`
def verifyClaim (p : Platform) (now : ℕ) (payload : Payload) (e : Σ _ : String, Requirement) :
    Except JavaException Unit :=
  match e.2 with
  | .leeway seconds =>
      if e.1 = "exp" then assertDateIsFuture p payload.expiresAt seconds now
      else if e.1 = "iat" then assertDateIsPast p payload.issuedAt seconds now
      else assertDateIsPast p payload.notBefore seconds now
  | .issuers accepted => assertValidIssuerClaim payload.issuer accepted
  | .text expected =>
      if e.1 = "jti" then assertValidStringClaim e.1 payload.id expected
      else if e.1 = "sub" then assertValidStringClaim e.1 payload.subject expected
      else assertValidStringClaim e.1 (payload.claimAsString (some e.1)) expected

def verifyAlgorithm (jwt : DecodedJWT) : Except JavaException Unit :=
  match jwt.header with
  | none => .error ⟨.nullPointerException, none⟩
  | some algorithm =>
      if algorithm = some "RS256" then .ok ()
      else .error ⟨.algorithmMismatchException,
        some "The provided Algorithm doesn't match the one defined in the JWT's Header."⟩

-- `RSAAlgorithm.verify`
def verifySignature {p : Platform} (algorithm : Algorithm p) (jwt : DecodedJWT) :
    Except JavaException Unit := do
  let signature ← decodeBase64 jwt.parts.signature
  let content := Builder.signedContent jwt.parts.header jwt.parts.payload
  if algorithm.publicKey.any fun key => p.verify key content signature then return
  else throw ⟨.signatureVerificationException, some ("The Token's Signature resulted invalid " ++
    "when verified using the Algorithm: SHA256withRSA")⟩

def verifyClaims {p : Platform} (v : Verification p) (now : ℕ) (jwt : DecodedJWT) :
    Except JavaException Unit :=
  match jwt.payload with
  | none => .error ⟨.nullPointerException, none⟩
  | some payload => v.entrySet.forM (verifyClaim p now payload)

-- `JWTVerifier.verify` at a clock reading
def Verification.verify {p : Platform} (v : Verification p) (now : ℕ) (token : String) :
    Except JavaException DecodedJWT := do
  let jwt ← decode p token
  verifyAlgorithm jwt
  verifySignature v.algorithm jwt
  verifyClaims v now jwt
  return jwt

end UtilsRepo.Jwt
