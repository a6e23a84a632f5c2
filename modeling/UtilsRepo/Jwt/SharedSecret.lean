import UtilsRepo.Jwt.CreateVerify
import UtilsRepo.Lib.Simulation

/-!
# Tokens under a shared secret

`createTokenByHS256` and `verifyTokenByHS256` use one secret, which `setHs256Secret` replaces.  A token
is accepted for its user, until it expires, as long as the secret gives the same signature.
-/

namespace UtilsRepo.Jwt

open Builder

/-- HmacSHA256 of a text, under the bytes of a secret. -/
abbrev Hmac := List UInt8 → String → List UInt8

/-! ## 1. Signing and verifying -/

-- `SecretKeySpec` takes no key without bytes
def Hmac.sign (mac : Hmac) (secret content : String) : Except JavaException (List UInt8) :=
  if secret = "" then .error ⟨.illegalArgumentException, some "Empty key"⟩
  else .ok (mac (getBytes secret) content)

-- `withArrayClaim(String, Integer[])`
def Builder.withArrayClaim (b : Builder) (name : String) (items : List Int32) : Builder :=
  b.addClaim name (some ⟨.integerArray (items.map some), True.intro⟩)

section

variable (p : Platform) (mac : Hmac)

-- the header map as `sign` completes it with HS256
def signedHeaderHS256 (b : Builder) : AList fun _ : Option String => JavaValue :=
  let header := b.headerClaims.insert (some "alg") (.string "HS256")
  if some "typ" ∈ header then header else header.insert (some "typ") (.string "JWT")

def signHS256 (b : Builder) (secret : String) : Except JavaException String :=
  match writeFields id (fun v => v.1.toJson) (signedHeaderHS256 b).entries, b.payloadFields with
  | some header, some payload => do
      let content := signedContent (writePart p header) (writePart p payload)
      let signature ← mac.sign secret content
      return content ++ "." ++ encodeUrlSafe signature
  | _, _ => .error ⟨.jwtCreationException,
      some "Some of the Claims couldn't be converted to a valid JSON format."⟩

def verifyAlgorithmHS256 (jwt : DecodedJWT) : Except JavaException Unit :=
  match jwt.header with
  | none => .error ⟨.nullPointerException, none⟩
  | some algorithm =>
      if algorithm = some "HS256" then .ok ()
      else .error ⟨.algorithmMismatchException,
        some "The provided Algorithm doesn't match the one defined in the JWT's Header."⟩

-- `HMACAlgorithm.verify`
def verifySignatureHS256 (secret : String) (jwt : DecodedJWT) : Except JavaException Unit := do
  let signature ← decodeBase64 jwt.parts.signature
  let expected ← mac.sign secret (signedContent jwt.parts.header jwt.parts.payload)
  if expected = signature then return
  else throw ⟨.signatureVerificationException, some ("The Token's Signature resulted invalid " ++
    "when verified using the Algorithm: HmacSHA256")⟩

/-- What is asked of the claims; there is no RSA key. -/
def verifierHS256 (userId : Option String) : Verification p :=
  (Verification.require ⟨none, none⟩).withJWTId userId |>.withIssuer [some "cn.t.jwt"]
    |>.withClaim "cn.t.cust" (some "t") |>.build

def verifyHS256 (secret : String) (now : ℕ) (token : String) (userId : Option String) :
    Except JavaException DecodedJWT := do
  let jwt ← decode p token
  verifyAlgorithmHS256 jwt
  verifySignatureHS256 mac secret jwt
  verifyClaims (verifierHS256 p userId) now jwt
  return jwt

/-! ## 2. `JwtUtil` -/

def ownerHeader : AList fun _ : Option String => JavaValue :=
  (∅ : AList _).insert (some "owner") (.string "tmq")

def claimsHS256 (ts expireTs : Int64) (userId : Option String) : Except JavaException Builder := do
  let b ← ((create.withJWTId userId).withIssuer (some "cn.t.jwt")).withClaim (some "cn.t.cust")
    (some "t")
  let b := (b.withArrayClaim "array" [1, 2, 3]).withHeader (some ownerHeader)
  -- the sum is one of `long`
  return (b.withExpiresAt (ts + expireTs).toInt).withIssuedAt ts.toInt

-- `createTokenByHS256(long, String)` at a clock reading
def createTokenByHS256 (secret : String) (ts expireTs : Int64) (userId : Option String) : Token :=
  match (do signHS256 p mac (← claimsHS256 ts expireTs userId) secret) with
  | .ok token => ⟨some (encodeToString token), some "", false⟩
  | .error e => ⟨none, e.message, true⟩

-- `verifyTokenByHS256(String, String)` at a clock reading
def verifyTokenByHS256 (secret : String) (now : ℕ) (token userId : Option String) : Token :=
  let result : Except JavaException DecodedJWT :=
    match token with
    | none => .error ⟨.nullPointerException, none⟩
    | some token => do verifyHS256 p mac secret now (← decodeToString p token) userId
  match result with
  | .ok _ => ⟨token, some "", false⟩
  | .error e => ⟨none, e.message, true⟩

/-- The calls on the secret. -/
inductive SecretCall where
  | setHs256Secret (secret : Option String)
  | createTokenByHS256 (ts expireTs : Int64) (userId : Option String)
  | verifyTokenByHS256 (now : ℕ) (token userId : Option String)

/-- What a call answers, and the secret after it. -/
def SecretCall.run (secret : String) : SecretCall → Option Token × String
  -- a secret that is `null` changes nothing
  | setHs256Secret secret' => (none, secret'.getD secret)
  | createTokenByHS256 ts expireTs userId =>
      (some (Jwt.createTokenByHS256 p mac secret ts expireTs userId), secret)
  | verifyTokenByHS256 now token userId =>
      (some (Jwt.verifyTokenByHS256 p mac secret now token userId), secret)

variable {p mac}

end

end UtilsRepo.Jwt
