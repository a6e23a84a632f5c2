import UtilsRepo.Jwt.JWTVerifier

/-!
# JwtUtil

The token builders and verifiers of `JwtUtil`, each as its source computes it from its arguments
and from what the system clock answers.
-/

namespace UtilsRepo.Jwt

/-! ## 1. Data -/

structure Token where
  token : Option String
  message : Option String
  error : Bool
  deriving DecidableEq, Repr

-- `JwtStringUtil.isNotEmpty`
def isNotEmpty (s : Option String) : Bool :=
  match s with
  | none => false
  | some s => (trim s.toList).length > 0

-- `JwtCustomClaim`
structure JwtCustomClaim where
  headerClaims : Option (AList fun _ : Option String => JavaValue)
  subject : Option String
  issuer : Option String
  tid : Option String
  roleList : Option (List JavaValue)
  issuedAt : Option Int64
  expiresAt : Option Int64
  customStringClaim : Option (AList fun _ : Option String => Option String)

-- `JwtCustomClaim.Builder`
structure ClaimBuilder where
  headerClaims : Option (AList fun _ : Option String => JavaValue)
  subject : Option String
  issuer : Option String
  tid : Option String
  roleList : Option (List JavaValue)
  issuedAt : Option Int64
  expiresAt : Option Int64
  customStringClaim : Option (AList fun _ : Option String => Option String)

namespace ClaimBuilder

-- `new Builder(tid, subject, issuer)`
def new (tid subject issuer : Option String) : ClaimBuilder :=
  ⟨none, subject, issuer, tid, none, none, none, none⟩

def build (b : ClaimBuilder) : JwtCustomClaim where
  headerClaims := b.headerClaims
  subject := b.subject
  issuer := b.issuer
  tid := b.tid
  issuedAt := b.issuedAt
  expiresAt := b.expiresAt
  roleList := b.roleList
  customStringClaim := b.customStringClaim

end ClaimBuilder

-- `RSAKeyPair`, by its two key objects
structure RSAKeyPair (p : Platform) where
  publicKeyOrigin : Option p.PublicKey
  privateKeyOrigin : Option p.PrivateKey

/-- What the clock answers while a token is made: once for the lifetime, later for `nbf`.  Readings
are milliseconds, and far enough from the end of `long` for a lifetime to be added. -/
structure TokenClock where
  base : ℕ
  notBefore : ℕ
  base_le : base ≤ notBefore
  inRange : notBefore < 2 ^ 62

/-! ## 2. Keys -/

-- `RSAKeyGenerator.convertToPublicKey`
def convertToPublicKey (p : Platform) (publicKey : Option String) :
    Except JavaException p.PublicKey :=
  match publicKey with
  | none => .error ⟨.nullPointerException, none⟩
  | some publicKey =>
      match Base64.decodeStrict publicKey.toList with
      | some keyBytes => p.generatePublic keyBytes
      | none => .error ⟨.illegalArgumentException, some (p.illegalBase64 publicKey)⟩

-- `RSAKeyGenerator.convertToPrivateKey`
def convertToPrivateKey (p : Platform) (privateKey : Option String) :
    Except JavaException p.PrivateKey :=
  match privateKey with
  | none => .error ⟨.nullPointerException, none⟩
  | some privateKey =>
      match Base64.decodeStrict privateKey.toList with
      | some keyBytes => p.generatePrivate keyBytes
      | none => .error ⟨.illegalArgumentException, some (p.illegalBase64 privateKey)⟩

/-! ## 3. Creating tokens -/

def claimKey : String := "cn.t"

def claimValue : String := "tmq-2021-06-25"

/-- The `try`/`catch` around every builder, with the final Base64 encoding. -/
def createdToken (result : Except JavaException String) : Token :=
  match result with
  | .ok token => ⟨some (encodeToString token), some "create success", false⟩
  | .error e => ⟨none, e.message, true⟩

-- the loop over `customStringClaim`
def withCustomClaims (b : Builder) (custom : Option (AList fun _ : Option String => Option String)) :
    Except JavaException Builder :=
  match custom with
  | none => .ok b
  | some custom => custom.entries.foldlM (fun b e => b.withClaim e.1 e.2) b

def withRoles (b : Builder) (roleList : Option (List JavaValue)) : Except JavaException Builder :=
  match roleList with
  -- an empty list is not written
  | none | some [] => .ok b
  | some roles => b.withListClaim "roles" roles

/-- The claims `createTokenByRSA256(JwtCustomClaim, RSAKeyPair)` writes before the role list. -/
def fixedClaims (clock : TokenClock) (claims : JwtCustomClaim) : Builder :=
  let b := Builder.create.withHeader claims.headerClaims
  let b := if isNotEmpty claims.subject then b.withSubject claims.subject else b
  let b := if isNotEmpty claims.tid then b.withJWTId claims.tid else b
  let b := if isNotEmpty claims.issuer then b.withIssuer claims.issuer else b
  let b := match claims.issuedAt with
    | some issuedAt => b.withIssuedAt issuedAt.toInt
    | none => b.withIssuedAt clock.base
  match claims.expiresAt with
  | some expiresAt => b.withExpiresAt expiresAt.toInt
  | none => b.withExpiresAt (clock.base + 1000 * 60 * 30)

/-- All claims `createTokenByRSA256(JwtCustomClaim, RSAKeyPair)` writes, in its order. -/
def claimsBuilder (clock : TokenClock) (claims : JwtCustomClaim) : Except JavaException Builder := do
  let b ← withRoles (fixedClaims clock claims) claims.roleList
  let b ← withCustomClaims b claims.customStringClaim
  let b ← b.withClaim (some claimKey) (some claimValue)
  return b.withNotBefore clock.notBefore

/-- The body of the builders that take a key: `Algorithm.RSA256(null, privateKey)`, the claims,
`sign`. -/
def signedToken {p : Platform} (privateKey : Option p.PrivateKey)
    (claims : Except JavaException Builder) : Token :=
  createdToken do
    let algorithm ← Algorithm.rsa256 none privateKey
    let b ← claims
    b.sign algorithm

/-- The body of the builders that take the key as text, which is converted inside the `try`. -/
def signedTokenByText (p : Platform) (privateKey : Option String)
    (claims : Except JavaException Builder) : Token :=
  createdToken do
    let key ← convertToPrivateKey p privateKey
    let algorithm ← Algorithm.rsa256 none (some key)
    let b ← claims
    b.sign algorithm

theorem signedTokenByText_eq {p : Platform} (privateKey : Option String)
    (claims : Except JavaException Builder) :
    signedTokenByText p privateKey claims =
      match convertToPrivateKey p privateKey with
      | .ok key => signedToken (some key) claims
      | .error e => createdToken (.error e) := by
  unfold signedTokenByText
  cases convertToPrivateKey p privateKey <;> rfl

-- `createTokenByRSA256(JwtCustomClaim, RSAKeyPair)`
def createTokenByRSA256 (p : Platform) (clock : TokenClock) (claims : JwtCustomClaim)
    (keyPair : RSAKeyPair p) : Token :=
  signedToken keyPair.privateKeyOrigin (claimsBuilder clock claims)

-- the lifetime of the overloads in milliseconds; the sum is one of `long`
def expiryMillis (clock : TokenClock) (expireTs : Int64) : ℤ :=
  if expireTs ≤ 0 then clock.base + 30 * 60 * 1000 else toLong (expireTs.toInt + clock.base)

-- the lifetime of the overloads in seconds
def expirySeconds (clock : TokenClock) (expireTs : Int32) : ℤ :=
  let expireTs := if expireTs ≤ 0 then 60 * 30 else expireTs.toInt
  clock.base + expireTs * 1000

/-- The overloads that name a user, without and with a claim for the user details. -/
def userClaims (clock : TokenClock) (userId : Option String) (expiresAt : ℤ) : Builder :=
  ((Builder.create.withJWTId userId).withNotBefore clock.notBefore).withExpiresAt expiresAt

def createUserToken {p : Platform} (clock : TokenClock) (privateKey : Option p.PrivateKey)
    (userId : Option String) (expiresAt : ℤ) : Token :=
  signedToken privateKey (.ok (userClaims clock userId expiresAt))

def createUserDetailsToken {p : Platform} (clock : TokenClock) (privateKey : Option p.PrivateKey)
    (userId userDetails : Option String) (expiresAt : ℤ) : Token :=
  signedToken privateKey ((userClaims clock userId expiresAt).withClaim userId userDetails)

-- `createTokenByRSA256(RSAPrivateKey, String, long)`
def createTokenByKeyMillis (p : Platform) (clock : TokenClock) (privateKey : Option p.PrivateKey)
    (userId : Option String) (expireTs : Int64) : Token :=
  createUserToken clock privateKey userId (expiryMillis clock expireTs)

-- `createTokenByRSA256(String, String, long)`
def createTokenByTextMillis (p : Platform) (clock : TokenClock) (privateKey : Option String)
    (userId : Option String) (expireTs : Int64) : Token :=
  signedTokenByText p privateKey (.ok (userClaims clock userId (expiryMillis clock expireTs)))

-- `createTokenByRSA256(RSAPrivateKey, String, int)`
def createTokenByKeySeconds (p : Platform) (clock : TokenClock) (privateKey : Option p.PrivateKey)
    (userId : Option String) (expireTs : Int32) : Token :=
  createUserToken clock privateKey userId (expirySeconds clock expireTs)

-- `createTokenByRSA256(String, String, int)`
def createTokenByTextSeconds (p : Platform) (clock : TokenClock) (privateKey : Option String)
    (userId : Option String) (expireTs : Int32) : Token :=
  signedTokenByText p privateKey (.ok (userClaims clock userId (expirySeconds clock expireTs)))

-- `createTokenByRSA256(RSAPrivateKey, String, String, long)`
def createTokenByKeyDetailsMillis (p : Platform) (clock : TokenClock)
    (privateKey : Option p.PrivateKey) (userId userDetails : Option String) (expireTs : Int64) :
    Token :=
  createUserDetailsToken clock privateKey userId userDetails (expiryMillis clock expireTs)

-- `createTokenByRSA256(RSAPrivateKey, String, String, int)`
def createTokenByKeyDetailsSeconds (p : Platform) (clock : TokenClock)
    (privateKey : Option p.PrivateKey) (userId userDetails : Option String) (expireTs : Int32) :
    Token :=
  createUserDetailsToken clock privateKey userId userDetails (expirySeconds clock expireTs)

-- `createTokenByRSA256(String, String, String, long)`
def createTokenByTextDetailsMillis (p : Platform) (clock : TokenClock)
    (privateKey userId userDetails : Option String) (expireTs : Int64) : Token :=
  signedTokenByText p privateKey
    ((userClaims clock userId (expiryMillis clock expireTs)).withClaim userId userDetails)

-- `createTokenByRSA256(String, String, String, int)`
def createTokenByTextDetailsSeconds (p : Platform) (clock : TokenClock)
    (privateKey userId userDetails : Option String) (expireTs : Int32) : Token :=
  signedTokenByText p privateKey
    ((userClaims clock userId (expirySeconds clock expireTs)).withClaim userId userDetails)

-- `createTokenByRSA256(RSAPrivateKey, String)`
def createTokenByKey (p : Platform) (clock : TokenClock) (privateKey : Option p.PrivateKey)
    (userId : Option String) : Token :=
  createUserToken clock privateKey userId (clock.base + 30 * 60 * 1000)

-- `createTokenByRSA256(RSAKeyPair, String)`
def createTokenByKeyPair (p : Platform) (clock : TokenClock) (keyPair : RSAKeyPair p)
    (userId : Option String) : Token :=
  createUserToken clock keyPair.privateKeyOrigin userId (clock.base + 30 * 60 * 1000)

/-! ## 4. Verifying and parsing tokens -/

/-- The `try`/`catch` around every verifier: the Base64 layer is removed, the token checked. -/
def verifiedToken {p : Platform} (token : String) (now : ℕ)
    (verifier : Except JavaException (Verification p)) : Token :=
  let result : Except JavaException Unit := do
    let verifier ← verifier
    let jwt ← decodeToString p token
    let _ ← verifier.verify now jwt
  match result with
  | .ok () => ⟨some token, some "verify success", false⟩
  | .error e => ⟨none, e.message, true⟩

def claimsVerifier {p : Platform} (algorithm : Algorithm p) (claims : JwtCustomClaim) :
    Verification p :=
  -- one second of grace for `exp` and `iat`, three minutes for `nbf`
  (Verification.require algorithm).withSubject claims.subject |>.withJWTId claims.tid
    |>.withIssuer [claims.issuer] |>.withClaim claimKey (some claimValue)
    |>.acceptExpiresAt 1 |>.acceptIssuedAt 1 |>.acceptNotBefore 180 |>.build

-- `verifyTokenByRSA256(String, JwtCustomClaim, RSAPublicKey)`
def verifyTokenByRSA256 (p : Platform) (now : ℕ) (token : String) (claims : JwtCustomClaim)
    (publicKey : Option p.PublicKey) : Token :=
  verifiedToken token now do
    let algorithm ← Algorithm.rsa256 publicKey none
    return claimsVerifier algorithm claims

-- `verifyTokenByRSA256(String, RSAPublicKey)`
def verifyTokenByKey (p : Platform) (now : ℕ) (token : String) (publicKey : Option p.PublicKey) :
    Token :=
  verifiedToken token now do
    let algorithm ← Algorithm.rsa256 publicKey none
    return (Verification.require algorithm).build

-- `verifyTokenByRSA256(String, String)`
def verifyTokenByText (p : Platform) (now : ℕ) (token : String) (publicKey : Option String) :
    Token :=
  verifiedToken token now do
    let key ← convertToPublicKey p publicKey
    let algorithm ← Algorithm.rsa256 (some key) none
    return (Verification.require algorithm).build

-- `verifyTokenByRSA256(String, RSAPublicKey, String)`: the file name is not used yet
def verifyTokenByKeyAndFile (p : Platform) (now : ℕ) (token : String)
    (publicKey : Option p.PublicKey) (_filePathName : Option String) : Token :=
  verifiedToken token now do
    let algorithm ← Algorithm.rsa256 publicKey none
    return (Verification.require algorithm).build

-- `parseToken`, where `none` stands for `null`
def parseToken (p : Platform) (token : String) : Option DecodedJWT :=
  match decodeToString p token >>= decode p with
  | .ok jwt => some jwt
  | .error _ => none

end UtilsRepo.Jwt
