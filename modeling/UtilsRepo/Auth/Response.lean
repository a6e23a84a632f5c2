import UtilsRepo.Auth.Entity
import UtilsRepo.Jwt.JwtUtil

/-!
# Responses and keys

What the login handler and the request filter share: the constants, the answers they write and the
key store.
-/

namespace UtilsRepo.Auth

open Jwt

/-! ## 1. Constants -/

namespace AuthConstant

def PREFIX_ROLE : String := "ROLE_"

def PREFIX_BEARER : String := "Bearer "

def MSG_NO_ACCESS : String := "NO ACCESS"

def MSG_SYS_ERROR : String := "SYSTEM ERROR"

def MSG_USERNAME_EMPTY : String := "username can not be empty"

def HEAD_AUTHORIZATION : String := "Authorization"

def HEAD_REFRESH_T : String := "Refresh-T"

end AuthConstant

/-! ## 2. Answers -/

inductive HttpStatus where
  | ok
  | forbidden
  | internalServerError
  deriving DecidableEq, Repr

def HttpStatus.value : HttpStatus → ℤ
  | .ok => 200
  | .forbidden => 403
  | .internalServerError => 500

def HttpStatus.name : HttpStatus → String
  | .ok => "OK"
  | .forbidden => "FORBIDDEN"
  | .internalServerError => "INTERNAL_SERVER_ERROR"

structure AuthResponse where
  code : ℤ
  status : Option HttpStatus
  msg : Option String
  deriving DecidableEq, Repr

/-- An answer with a status: its code is the one of the status. -/
def AuthResponse.of (status : HttpStatus) (msg : Option String) : AuthResponse :=
  ⟨status.value, some status, msg⟩

def AuthResponse.toJson (res : AuthResponse) : Json :=
  .obj (("code", .int res.code) :: (optionalField "status" (fun s => .str s.name) res.status ++
    optionalField "msg" .str res.msg))

/-- `HttpServletResponse`; what is written after the writer was closed is lost. -/
structure HttpServletResponse where
  contentType : Option String
  characterEncoding : Option String
  headers : AList fun _ : String => String
  body : String
  closed : Bool

namespace HttpServletResponse

def empty : HttpServletResponse := ⟨none, none, ∅, "", false⟩

/-- A `null` value is ignored. -/
def setHeader (response : HttpServletResponse) (name : String) (value : Option String) :
    HttpServletResponse :=
  match value with
  | none => response
  | some value => { response with headers := response.headers.insert name value }

/-- `ResponseUtil.setResponse`. -/
def setResponse (response : HttpServletResponse) : HttpServletResponse :=
  { response with contentType := some "application/json", characterEncoding := some "UTF-8" }

/-- `ResponseUtil.write` of an answer. -/
def write (p : Platform) (response : HttpServletResponse) (res : AuthResponse) :
    HttpServletResponse :=
  if response.closed then response
  else { response with body := response.body ++ p.writeJson res.toJson, closed := true }

@[simp] theorem headers_setResponse (response : HttpServletResponse) :
    response.setResponse.headers = response.headers := rfl

@[simp] theorem headers_write (p : Platform) (response : HttpServletResponse)
    (res : AuthResponse) : (response.write p res).headers = response.headers := by
  unfold write
  split_ifs <;> rfl

theorem lookup_setHeader_self (response : HttpServletResponse) (name value : String) :
    (response.setHeader name (some value)).headers.lookup name = some value :=
  AList.lookup_insert _

theorem lookup_setHeader_ne (response : HttpServletResponse) {name other : String}
    (value : Option String) (h : other ≠ name) :
    (response.setHeader name value).headers.lookup other = response.headers.lookup other := by
  cases value with
  | none => rfl
  | some value => exact AList.lookup_insert_ne h

end HttpServletResponse

/-! ## 3. Keys -/

/-- The public key is kept as the Base64 text of its encoding. -/
structure KeyStore (p : Platform) where
  publicKey : Option String
  privateKey : Option p.PrivateKey

/-- The bean `keyStore`, from a key pair that was generated. -/
def KeyStore.ofPair {p : Platform} (publicKey : p.PublicKey) (privateKey : p.PrivateKey) :
    KeyStore p :=
  ⟨some (String.ofList (Base64.encode (p.getEncoded publicKey))), some privateKey⟩

theorem convertToPublicKey_ofPair {p : Platform} (publicKey : p.PublicKey)
    (privateKey : p.PrivateKey) :
    convertToPublicKey p (KeyStore.ofPair publicKey privateKey).publicKey = .ok publicKey := by
  simp only [KeyStore.ofPair, convertToPublicKey, String.toList_ofList, Base64.decodeStrict_encode,
    p.generatePublic_getEncoded]

end UtilsRepo.Auth
