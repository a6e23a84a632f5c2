import UtilsRepo.Auth.Response
import UtilsRepo.Lib.Scan

/-!
# JwtTokenFilter

The filter in front of every request: a bearer token that verifies is parsed, its user record
becomes the authentication of the request, and the filter chain goes on.
-/

namespace UtilsRepo.Auth

open Jwt Fallible

/-- The authentication of a request; its principal is the user's name. -/
abbrev Authentication := JwtAccessToken (Option String)

/-- One request on its way through the filter: the security context, the response, and the contexts
the chain was invoked with. -/
structure Exchange where
  context : Option Authentication
  response : HttpServletResponse
  invoked : List (Option Authentication)

/-- The rest of the chain works on the context and the response, and may throw. -/
abbrev FilterChain :=
  Option Authentication → HttpServletResponse →
    Except JavaException Unit × Option Authentication × HttpServletResponse

/-! ## 1. The filter -/

def doFilter (chain : FilterChain) : Fallible JavaException Exchange Unit :=
  ofStep fun x =>
    let result := chain x.context x.response
    (result.1, ⟨result.2.1, result.2.2, x.invoked ++ [x.context]⟩)

def setAuthentication (authentication : Authentication) : Fallible JavaException Exchange Unit :=
  ofStep fun x => (.ok (), { x with context := some authentication })

def setResponse : Fallible JavaException Exchange Unit :=
  ofStep fun x => (.ok (), { x with response := x.response.setResponse })

def respond (p : Platform) (status : HttpStatus) (msg : String) :
    Fallible JavaException Exchange Unit :=
  ofStep fun x =>
    (.ok (), { x with response := x.response.write p (AuthResponse.of status (some msg)) })

def nonNull {α : Type} (a : Option α) : Except JavaException α :=
  match a with
  | some a => .ok a
  | none => .error ⟨.nullPointerException, none⟩

/-- A header the filter looks into: not blank, and with the prefix. -/
def hasBearer (header : String) : Bool :=
  !(trim header.toList).isEmpty && AuthConstant.PREFIX_BEARER.toList.isPrefixOf header.toList

/-- `header.replace(PREFIX_BEARER, "")`: every occurrence goes. -/
def bearerToken (header : String) : String :=
  String.ofList (Scan.deleteMatches (Scan.literal AuthConstant.PREFIX_BEARER.toList) header.toList)

/-- The user record is the claim named by the token's id. -/
def requestAuthentication (p : Platform) (token : String) :
    Except JavaException Authentication := do
  let decodedJwt ← nonNull (parseToken p token)
  let payload ← nonNull decodedJwt.payload
  let userInfoStr := payload.claimAsString payload.id
  let userDetail ← nonNull (← readValue p userInfoStr)
  JwtAccessToken.new userDetail.username (some "") userDetail.authorities

def authenticated {p : Platform} (keyStore : KeyStore p) (now : ℕ) (chain : FilterChain)
    (header : String) : Fallible JavaException Exchange Unit :=
  let token := bearerToken header
  if (verifyTokenByText p now token keyStore.publicKey).error then
    respond p .forbidden AuthConstant.MSG_NO_ACCESS
  else do
    let accessToken ← Fallible.ofExcept (requestAuthentication p token)
    setAuthentication accessToken
    doFilter chain

/-- What the filter tries: a missing or unsuited header is answered at once. -/
def filtered {p : Platform} (keyStore : KeyStore p) (now : ℕ) (chain : FilterChain) :
    Option String → Fallible JavaException Exchange Unit
  | none => respond p .forbidden AuthConstant.MSG_NO_ACCESS
  | some header =>
      if hasBearer header then authenticated keyStore now chain header
      else respond p .forbidden AuthConstant.MSG_NO_ACCESS

def doFilterInternal {p : Platform} (keyStore : KeyStore p) (now : ℕ) (chain : FilterChain)
    (header : Option String) : Fallible JavaException Exchange Unit := do
  setResponse
  tryCatch (filtered keyStore now chain header) fun e =>
    if e.exceptionClass = .badCredentialsException then throw e
    else respond p .internalServerError AuthConstant.MSG_SYS_ERROR

/-! ## 2. What the filter lets through -/

variable {p : Platform}

/-- The filter accepts the header at a time and makes this authentication from it. -/
def Admits (keyStore : KeyStore p) (now : ℕ) (header : Option String)
    (authentication : Authentication) : Prop :=
  ∃ h, header = some h ∧ hasBearer h = true ∧
    (verifyTokenByText p now (bearerToken h) keyStore.publicKey).error = false ∧
    requestAuthentication p (bearerToken h) = .ok authentication

/-- The exchange after a request. -/
def handle (keyStore : KeyStore p) (now : ℕ) (chain : FilterChain) (header : Option String)
    (x : Exchange) : Exchange :=
  (eval (doFilterInternal keyStore now chain header) x).2

/-- Catching keeps the context and what was invoked. -/
theorem catch_frame (chainOrReject : Fallible JavaException Exchange Unit) (x : Exchange) :
    let caught := (eval (tryCatch chainOrReject fun e =>
      if e.exceptionClass = .badCredentialsException then throw e
      else respond p .internalServerError AuthConstant.MSG_SYS_ERROR) x).2
    caught.context = (eval chainOrReject x).2.context ∧
      caught.invoked = (eval chainOrReject x).2.invoked := by
  dsimp only
  rw [eval_tryCatch]
  cases h : eval chainOrReject x with
  | mk r x' =>
    cases r with
    | ok _ => exact ⟨rfl, rfl⟩
    | error e =>
      dsimp only
      split_ifs <;> exact ⟨rfl, rfl⟩

theorem handle_admitted {keyStore : KeyStore p} {now : ℕ} {header : Option String}
    {authentication : Authentication} (h : Admits keyStore now header authentication)
    (chain : FilterChain) (x : Exchange) :
    (handle keyStore now chain header x).invoked = x.invoked ++ [some authentication] := by
  obtain ⟨header, rfl, hbearer, hverify, hrequest⟩ := h
  unfold handle doFilterInternal
  rw [eval_bind_ok _ (show eval setResponse x = (.ok (), _) from rfl), (catch_frame _ _).2]
  rw [filtered, if_pos hbearer, authenticated, if_neg (by simp [hverify]), hrequest]
  rfl

/-- Without an admission the chain is not invoked and the context stays. -/
theorem handle_not_admitted {keyStore : KeyStore p} {now : ℕ} {header : Option String}
    (h : ∀ authentication, ¬ Admits keyStore now header authentication) (chain : FilterChain)
    (x : Exchange) :
    (handle keyStore now chain header x).invoked = x.invoked ∧
      (handle keyStore now chain header x).context = x.context := by
  unfold handle doFilterInternal
  rw [eval_bind_ok _ (show eval setResponse x = (.ok (), _) from rfl), (catch_frame _ _).1,
    (catch_frame _ _).2]
  cases header with
  | none => exact ⟨rfl, rfl⟩
  | some header =>
    unfold filtered authenticated
    dsimp only
    split_ifs with hbearer hverify
    · exact ⟨rfl, rfl⟩
    · -- verified, so it is the making of the authentication that throws
      cases hrequest : requestAuthentication p (bearerToken header) with
      | error e => exact ⟨rfl, rfl⟩
      | ok authentication =>
        exact absurd ⟨header, rfl, hbearer, by simpa using hverify, hrequest⟩
          (h authentication)
    · exact ⟨rfl, rfl⟩

/-- The filter answers by itself, or something throws before the chain is called. -/
def Refused (keyStore : KeyStore p) (now : ℕ) : Option String → Prop
  | none => True
  | some header => hasBearer header = false ∨
      (verifyTokenByText p now (bearerToken header) keyStore.publicKey).error = true ∨
      ∃ e, requestAuthentication p (bearerToken header) = .error e

theorem not_admits_of_refused {keyStore : KeyStore p} {now : ℕ} {header : Option String}
    (h : Refused keyStore now header) (authentication : Authentication) :
    ¬ Admits keyStore now header authentication := by
  rintro ⟨header, rfl, hbearer, hverify, hrequest⟩
  rcases h with hblank | herror | ⟨e, he⟩
  · exact absurd (hbearer.symm.trans hblank) (by decide)
  · exact absurd (hverify.symm.trans herror) (by decide)
  · rw [hrequest] at he
    cases he

/-- A header without blanks in its token names exactly that token. -/
theorem bearerToken_append {text : String} (h : ' ' ∉ text.toList) :
    hasBearer (AuthConstant.PREFIX_BEARER ++ text) = true ∧
      bearerToken (AuthConstant.PREFIX_BEARER ++ text) = text := by
  constructor
  · have htrim : trim (AuthConstant.PREFIX_BEARER ++ text).toList ≠ [] := by
      apply trim_ne_nil_iff.mpr
      exact ⟨'B', by simp [AuthConstant.PREFIX_BEARER], by decide⟩
    simp only [hasBearer, String.toList_append, Bool.and_eq_true, Bool.not_eq_true',
      List.isEmpty_eq_false_iff, List.isPrefixOf_iff_prefix]
    exact ⟨by simpa using htrim, List.prefix_append _ _⟩
  · rw [bearerToken, String.toList_append,
      Scan.deleteMatches_literal_append (by decide : AuthConstant.PREFIX_BEARER.toList ≠ []),
      Scan.deleteMatches_literal_of_not_mem
        (by decide : ' ' ∈ AuthConstant.PREFIX_BEARER.toList) h, String.ofList_toList]

end UtilsRepo.Auth
