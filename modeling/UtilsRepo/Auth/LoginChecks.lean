import UtilsRepo.Auth.Login
import UtilsRepo.Auth.ServerRun
import UtilsRepo.Jwt.CreateVerify

/-!
# Who is handed tokens

The provider loads the record of the name and looks at three of its four flags.  It compares no
password and does not ask whether the credentials have expired.
-/

namespace UtilsRepo.Auth

open Jwt Jwt.Builder

variable {p : Platform}

/-! ## 1. When the tokens can be made -/

/-- A key that signs every text. -/
def KeyStore.Signs (keyStore : KeyStore p) : Prop :=
  ∃ key, keyStore.privateKey = some key ∧ ∀ text, (p.sign key text).isSome

theorem headerFields_detailBuilder (clock : TokenClock) (d : JwtUserDetail) (user : String)
    (seconds : Int32) : (detailBuilder p clock d user seconds).headerFields.isSome := by
  have hheader : (detailBuilder p clock d user seconds).headerClaims = create.headerClaims := by
    simp only [detailBuilder, userClaims, withExpiresAt, withNotBefore, withJWTId,
      headerClaims_addClaim]
  unfold headerFields signedHeader
  rw [hheader]
  rfl

theorem payloadFields_detailBuilder (clock : TokenClock) (d : JwtUserDetail) (user : String)
    (seconds : Int32) : (detailBuilder p clock d user seconds).payloadFields.isSome := by
  unfold payloadFields
  rw [writeFields_isSome_iff, MapWrites.forall_mem_entries_iff
    (detailBuilder p clock d user seconds).payloadClaims
    (P := fun k v => (some k).isSome ∧ (serializeClaim v).isSome)]
  intro k v hv
  refine ⟨rfl, ?_⟩
  rw [detailBuilder, lookup_addClaim, lookup_userClaims] at hv
  split_ifs at hv
  all_goals
    cases hv
    rfl

/-- With such a key a token is made exactly for a record with a name. -/
theorem detailToken_not_error_iff {keyStore : KeyStore p} (hsigns : keyStore.Signs)
    (clock : TokenClock) (d : JwtUserDetail) (seconds : Int32) :
    (detailToken keyStore clock d seconds).error = false ↔ d.username.isSome := by
  constructor
  · intro h
    obtain ⟨b, token, hb, -, -⟩ := signedToken_of_not_error h
    obtain ⟨user, huser, -⟩ := withClaim_ok hb
    rw [huser]
    rfl
  · intro h
    obtain ⟨user, huser⟩ := Option.isSome_iff_exists.mp h
    obtain ⟨key, hkey, hsign⟩ := hsigns
    obtain ⟨header, hheader⟩ := Option.isSome_iff_exists.mp
      (headerFields_detailBuilder (p := p) clock d user seconds)
    obtain ⟨payload, hpayload⟩ := Option.isSome_iff_exists.mp
      (payloadFields_detailBuilder (p := p) clock d user seconds)
    obtain ⟨token, htoken⟩ := sign_of_fields ⟨none, some key⟩ hheader hpayload rfl hsign
    have hclaims : (userClaims clock d.username (expirySeconds clock seconds)).withClaim d.username
        (some (writeValueAsString p d)) = .ok (detailBuilder p clock d user seconds) := by
      rw [huser]
      rfl
    unfold detailToken createTokenByKeyDetailsSeconds createUserDetailsToken signedToken
    simp only [hkey, hclaims, Algorithm.rsa256, Option.isNone_some, Bool.false_eq_true, and_false,
      if_false, bind, Except.bind, htoken]
    rfl

/-! ## 2. The answer -/

structure HandsOutTokens (response : HttpServletResponse) : Prop where
  access : (response.headers.lookup AuthConstant.HEAD_AUTHORIZATION).isSome
  refresh : (response.headers.lookup AuthConstant.HEAD_REFRESH_T).isSome

structure NoTokenHeader (response : HttpServletResponse) : Prop where
  access : response.headers.lookup AuthConstant.HEAD_AUTHORIZATION = none
  refresh : response.headers.lookup AuthConstant.HEAD_REFRESH_T = none

section Answer

variable {keyStore : KeyStore p} {response : HttpServletResponse}

theorem NoTokenHeader.not_handsOut (h : NoTokenHeader response) : ¬ HandsOutTokens response := by
  intro hout
  have haccess := hout.access
  rw [h.access] at haccess
  cases haccess

/-- The handler hands out both tokens or, for a record without a name, none. -/
theorem onAuthenticationSuccess_tokens (hsigns : keyStore.Signs) (hnew : NoTokenHeader response)
    (clock : LoginClock) (authentication : JwtAccessToken JwtUserDetail) :
    (authentication.principal.username.isSome →
      HandsOutTokens (onAuthenticationSuccess keyStore clock response authentication)) ∧
    (¬ authentication.principal.username.isSome →
      NoTokenHeader (onAuthenticationSuccess keyStore clock response authentication)) := by
  have herror := fun clock seconds =>
    detailToken_not_error_iff hsigns clock authentication.principal seconds
  constructor
  · intro hname
    have haccess := (herror clock.access accessSeconds).mpr hname
    have hrefresh := (herror clock.refresh refreshSeconds).mpr hname
    obtain ⟨_, access, -, -, htoken⟩ := signedToken_of_not_error haccess
    obtain ⟨_, refresh, -, -, htoken'⟩ := signedToken_of_not_error hrefresh
    change detailToken _ _ _ _ = _ at htoken htoken'
    simp only [onAuthenticationSuccess, htoken, htoken', Bool.not_false, Bool.and_self, if_true]
    constructor
    · rw [HttpServletResponse.headers_write,
        HttpServletResponse.lookup_setHeader_ne _ _ (by decide),
        HttpServletResponse.lookup_setHeader_self]
      rfl
    · rw [HttpServletResponse.headers_write, HttpServletResponse.lookup_setHeader_self]
      rfl
  · intro hname
    have haccess : (detailToken keyStore clock.access authentication.principal
        accessSeconds).error = true := by
      apply Bool.eq_true_of_not_eq_false
      rw [herror]
      exact hname
    simp only [onAuthenticationSuccess, haccess, Bool.not_true, Bool.false_and, Bool.false_eq_true,
      if_false]
    constructor
    · rw [HttpServletResponse.headers_write, HttpServletResponse.headers_setResponse, hnew.access]
    · rw [HttpServletResponse.headers_write, HttpServletResponse.headers_setResponse, hnew.refresh]

theorem noTokenHeader_of_error (hnew : NoTokenHeader response) (e : JavaException) :
    NoTokenHeader (if JavaException.isAuthenticationException e then
      ((.ok (), onAuthenticationFailure p response e) :
        Except JavaException Unit × HttpServletResponse)
    else (.error e, response)).2 := by
  split_ifs
  · constructor
    · rw [onAuthenticationFailure, HttpServletResponse.headers_write,
        HttpServletResponse.headers_setResponse, hnew.access]
    · rw [onAuthenticationFailure, HttpServletResponse.headers_write,
        HttpServletResponse.headers_setResponse, hnew.refresh]
  · exact hnew

theorem login_tokens (hsigns : keyStore.Signs) (hnew : NoTokenHeader response) (clock : LoginClock)
    (users : Users) (request : LoginRequest) :
    (Checked request (request.record users) ∧ (request.record users).username.isSome →
      HandsOutTokens (login keyStore clock users request response).2) ∧
    (¬ (Checked request (request.record users) ∧ (request.record users).username.isSome) →
      NoTokenHeader (login keyStore clock users request response).2) := by
  unfold login
  cases h : attemptAuthentication users request with
  | ok authentication =>
    obtain ⟨hchecked, rfl⟩ := attemptAuthentication_ok_iff.mp h
    obtain ⟨hout, hnone⟩ := onAuthenticationSuccess_tokens hsigns hnew clock
      (request.record users).authentication
    exact ⟨fun hboth => hout hboth.2, fun hnot => hnone fun hname => hnot ⟨hchecked, hname⟩⟩
  | error e =>
    have hunchecked : ¬ Checked request (request.record users) := by
      intro hchecked
      rw [attemptAuthentication_ok_iff.mpr ⟨hchecked, rfl⟩] at h
      cases h
    exact ⟨fun hboth => absurd hboth.1 hunchecked, fun _ => noTokenHeader_of_error hnew e⟩

variable {clock : LoginClock}

/-- The two tokens of an answer, made from the record without its password. -/
theorem tokens_of_handsOut (hnew : NoTokenHeader response) {users : Users}
    {request : LoginRequest}
    (h : HandsOutTokens (login keyStore clock users request response).2) :
    attemptAuthentication users request = .ok (request.record users).authentication ∧
      ∃ access refresh,
        (login keyStore clock users request response).2.headers.lookup
            AuthConstant.HEAD_AUTHORIZATION = some access ∧
          detailToken keyStore clock.access (request.record users).eraseCredentials accessSeconds =
            ⟨some access, some "create success", false⟩ ∧
          (login keyStore clock users request response).2.headers.lookup
            AuthConstant.HEAD_REFRESH_T = some refresh ∧
          detailToken keyStore clock.refresh (request.record users).eraseCredentials
            refreshSeconds = ⟨some refresh, some "create success", false⟩ := by
  cases hattempt : attemptAuthentication users request with
  | ok authentication =>
    obtain ⟨-, rfl⟩ := attemptAuthentication_ok_iff.mp hattempt
    have hlogin : (login keyStore clock users request response).2 =
        onAuthenticationSuccess keyStore clock response (request.record users).authentication := by
      rw [login, hattempt]
    rw [hlogin] at h ⊢
    obtain ⟨access, haccess⟩ := Option.isSome_iff_exists.mp h.access
    obtain ⟨htoken, refresh, htoken', hrefresh⟩ :=
      headers_onAuthenticationSuccess hnew.access haccess
    exact ⟨rfl, access, refresh, haccess, htoken, hrefresh, htoken'⟩
  | error e =>
    have hnone : NoTokenHeader (login keyStore clock users request response).2 := by
      unfold login
      rw [hattempt]
      exact noTokenHeader_of_error hnew e
    exact absurd h hnone.not_handsOut

/-- A login that hands out its tokens is one of the logins that runs of the server consist of. -/
theorem exists_login_event (hnew : NoTokenHeader response) {users : Users}
    {request : LoginRequest}
    (h : HandsOutTokens (login keyStore clock users request response).2) :
    ∃ l : Login keyStore, l.clock = clock ∧ l.response = response ∧
      l.authentication = (request.record users).authentication := by
  obtain ⟨hattempt, access, refresh, haccess, -, hrefresh, -⟩ := tokens_of_handsOut hnew h
  obtain ⟨hchecked, -⟩ := attemptAuthentication_ok_iff.mp hattempt
  rw [login, hattempt] at haccess hrefresh
  exact ⟨{
    clock := clock
    response := response
    no_token := hnew.access
    authentication := (request.record users).authentication
    made := ⟨(request.record users).username, if_neg hchecked.authorities⟩
    text := fun kind => if kind = .access then access else refresh
    access_eq := haccess
    refresh_eq := hrefresh }, rfl, rfl, rfl⟩

end Answer

/-! ## 3. Who should be -/

/-- The right password, and an account that may be used. -/
structure Entitled (request : LoginRequest) (d : JwtUserDetail) : Prop where
  named : HasText (request.username.getD "")
  password : request.password = d.password
  enabled : d.enabled = true
  accountNonLocked : d.accountNonLocked = true
  accountNonExpired : d.accountNonExpired = true
  credentialsNonExpired : d.credentialsNonExpired = true

/-- Tokens go to the entitled only, and everyone else gets no token header. -/
def HandsOutProperly (keyStore : KeyStore p) (clock : LoginClock) (users : Users)
    (request : LoginRequest) (response : HttpServletResponse) : Prop :=
  let answer := (login keyStore clock users request response).2
  (HandsOutTokens answer → Entitled request (request.record users)) ∧
    (¬ Entitled request (request.record users) → NoTokenHeader answer)

/-- What the code does not check itself has to hold of whoever passes its checks. -/
theorem handsOutProperly_iff {keyStore : KeyStore p} (hsigns : keyStore.Signs)
    {response : HttpServletResponse} (hnew : NoTokenHeader response) (clock : LoginClock)
    (users : Users) (request : LoginRequest) :
    HandsOutProperly keyStore clock users request response ↔
      (Checked request (request.record users) ∧ (request.record users).username.isSome →
        request.password = (request.record users).password ∧
          (request.record users).credentialsNonExpired = true) := by
  obtain ⟨hout, hnone⟩ := login_tokens hsigns hnew clock users request
  unfold HandsOutProperly
  constructor
  · rintro ⟨honly, -⟩ hpassed
    have hentitled := honly (hout hpassed)
    exact ⟨hentitled.password, hentitled.credentialsNonExpired⟩
  · intro h
    by_cases hpassed : Checked request (request.record users) ∧
        (request.record users).username.isSome
    · obtain ⟨hpassword, hcredentials⟩ := h hpassed
      have hentitled : Entitled request (request.record users) :=
        ⟨hpassed.1.named, hpassword, hpassed.1.enabled, hpassed.1.accountNonLocked,
          hpassed.1.accountNonExpired, hcredentials⟩
      exact ⟨fun _ => hentitled, fun hnot => absurd hentitled hnot⟩
    · exact ⟨fun htokens => absurd htokens (hnone hpassed).not_handsOut, fun _ => hnone hpassed⟩

theorem compactKeyStore_signs : compactKeyStore.Signs := ⟨_, rfl, compactPlatform_sign_isSome _⟩

theorem handsOutProperly_own_password :
    HandsOutProperly compactKeyStore morningLogin serviceUsers ⟨some "alice", some "alice"⟩ .empty :=
  (handsOutProperly_iff compactKeyStore_signs ⟨rfl, rfl⟩ morningLogin serviceUsers
    ⟨some "alice", some "alice"⟩).mpr fun _ => ⟨rfl, rfl⟩

/-- The service's record for alice has another password, and she gets her tokens. -/
theorem wrong_password_handed_out :
    HandsOutTokens (login compactKeyStore morningLogin serviceUsers
        ⟨some "alice", some "wrong"⟩ .empty).2 ∧
      ¬ Entitled ⟨some "alice", some "wrong"⟩ (serviceUsers "alice") := by
  constructor
  · apply (login_tokens compactKeyStore_signs ⟨rfl, rfl⟩ morningLogin serviceUsers
      ⟨some "alice", some "wrong"⟩).1
    exact ⟨⟨by decide, rfl, rfl, rfl, by decide⟩, rfl⟩
  · intro hentitled
    exact absurd hentitled.password (by decide)

end UtilsRepo.Auth
