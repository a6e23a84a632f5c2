import UtilsRepo.Auth.JwtLoginSuccessHandler

/-!
# The login

A login request on its way through the login filter, the authentication manager, the provider and
the handler for success or failure.  The user service is taken over any table of user records.
-/

namespace UtilsRepo.Auth

open Jwt

/-! ## 1. Requests and authentications -/

-- the parameters `username` and `password` of the request; `none` stands for a missing one
structure LoginRequest where
  username : Option String
  password : Option String

/-- `JwtAccessToken(principal, credentials)`: nothing is authenticated yet. -/
def JwtAccessToken.requested {π : Type} (principal : π) (credentials : Option String) :
    JwtAccessToken π :=
  ⟨principal, credentials, [], false⟩

-- `AbstractAuthenticationToken.getName`, for a principal that is a text or `null`
def JwtAccessToken.getName (authentication : JwtAccessToken (Option String)) : String :=
  authentication.principal.getD ""

def JwtUserDetail.eraseCredentials (d : JwtUserDetail) : JwtUserDetail :=
  { d with password := none }

/-- `AbstractAuthenticationToken.eraseCredentials`: only the principal is a container of
credentials. -/
def JwtAccessToken.eraseCredentials (authentication : JwtAccessToken JwtUserDetail) :
    JwtAccessToken JwtUserDetail :=
  { authentication with principal := authentication.principal.eraseCredentials }

/-! ## 2. JwtUserDetailsService -/

/-- The records of the user service, by name. -/
abbrev Users := String → JwtUserDetail

def loadUserByUsername (users : Users) (username : Option String) :
    Except JavaException JwtUserDetail :=
  match username with
  | none => .error ⟨.badCredentialsException, some AuthConstant.MSG_USERNAME_EMPTY⟩
  | some username =>
      if (trim username.toList).length = 0 then
        .error ⟨.badCredentialsException, some AuthConstant.MSG_USERNAME_EMPTY⟩
      else .ok (users username)

def getAuthorities : List (Option JwtGrantedAuthority) :=
  [some ⟨AuthConstant.PREFIX_ROLE ++ "admin", by decide⟩]

-- the record the service makes up so far: the password is the name
def serviceUsers : Users :=
  fun username => JwtUserDetail.new (some username) (some username) (some getAuthorities)

/-! ## 3. JwtAuthenticationProvider -/

def defaultCheck (user : JwtUserDetail) : Except JavaException Unit :=
  if !user.accountNonLocked then .error ⟨.lockedException, some "User account is locked"⟩
  else if !user.enabled then .error ⟨.disabledException, some "User is disabled"⟩
  else if !user.accountNonExpired then
    .error ⟨.accountExpiredException, some "User account has expired"⟩
  else .ok ()

def authenticate (users : Users) (authentication : JwtAccessToken (Option String)) :
    Except JavaException (JwtAccessToken JwtUserDetail) := do
  let username := authentication.getName
  let userDetail ← loadUserByUsername users (some username)
  defaultCheck userDetail
  JwtAccessToken.new userDetail userDetail.username userDetail.authorities

-- `ProviderManager.authenticate` with this one provider
def managerAuthenticate (users : Users) (authentication : JwtAccessToken (Option String)) :
    Except JavaException (JwtAccessToken JwtUserDetail) := do
  let result ← authenticate users authentication
  return result.eraseCredentials

/-! ## 4. JwtLoginFilter -/

def attemptAuthentication (users : Users) (request : LoginRequest) :
    Except JavaException (JwtAccessToken JwtUserDetail) :=
  managerAuthenticate users (JwtAccessToken.requested request.username request.password)

-- the subclasses of `AuthenticationException`
def JavaException.isAuthenticationException (e : JavaException) : Bool :=
  e.exceptionClass ∈ [ExceptionClass.badCredentialsException, .lockedException, .disabledException,
    .accountExpiredException]

-- `JwtLoginFailureHandler.onAuthenticationFailure`; the code of the answer is not set
def onAuthenticationFailure (p : Platform) (response : HttpServletResponse) (e : JavaException) :
    HttpServletResponse :=
  response.setResponse.write p ⟨0, none, e.message⟩

-- `AbstractAuthenticationProcessingFilter.doFilter` of a login request
def login {p : Platform} (keyStore : KeyStore p) (clock : LoginClock) (users : Users)
    (request : LoginRequest) (response : HttpServletResponse) :
    Except JavaException Unit × HttpServletResponse :=
  match attemptAuthentication users request with
  | .ok authentication =>
      (.ok (), onAuthenticationSuccess keyStore clock response authentication)
  | .error e =>
      if JavaException.isAuthenticationException e then
        (.ok (), onAuthenticationFailure p response e)
      else (.error e, response)

/-! ## 5. Whom the provider authenticates -/

/-- The record a request is about. -/
def LoginRequest.record (request : LoginRequest) (users : Users) : JwtUserDetail :=
  users (request.username.getD "")

/-- What the code checks before it authenticates: a name, and a record that is neither locked nor
disabled nor expired and has no `null` among its authorities. -/
structure Checked (request : LoginRequest) (d : JwtUserDetail) : Prop where
  named : HasText (request.username.getD "")
  accountNonLocked : d.accountNonLocked = true
  enabled : d.enabled = true
  accountNonExpired : d.accountNonExpired = true
  authorities : none ∉ d.authorities.getD []

/-- The authentication of a record after the manager has erased its password. -/
def JwtUserDetail.authentication (d : JwtUserDetail) : JwtAccessToken JwtUserDetail :=
  ⟨d.eraseCredentials, d.username, (d.authorities.getD []).reduceOption, true⟩

theorem loadUserByUsername_ok_iff {users : Users} {username : String} {d : JwtUserDetail} :
    loadUserByUsername users (some username) = .ok d ↔ HasText username ∧ users username = d := by
  have hblank : (trim username.toList).length = 0 ↔ ¬ HasText username := by
    rw [List.length_eq_zero_iff, ← not_iff_not, not_not]
    exact trim_ne_nil_iff
  unfold loadUserByUsername
  dsimp only
  split_ifs with h
  · exact iff_of_false (fun h' => nomatch h') (fun h' => hblank.mp h h'.1)
  · rw [Except.ok.injEq]
    exact (and_iff_right (not_not.mp (fun h' => h (hblank.mpr h')))).symm

theorem defaultCheck_ok_iff {user : JwtUserDetail} :
    defaultCheck user = .ok () ↔
      user.accountNonLocked = true ∧ user.enabled = true ∧ user.accountNonExpired = true := by
  unfold defaultCheck
  cases user.accountNonLocked <;> cases user.enabled <;> cases user.accountNonExpired <;> simp

theorem attemptAuthentication_ok_iff {users : Users} {request : LoginRequest}
    {authentication : JwtAccessToken JwtUserDetail} :
    attemptAuthentication users request = .ok authentication ↔
      Checked request (request.record users) ∧
        (request.record users).authentication = authentication := by
  unfold attemptAuthentication managerAuthenticate authenticate
  constructor
  · intro h
    obtain ⟨result, hresult, h⟩ := Fallible.except_bind_ok h
    obtain ⟨d, hload, hresult⟩ := Fallible.except_bind_ok hresult
    obtain ⟨⟨⟩, hcheck, hnew⟩ := Fallible.except_bind_ok hresult
    obtain ⟨hnamed, rfl⟩ := loadUserByUsername_ok_iff.mp hload
    obtain ⟨hlocked, henabled, hexpired⟩ := defaultCheck_ok_iff.mp hcheck
    unfold JwtAccessToken.new at hnew
    split_ifs at hnew with hauthorities
    cases hnew
    cases h
    exact ⟨⟨hnamed, hlocked, henabled, hexpired, hauthorities⟩, rfl⟩
  · rintro ⟨hchecked, rfl⟩
    have hload : loadUserByUsername users (some (request.username.getD "")) =
        .ok (request.record users) :=
      loadUserByUsername_ok_iff.mpr ⟨hchecked.named, rfl⟩
    have hcheck : defaultCheck (request.record users) = .ok () :=
      defaultCheck_ok_iff.mpr
        ⟨hchecked.accountNonLocked, hchecked.enabled, hchecked.accountNonExpired⟩
    simp only [JwtAccessToken.requested, JwtAccessToken.getName, hload, hcheck, bind, Except.bind,
      JwtAccessToken.new, if_neg hchecked.authorities]
    rfl

end UtilsRepo.Auth
