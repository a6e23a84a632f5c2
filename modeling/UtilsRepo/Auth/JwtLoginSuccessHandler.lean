import UtilsRepo.Auth.Response
import UtilsRepo.Jwt.WrittenClaims

/-!
# JwtLoginSuccessHandler

After a login two tokens of the same kind go into the response headers: the access token, valid for
half an hour, and the refresh token, valid for a week.
-/

namespace UtilsRepo.Auth

open Jwt

/-- What the clock answers while the two tokens are made. -/
structure LoginClock where
  access : TokenClock
  refresh : TokenClock
  access_le_refresh : access.notBefore ≤ refresh.base

/-- Lifetimes in seconds. -/
def accessSeconds : Int32 := 1800

def refreshSeconds : Int32 := 60 * 60 * 24 * 7

def detailToken {p : Platform} (keyStore : KeyStore p) (clock : TokenClock)
    (userDetail : JwtUserDetail) (seconds : Int32) : Token :=
  createTokenByKeyDetailsSeconds p clock keyStore.privateKey userDetail.username
    (some (writeValueAsString p userDetail)) seconds

def onAuthenticationSuccess {p : Platform} (keyStore : KeyStore p) (clock : LoginClock)
    (response : HttpServletResponse) (authentication : JwtAccessToken JwtUserDetail) :
    HttpServletResponse :=
  let response := response.setResponse
  let userDetail := authentication.principal
  let accessToken := detailToken keyStore clock.access userDetail accessSeconds
  let refreshToken := detailToken keyStore clock.refresh userDetail refreshSeconds
  if !accessToken.error && !refreshToken.error then
    ((response.setHeader AuthConstant.HEAD_AUTHORIZATION accessToken.token).setHeader
      AuthConstant.HEAD_REFRESH_T refreshToken.token).write p (AuthResponse.of .ok none)
  else
    response.write p (AuthResponse.of .internalServerError (some AuthConstant.MSG_SYS_ERROR))

/-- A response without token headers gets both or none. -/
theorem headers_onAuthenticationSuccess {p : Platform} {keyStore : KeyStore p} {clock : LoginClock}
    {response : HttpServletResponse} {authentication : JwtAccessToken JwtUserDetail}
    (hnew : response.headers.lookup AuthConstant.HEAD_AUTHORIZATION = none) {text : String}
    (h : (onAuthenticationSuccess keyStore clock response authentication).headers.lookup
      AuthConstant.HEAD_AUTHORIZATION = some text) :
    detailToken keyStore clock.access authentication.principal accessSeconds =
        ⟨some text, some "create success", false⟩ ∧
      ∃ refresh, detailToken keyStore clock.refresh authentication.principal refreshSeconds =
          ⟨some refresh, some "create success", false⟩ ∧
        (onAuthenticationSuccess keyStore clock response authentication).headers.lookup
          AuthConstant.HEAD_REFRESH_T = some refresh := by
  unfold onAuthenticationSuccess at h ⊢
  dsimp only at h ⊢
  by_cases hok : (!(detailToken keyStore clock.access authentication.principal
      accessSeconds).error && !(detailToken keyStore clock.refresh authentication.principal
      refreshSeconds).error) = true
  · simp only [if_pos hok, HttpServletResponse.headers_write] at h ⊢
    simp only [Bool.and_eq_true, Bool.not_eq_true'] at hok
    obtain ⟨_, access, -, -, haccess⟩ := signedToken_of_not_error hok.1
    obtain ⟨_, refresh, -, -, hrefresh⟩ := signedToken_of_not_error hok.2
    change detailToken _ _ _ _ = _ at haccess hrefresh
    rw [haccess, hrefresh, HttpServletResponse.lookup_setHeader_ne _ _ (by decide),
      HttpServletResponse.lookup_setHeader_self] at h
    rw [haccess, hrefresh, Option.some.inj h]
    exact ⟨rfl, _, rfl, HttpServletResponse.lookup_setHeader_self _ _ _⟩
  · simp only [if_neg hok, HttpServletResponse.headers_write,
      HttpServletResponse.headers_setResponse, hnew] at h
    cases h

end UtilsRepo.Auth
