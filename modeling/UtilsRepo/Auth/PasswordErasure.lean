import UtilsRepo.Auth.LoginChecks

/-!
# No password in a token

The manager erases the password of the record before the handler writes the record into the tokens,
so logins whose records differ in the password only hand out the same payloads.
-/

namespace UtilsRepo.Auth

open Jwt

variable {p : Platform} {keyStore : KeyStore p} {clock : LoginClock}

/-- The payload of the token in a header of an answer. -/
def answerPayload (p : Platform) (response : HttpServletResponse) (name : String) :
    Option (List (String × Json)) :=
  (response.headers.lookup name).bind fun text => tokenPayload p ⟨some text, none, false⟩

/-- The password is not among the properties of a record that was erased. -/
theorem lookup_password_eraseCredentials (d : JwtUserDetail) :
    d.eraseCredentials.fields.lookup "password" = none :=
  d.eraseCredentials.lookup_fields.2.1

theorem eraseCredentials_of_password (d : JwtUserDetail) (password : Option String) :
    ({ d with password := password } : JwtUserDetail).eraseCredentials = d.eraseCredentials := rfl

theorem answerPayload_of_token {response : HttpServletResponse} {name text : String}
    (h : response.headers.lookup name = some text) {tokenClock : TokenClock} {d : JwtUserDetail}
    {seconds : Int32} {message : Option String}
    (htoken : detailToken keyStore tokenClock d seconds = ⟨some text, message, false⟩) :
    ∃ payload, answerPayload p response name = some payload := by
  obtain ⟨user, token, -, rfl, ⟨s⟩⟩ := detailToken_signed htoken
  refine ⟨s.payload, ?_⟩
  rw [answerPayload, h]
  exact tokenPayload_signed s none false

/-- Two logins at the same instants, whose records differ in the password only. -/
theorem payloads_independent_of_password {users users' : Users} {request request' : LoginRequest}
    {response response' : HttpServletResponse} (hnew : NoTokenHeader response)
    (hnew' : NoTokenHeader response') {password : Option String}
    (hrecords : request'.record users' = { request.record users with password := password })
    (h : HandsOutTokens (login keyStore clock users request response).2)
    (h' : HandsOutTokens (login keyStore clock users' request' response').2) :
    ∀ name ∈ [AuthConstant.HEAD_AUTHORIZATION, AuthConstant.HEAD_REFRESH_T],
      ∃ payload,
        answerPayload p (login keyStore clock users request response).2 name = some payload ∧
          answerPayload p (login keyStore clock users' request' response').2 name =
            some payload := by
  obtain ⟨-, access, refresh, haccess, htoken, hrefresh, hrefreshToken⟩ := tokens_of_handsOut hnew h
  obtain ⟨-, access', refresh', haccess', htoken', hrefresh', hrefreshToken'⟩ :=
    tokens_of_handsOut hnew' h'
  -- the same tokens are made from the erased records
  rw [hrecords, eraseCredentials_of_password] at htoken' hrefreshToken'
  obtain rfl : access = access' :=
    Option.some.inj (congrArg Token.token (htoken.symm.trans htoken'))
  obtain rfl : refresh = refresh' :=
    Option.some.inj (congrArg Token.token (hrefreshToken.symm.trans hrefreshToken'))
  intro name hname
  simp only [List.mem_cons, List.not_mem_nil, or_false] at hname
  rcases hname with rfl | rfl
  · obtain ⟨payload, hpayload⟩ := answerPayload_of_token haccess htoken
    refine ⟨payload, hpayload, ?_⟩
    rw [← hpayload, answerPayload, answerPayload, haccess, haccess']
  · obtain ⟨payload, hpayload⟩ := answerPayload_of_token hrefresh hrefreshToken
    refine ⟨payload, hpayload, ?_⟩
    rw [← hpayload, answerPayload, answerPayload, hrefresh, hrefresh']

/-- The service's users with another password. -/
def secretUsers : Users := fun username => { serviceUsers username with password := some "secret" }

theorem login_alice_handsOut (users : Users) (request : LoginRequest)
    (h : Checked request (request.record users) ∧ (request.record users).username.isSome) :
    HandsOutTokens (login compactKeyStore morningLogin users request .empty).2 :=
  (login_tokens compactKeyStore_signs ⟨rfl, rfl⟩ morningLogin users request).1 h

/-- The answer to alice, with the right password for either table of users. -/
def aliceAnswer (users : Users) (password : String) : HttpServletResponse :=
  (login compactKeyStore morningLogin users ⟨some "alice", some password⟩ .empty).2

theorem payloads_independent_of_password_alice :
    (∃ payload,
      answerPayload compactPlatform (aliceAnswer serviceUsers "alice")
          AuthConstant.HEAD_AUTHORIZATION = some payload ∧
        answerPayload compactPlatform (aliceAnswer secretUsers "secret")
          AuthConstant.HEAD_AUTHORIZATION = some payload) ∧
    ∃ payload,
      answerPayload compactPlatform (aliceAnswer serviceUsers "alice")
          AuthConstant.HEAD_REFRESH_T = some payload ∧
        answerPayload compactPlatform (aliceAnswer secretUsers "secret")
          AuthConstant.HEAD_REFRESH_T = some payload := by
  have hservice := login_alice_handsOut serviceUsers ⟨some "alice", some "alice"⟩
    ⟨⟨by decide, rfl, rfl, rfl, by decide⟩, rfl⟩
  have hsecret := login_alice_handsOut secretUsers ⟨some "alice", some "secret"⟩
    ⟨⟨by decide, rfl, rfl, rfl, by decide⟩, rfl⟩
  have hsame := payloads_independent_of_password ⟨rfl, rfl⟩ ⟨rfl, rfl⟩ rfl hservice hsecret
  exact ⟨hsame _ (by simp), hsame _ (by simp)⟩

end UtilsRepo.Auth
