import UtilsRepo.Auth.JwtLoginSuccessHandler
import UtilsRepo.Auth.JwtTokenFilter
import UtilsRepo.Jwt.VerifiedToken

/-!
# Tokens with user details in front of the filter

The user record is stored under a claim named by the user, next to `jti`, `exp` and `nbf`.  What the
filter makes of a token with such a payload depends on the name and on the time only.
-/

namespace UtilsRepo.Auth

open Jwt Jwt.Builder

variable {p : Platform}

/-! ## 1. The payload -/

/-- The names the token's own claims are found under. -/
def dateNames : List String := ["exp", "nbf", "iat"]

def reservedNames : List String := "jti" :: dateNames

/-- The claims of a token with user details. -/
def detailBuilder (p : Platform) (clock : TokenClock) (d : JwtUserDetail) (user : String)
    (seconds : Int32) : Builder :=
  (userClaims clock (some user) (expirySeconds clock seconds)).addClaim user
    (some (.string (writeValueAsString p d)))

theorem detailToken_signed {keyStore : KeyStore p} {clock : TokenClock} {d : JwtUserDetail}
    {seconds : Int32} {text : String} {message : Option String}
    (h : detailToken keyStore clock d seconds = ⟨some text, message, false⟩) :
    ∃ user token, d.username = some user ∧ text = encodeToString token ∧
      Nonempty (Signed (detailBuilder p clock d user seconds)
        (⟨none, keyStore.privateKey⟩ : Algorithm p) token) := by
  have hnoerror : (detailToken keyStore clock d seconds).error = false := by rw [h]
  obtain ⟨b, token, hb, hsigned, htoken⟩ := signedToken_of_not_error hnoerror
  change detailToken keyStore clock d seconds = _ at htoken
  obtain ⟨user, huser, rfl⟩ := withClaim_ok hb
  rw [huser] at hsigned
  refine ⟨user, token, huser, ?_, hsigned⟩
  exact Option.some.inj (congrArg Token.token (h.symm.trans htoken))

section Payload

variable {clock : TokenClock} {d : JwtUserDetail} {user : String} {seconds : Int32}
  {algorithm : Algorithm p} {token : String}

theorem lookup_detail (s : Signed (detailBuilder p clock d user seconds) algorithm token)
    (k : String) :
    s.payload.lookup k =
      if k = user then some (.str (writeValueAsString p d))
      else if k = "exp" then Jwt.seconds (expirySeconds clock seconds)
      else if k = "nbf" then Jwt.seconds clock.notBefore
      else if k = "jti" then some (.str user)
      else none := by
  rw [s.lookup_payload, detailBuilder, lookup_addClaim, lookup_userClaims]
  split_ifs <;> rfl

theorem inLong_expirySeconds (clock : TokenClock) (seconds : Int32) :
    InLong (expirySeconds clock seconds) := by
  have hrange := clock.inRange
  have hle := clock.base_le
  have hmin := seconds.le_toInt
  have hmax := seconds.toInt_lt
  unfold InLong expirySeconds
  dsimp only
  split_ifs <;> omega

/-- A user named like a date makes a token that cannot be read. -/
theorem not_deserialize_detail (s : Signed (detailBuilder p clock d user seconds) algorithm token)
    (huser : user ∈ dateNames) (payload : Payload) : deserialize p s.payload ≠ .ok payload :=
  not_deserialize_of_str huser ((lookup_detail s user).trans (if_pos rfl)) payload

/-- What the token of any other user is read as. -/
theorem deserialize_detail (s : Signed (detailBuilder p clock d user seconds) algorithm token)
    (huser : user ∉ dateNames) :
    ∃ payload, deserialize p s.payload = .ok payload ∧
      payload.expiresAt = some (truncated (expirySeconds clock seconds)) ∧
      payload.notBefore = some (truncated clock.notBefore) ∧ payload.issuedAt = none ∧
      payload.id = some (if user = "jti" then writeValueAsString p d else user) ∧
      payload.tree = s.payload := by
  simp only [dateNames, List.mem_cons, List.not_mem_nil, or_false, not_or] at huser
  obtain ⟨hexp, hnbf, hiat⟩ := huser
  have haud : ∀ j, s.payload.lookup "aud" = some j → ∃ t, j = .str t := by
    intro j hj
    simp only [lookup_detail, String.reduceEq, if_false] at hj
    split_ifs at hj
    exact ⟨_, (Option.some.inj hj).symm⟩
  have hid : s.payload.lookup "jti" =
      (some (if user = "jti" then writeValueAsString p d else user)).map .str := by
    rw [lookup_detail]
    by_cases hjti : user = "jti"
    · simp [hjti]
    · simp [hjti, Ne.symm hjti]
  obtain ⟨audience, hok⟩ := deserialize_dates (p := p) s.payload
    (some (expirySeconds clock seconds)) (some clock.notBefore) none haud
    (by simp [lookup_detail, Ne.symm hexp]) (by simpa using inLong_expirySeconds clock seconds)
    (by simp [lookup_detail, Ne.symm hnbf]) (by simpa using inLong_notBefore clock)
    (by simp [lookup_detail, Ne.symm hiat]) (by simp)
  exact ⟨_, hok, rfl, rfl, rfl, getString_str hid, rfl⟩

/-- The id leads to the user record, except that the one of the user `jti` leads nowhere. -/
theorem claimAsString_detail (s : Signed (detailBuilder p clock d user seconds) algorithm token)
    (huser : user ∉ dateNames) {payload : Payload} (h : deserialize p s.payload = .ok payload) :
    payload.claimAsString payload.id =
      if user = "jti" then none else some (writeValueAsString p d) := by
  obtain ⟨payload', h', -, -, -, hid, htree⟩ := deserialize_detail s huser
  obtain rfl : payload' = payload := Except.ok.inj (h'.symm.trans h)
  rw [Payload.claimAsString, hid, htree, Option.bind_some]
  by_cases hjti : user = "jti"
  · -- a record starts with a brace, so it is none of the names of the payload
    have hne : ∀ name : String, name.toList.head? ≠ some '{' → writeValueAsString p d ≠ name := by
      rintro name hname rfl
      exact hname (head_writeValueAsString p d)
    rw [if_pos hjti, lookup_detail, if_neg (hjti ▸ hne "jti" (by decide)),
      if_neg (hne "exp" (by decide)), if_neg (hne "nbf" (by decide)),
      if_neg (hne "jti" (by decide)), if_pos hjti]
  · rw [if_neg hjti, lookup_detail, if_pos rfl, if_neg hjti]

/-! ## 2. In front of the filter -/

/-- The time a token is good for, to the second. -/
def Alive (clock : TokenClock) (seconds : Int32) (now : ℕ) : Prop :=
  truncated clock.notBefore ≤ today now ∧ today now ≤ truncated (expirySeconds clock seconds)

theorem alive_iff (clock : TokenClock) {seconds : Int32} (h : 0 < seconds.toInt) (now : ℕ) :
    Alive clock seconds now ↔
      clock.notBefore / 1000 ≤ now / 1000 ∧
        ((now / 1000 : ℕ) : ℤ) ≤ (clock.base / 1000 : ℕ) + seconds.toInt := by
  have hexpiry : expirySeconds clock seconds = clock.base + seconds.toInt * 1000 := by
    have hpos : ¬ seconds ≤ 0 := by
      rw [Int32.le_iff_toInt_le]
      simpa using h
    rw [expirySeconds, if_neg hpos]
  have hnbf := truncated_cases clock.notBefore
  have hexp := truncated_cases (expirySeconds clock seconds)
  unfold Alive today
  rw [hexpiry] at hexp ⊢
  omega

variable {text bearer : String} {parts : Parts}
  {s : Signed (detailBuilder p clock d user seconds) algorithm token}

/-- The user record of a token is found unless the user's name is reserved. -/
theorem requestAuthentication_detail (hdecode : decodeToString p bearer = .ok text)
    (hpresents : Presents s text parts) (authentication : Authentication) :
    requestAuthentication p bearer = .ok authentication ↔
      user ∉ reservedNames ∧
        JwtAccessToken.new d.username (some "") d.authorities = .ok authentication := by
  unfold requestAuthentication
  rw [hpresents.parseToken_eq hdecode, reservedNames, List.mem_cons, not_or]
  by_cases hdate : user ∈ dateNames
  · cases hd : deserialize p s.payload with
    | error e => exact iff_of_false (fun h => nomatch h) (fun h => h.1.2 hdate)
    | ok payload => exact absurd hd (not_deserialize_detail s hdate payload)
  · obtain ⟨payload, hd, -⟩ := deserialize_detail s hdate
    have hclaim := claimAsString_detail s hdate hd
    rw [hd]
    change (do
      let userDetail ← nonNull (← readValue p (payload.claimAsString payload.id))
      JwtAccessToken.new userDetail.username (some "") userDetail.authorities) = _ ↔ _
    rw [hclaim]
    by_cases hjti : user = "jti"
    · rw [if_pos hjti]
      exact iff_of_false (fun h => nomatch h) (fun h => h.1.1 hjti)
    · rw [if_neg hjti, readValue_writeValueAsString]
      exact (and_iff_right ⟨hjti, hdate⟩).symm

/-- A text with the token's header and payload verifies under a key while the token is alive, if its
signature does. -/
theorem verifyTokenByText_detail {publicKey : Option String} {key : p.PublicKey}
    (hkey : convertToPublicKey p publicKey = .ok key)
    (hdecode : decodeToString p bearer = .ok text) (hpresents : Presents s text parts) (now : ℕ) :
    (verifyTokenByText p now bearer publicKey).error = false ↔
      user ∉ dateNames ∧ Alive clock seconds now ∧
        ∃ signature, decodeBase64 parts.signature = .ok signature ∧
          p.verify key (signedContent (writePart p s.header) (writePart p s.payload))
            signature = true := by
  have hverifier : verifyTokenByText p now bearer publicKey =
      verifiedToken bearer now
        (.ok (Verification.require (⟨some key, none⟩ : Algorithm p)).build) := by
    rw [verifyTokenByText, hkey]
    rfl
  rw [hverifier, verifiedToken_not_error_iff]
  simp only [hdecode, Except.ok.injEq, exists_eq_left', verify_presents_iff hpresents,
    algorithm_require_build, Option.any_some, meets_require_iff]
  by_cases hdate : user ∈ dateNames
  · refine iff_of_false ?_ (fun h => h.1 hdate)
    rintro ⟨payload, _, hd, -⟩
    exact not_deserialize_detail s hdate payload hd
  · obtain ⟨payload, hd, hexp, hnbf, hiat, -⟩ := deserialize_detail s hdate
    constructor
    · rintro ⟨payload', signature, hd', hsignature, hverify, hafter, hbefore, -⟩
      obtain rfl : payload = payload' := Except.ok.inj (hd.symm.trans hd')
      exact ⟨hdate, ⟨hbefore _ hnbf, hafter _ hexp⟩, signature, hsignature, hverify⟩
    · rintro ⟨-, ⟨hbefore, hafter⟩, signature, hsignature, hverify⟩
      refine ⟨payload, signature, hd, hsignature, hverify, ?_, ?_, ?_⟩
      · rw [hexp]
        rintro _ ⟨⟩
        exact hafter
      · rw [hnbf]
        rintro _ ⟨⟩
        exact hbefore
      · rw [hiat]
        rintro _ ⟨⟩

/-- What the filter makes of a header with the token's header and payload. -/
theorem admits_detail_iff {keyStore : KeyStore p} {key : p.PublicKey}
    (hkey : convertToPublicKey p keyStore.publicKey = .ok key) {header : String}
    (hbearer : hasBearer header = true) (hdecode : decodeToString p (bearerToken header) = .ok text)
    (hpresents : Presents s text parts) (now : ℕ) (authentication : Authentication) :
    Admits keyStore now (some header) authentication ↔
      user ∉ reservedNames ∧ Alive clock seconds now ∧
        JwtAccessToken.new d.username (some "") d.authorities = .ok authentication ∧
        ∃ signature, decodeBase64 parts.signature = .ok signature ∧
          p.verify key (signedContent (writePart p s.header) (writePart p s.payload))
            signature = true := by
  have hverify := verifyTokenByText_detail hkey hdecode hpresents now
  have hrequest := requestAuthentication_detail hdecode hpresents authentication
  constructor
  · rintro ⟨_, ⟨⟩, -, hv, hr⟩
    obtain ⟨-, halive, hsignature⟩ := hverify.mp hv
    obtain ⟨hname, hnew⟩ := hrequest.mp hr
    exact ⟨hname, halive, hnew, hsignature⟩
  · rintro ⟨hname, halive, hnew, hsignature⟩
    have hdate : user ∉ dateNames := fun h => hname (List.mem_cons_of_mem _ h)
    exact ⟨header, rfl, hbearer, hverify.mpr ⟨hdate, halive, hsignature⟩,
      hrequest.mpr ⟨hname, hnew⟩⟩

end Payload

end UtilsRepo.Auth
