import UtilsRepo.Auth.DetailToken
import UtilsRepo.Jwt.CompactPlatform

/-!
# Which login tokens can be used

The access token of a login opens the filter for as long as it lives, unless the user has the name
of a claim the token or java-jwt uses itself.
-/

namespace UtilsRepo.Auth

open Jwt

variable {p : Platform}

/-- During its lifetime a bearer header with the text makes the filter invoke the chain as the
user, with the authorities of the record. -/
def Usable (keyStore : KeyStore p) (clock : TokenClock) (user : String) (d : JwtUserDetail)
    (text : String) : Prop :=
  ∀ now : ℕ, clock.notBefore ≤ now → now ≤ clock.base + 1800 * 1000 →
    ∀ (chain : FilterChain) (x : Exchange), ∃ authentication : Authentication,
      (handle keyStore now chain (some (AuthConstant.PREFIX_BEARER ++ text)) x).invoked =
          x.invoked ++ [some authentication] ∧
        authentication.principal = some user ∧
        authentication.authorities.map some = d.authorities.getD []

theorem alive_access_iff (clock : TokenClock) (now : ℕ) :
    Alive clock accessSeconds now ↔
      clock.notBefore / 1000 ≤ now / 1000 ∧ now / 1000 ≤ clock.base / 1000 + 1800 := by
  rw [alive_iff clock (by decide), show accessSeconds.toInt = 1800 from rfl]
  omega

theorem blank_not_mem_encodeToString (s : String) : ' ' ∉ (encodeToString s).toList := by
  rw [encodeToString, String.toList_ofList]
  exact Base64.not_mem_encode (by decide) _

variable {publicKey : p.PublicKey} {privateKey : p.PrivateKey}

/-- What the filter makes of a token with user details that was made with the paired key. -/
theorem admits_own_iff (hpaired : p.Paired privateKey publicKey) {clock : TokenClock}
    {d : JwtUserDetail} {user : String} (huser : d.username = some user) {seconds : Int32}
    {text : String} {message : Option String}
    (h : detailToken (KeyStore.ofPair publicKey privateKey) clock d seconds =
      ⟨some text, message, false⟩) (now : ℕ) (authentication : Authentication) :
    Admits (KeyStore.ofPair publicKey privateKey) now
        (some (AuthConstant.PREFIX_BEARER ++ text)) authentication ↔
      user ∉ reservedNames ∧ Alive clock seconds now ∧
        JwtAccessToken.new (some user) (some "") d.authorities = .ok authentication := by
  obtain ⟨user', token, huser', rfl, ⟨s⟩⟩ := detailToken_signed h
  obtain rfl : user = user' := Option.some.inj (huser.symm.trans huser')
  obtain ⟨hbearer, htoken⟩ := bearerToken_append (blank_not_mem_encodeToString token)
  rw [admits_detail_iff (convertToPublicKey_ofPair publicKey privateKey) hbearer
    (by rw [htoken, decodeToString_encodeToString]) s.presents, huser]
  have hsignature : ∃ signature, decodeBase64 s.parts.signature = .ok signature ∧
      p.verify publicKey (Builder.signedContent (Builder.writePart p s.header)
        (Builder.writePart p s.payload)) signature = true :=
    ⟨s.signature, decodeBase64_encodeUrlSafe _, hpaired _ _ (s.sign_of_key rfl)⟩
  simp only [hsignature, and_true]

/-- The authorities of an authentication can be granted again. -/
theorem new_of_new {π ρ : Type} {principal : π} {credentials : Option String}
    {authorities : Option (List (Option JwtGrantedAuthority))} {token : JwtAccessToken π}
    (h : JwtAccessToken.new principal credentials authorities = .ok token) (principal' : ρ)
    (credentials' : Option String) :
    ∃ token', JwtAccessToken.new principal' credentials' authorities = .ok token' := by
  unfold JwtAccessToken.new at h ⊢
  split_ifs at h ⊢
  exact ⟨_, rfl⟩

section Usable

variable {clock : TokenClock} {d : JwtUserDetail} {user text : String} {message : Option String}

theorem usable_of_not_reserved (hpaired : p.Paired privateKey publicKey)
    (huser : d.username = some user) {credentials : Option String}
    {login : JwtAccessToken JwtUserDetail}
    (hlogin : JwtAccessToken.new d credentials d.authorities = .ok login)
    (h : detailToken (KeyStore.ofPair publicKey privateKey) clock d accessSeconds =
      ⟨some text, message, false⟩)
    (hname : clock.notBefore ≤ clock.base + 1800 * 1000 → user ∉ reservedNames) :
    Usable (KeyStore.ofPair publicKey privateKey) clock user d text := by
  intro now hstart hend chain x
  obtain ⟨authentication, hnew⟩ := new_of_new hlogin (some user) (some "")
  have halive : Alive clock accessSeconds now :=
    (alive_access_iff clock now).mpr ⟨by omega, by omega⟩
  have hadmits := (admits_own_iff hpaired huser h now authentication).mpr
    ⟨hname (by omega), halive, hnew⟩
  obtain ⟨hprincipal, hauthorities⟩ := JwtAccessToken.new_ok hnew
  exact ⟨authentication, handle_admitted hadmits chain x, hprincipal, hauthorities⟩

theorem not_reserved_of_usable (hpaired : p.Paired privateKey publicKey)
    (huser : d.username = some user)
    (h : detailToken (KeyStore.ofPair publicKey privateKey) clock d accessSeconds =
      ⟨some text, message, false⟩)
    (husable : Usable (KeyStore.ofPair publicKey privateKey) clock user d text)
    (hwindow : clock.notBefore ≤ clock.base + 1800 * 1000) : user ∉ reservedNames := by
  intro hname
  -- the filter would have admitted some authentication at the start of the lifetime
  have hreject := handle_not_admitted
    (fun authentication hadmits =>
      ((admits_own_iff hpaired huser h clock.notBefore authentication).mp hadmits).1 hname)
    (fun context response => (.ok (), context, response)) ⟨none, .empty, []⟩
  obtain ⟨authentication, hinvoked, -⟩ := husable clock.notBefore (Nat.le_refl _) hwindow
    (fun context response => (.ok (), context, response)) ⟨none, .empty, []⟩
  rw [hreject.1] at hinvoked
  cases hinvoked

end Usable

/-- A login's access token can be used exactly when the user's name is none of the four names that
the token and java-jwt use themselves. -/
theorem login_usable_iff (hpaired : p.Paired privateKey publicKey) (clock : LoginClock)
    {d : JwtUserDetail} {user : String} (huser : d.username = some user)
    {credentials : Option String} {login : JwtAccessToken JwtUserDetail}
    (hlogin : JwtAccessToken.new d credentials d.authorities = .ok login)
    {response : HttpServletResponse}
    (hnew : response.headers.lookup AuthConstant.HEAD_AUTHORIZATION = none) {text : String}
    (htext : (onAuthenticationSuccess (KeyStore.ofPair publicKey privateKey) clock response
      login).headers.lookup AuthConstant.HEAD_AUTHORIZATION = some text) :
    Usable (KeyStore.ofPair publicKey privateKey) clock.access user d text ↔
      (clock.access.notBefore ≤ clock.access.base + 1800 * 1000 → user ∉ reservedNames) := by
  obtain ⟨htoken, -⟩ := headers_onAuthenticationSuccess hnew htext
  rw [(JwtAccessToken.new_ok hlogin).1] at htoken
  exact ⟨fun husable hwindow => not_reserved_of_usable hpaired huser htoken husable hwindow,
    fun hname => usable_of_not_reserved hpaired huser hlogin htoken hname⟩

/-! ## 3. A user who can log in and one who cannot -/

def roleAdmin : JwtGrantedAuthority := ⟨"ROLE_admin", by decide⟩

/-- The record the server makes for a user, and the authentication made from it. -/
def adminDetail (username : String) : JwtUserDetail :=
  JwtUserDetail.new (some username) none (some [some roleAdmin])

def adminLogin (username : String) : JwtAccessToken JwtUserDetail :=
  ⟨adminDetail username, some username, [roleAdmin], true⟩

def compactKeyStore : KeyStore compactPlatform :=
  KeyStore.ofPair (show UInt8 from 7) (show UInt8 from 7)

def morningLogin : LoginClock :=
  ⟨morning, ⟨1700000000002, 1700000000003, by decide, by decide⟩, by decide⟩

/-- A header of the answer to a login on the compact platform. -/
def answerHeader (username name : String) : Option String :=
  (onAuthenticationSuccess compactKeyStore morningLogin .empty
    (adminLogin username)).headers.lookup name

theorem eq_some_getD {o : Option String} (h : o.isSome = true) : o = some (o.getD "") := by
  obtain ⟨s, rfl⟩ := Option.isSome_iff_exists.mp h
  rfl

theorem answerHeader_alice : answerHeader "alice" AuthConstant.HEAD_AUTHORIZATION =
    some ((answerHeader "alice" AuthConstant.HEAD_AUTHORIZATION).getD "") :=
  eq_some_getD rfl

theorem answerHeader_exp : answerHeader "exp" AuthConstant.HEAD_AUTHORIZATION =
    some ((answerHeader "exp" AuthConstant.HEAD_AUTHORIZATION).getD "") :=
  eq_some_getD rfl

theorem login_usable_alice :
    Usable compactKeyStore morning "alice" (adminDetail "alice")
      ((answerHeader "alice" AuthConstant.HEAD_AUTHORIZATION).getD "") :=
  (login_usable_iff (compactPlatform_paired 7) morningLogin rfl
    (show JwtAccessToken.new (adminDetail "alice") (some "alice") _ = .ok (adminLogin "alice")
      from rfl)
    rfl answerHeader_alice).mpr fun _ => by decide

/-- The user `exp` gets an access token that the filter never accepts. -/
theorem login_unusable_exp :
    HasText "exp" ∧ ∃ text, answerHeader "exp" AuthConstant.HEAD_AUTHORIZATION = some text ∧
      ¬ Usable compactKeyStore morning "exp" (adminDetail "exp") text := by
  refine ⟨by decide, _, answerHeader_exp, fun husable => ?_⟩
  obtain ⟨htoken, -⟩ := headers_onAuthenticationSuccess rfl answerHeader_exp
  exact not_reserved_of_usable (compactPlatform_paired 7) rfl htoken husable (by decide)
    (by decide)

end UtilsRepo.Auth
