import UtilsRepo.Auth.LoginUsable
import UtilsRepo.Lib.TimedRun

/-!
# Runs of the server

Successful logins and requests in any order, at times that never go back, with signatures that
cannot be forged.  A request is authenticated only as a user who logged in before, with the
authorities of that login, and only while one of the two tokens of the login is alive.
-/

namespace UtilsRepo.Auth

open Jwt TimedRun

variable {p : Platform}

/-! ## 1. Events -/

inductive TokenKind where
  | access
  | refresh
  deriving DecidableEq, Repr

def TokenKind.seconds : TokenKind → Int32
  | .access => accessSeconds
  | .refresh => refreshSeconds

def LoginClock.of (clock : LoginClock) : TokenKind → TokenClock
  | .access => clock.access
  | .refresh => clock.refresh

/-- A login that was answered with its two tokens. -/
structure Login (keyStore : KeyStore p) where
  clock : LoginClock
  response : HttpServletResponse
  no_token : response.headers.lookup AuthConstant.HEAD_AUTHORIZATION = none
  /-- Made by the provider from the user record. -/
  authentication : JwtAccessToken JwtUserDetail
  made : ∃ credentials, JwtAccessToken.new authentication.principal credentials
    authentication.principal.authorities = .ok authentication
  text : TokenKind → String
  access_eq : (onAuthenticationSuccess keyStore clock response authentication).headers.lookup
    AuthConstant.HEAD_AUTHORIZATION = some (text .access)
  refresh_eq : (onAuthenticationSuccess keyStore clock response authentication).headers.lookup
    AuthConstant.HEAD_REFRESH_T = some (text .refresh)

namespace Login

variable {keyStore : KeyStore p}

def userDetail (l : Login keyStore) : JwtUserDetail := l.authentication.principal

/-- A request as the user of a login can be authenticated. -/
theorem grant (l : Login keyStore) :
    ∃ authentication, JwtAccessToken.new l.userDetail.username (some "")
      l.userDetail.authorities = .ok authentication := by
  obtain ⟨credentials, hmade⟩ := l.made
  exact new_of_new hmade _ _

theorem detailToken_eq (l : Login keyStore) (kind : TokenKind) :
    detailToken keyStore (l.clock.of kind) l.userDetail kind.seconds =
      ⟨some (l.text kind), some "create success", false⟩ := by
  obtain ⟨haccess, refresh, hrefresh, hheader⟩ := headers_onAuthenticationSuccess l.no_token l.access_eq
  cases kind with
  | access => exact haccess
  | refresh =>
    rw [l.refresh_eq, Option.some.injEq] at hheader
    rw [hheader]
    exact hrefresh

end Login

/-- A request that reaches the filter at a time. -/
structure Request where
  time : ℕ
  header : Option String
  chain : FilterChain
  context : Option Authentication
  response : HttpServletResponse

/-- The exchange after the filter. -/
def Request.handled (keyStore : KeyStore p) (r : Request) : Exchange :=
  handle keyStore r.time r.chain r.header ⟨r.context, r.response, []⟩

inductive Event (keyStore : KeyStore p) where
  | login (l : Login keyStore)
  | request (r : Request)

namespace Event

variable {keyStore : KeyStore p}

def start : Event keyStore → ℕ
  | .login l => l.clock.access.base
  | .request r => r.time

def finish : Event keyStore → ℕ
  | .login l => l.clock.refresh.notBefore
  | .request r => r.time

theorem start_le_finish (e : Event keyStore) : e.start ≤ e.finish := by
  cases e with
  | login l =>
    have haccess := l.clock.access.base_le
    have hbetween := l.clock.access_le_refresh
    have hrefresh := l.clock.refresh.base_le
    change l.clock.access.base ≤ l.clock.refresh.notBefore
    omega
  | request r => exact Nat.le_refl _

end Event

/-! ## 2. Unforgeable signatures -/

section Runs

variable {keyStore : KeyStore p}

/-- The private key has signed a content before: it is the content of a login's token. -/
def SignedBefore (past : List (Event keyStore)) (content : String) : Prop :=
  ∃ (l : Login keyStore) (kind : TokenKind) (parts : Parts), Event.login l ∈ past ∧
    tokenParts p (l.text kind) = some parts ∧ parts.content = content

/-- A header the filter looks into has a token of these parts, whose signature verifies. -/
def Bears (publicKey : p.PublicKey) (header : Option String) (parts : Parts) : Prop :=
  ∃ h signature, header = some h ∧ hasBearer h = true ∧
    tokenParts p (bearerToken h) = some parts ∧ decodeBase64 parts.signature = .ok signature ∧
    p.verify publicKey parts.content signature = true

/-- A signature in a request verifies only over a content that was signed before. -/
def Unforged (publicKey : p.PublicKey) (past : List (Event keyStore)) (r : Request) : Prop :=
  ∀ parts, Bears publicKey r.header parts → SignedBefore past parts.content

/-- The server, with an adversary who chooses users, headers and times but forges no signature. -/
def server (keyStore : KeyStore p) (publicKey : p.PublicKey) : System (Event keyStore) where
  start := Event.start
  finish := Event.finish
  start_le_finish := Event.start_le_finish
  guard past
    | .login _ => True
    | .request r => Unforged publicKey past r

/-! ## 3. What opens the filter -/

/-- The header of a request bears a token of a login, up to its signature. -/
def Carries (publicKey : p.PublicKey) (r : Request) (text : String) : Prop :=
  ∃ parts parts', Bears publicKey r.header parts ∧ tokenParts p text = some parts' ∧
    parts'.content = parts.content

/-- A request carries a living token of a user whose name is not reserved. -/
structure Opens (publicKey : p.PublicKey) (r : Request) (l : Login keyStore) (kind : TokenKind) :
    Prop where
  carries : Carries publicKey r (l.text kind)
  alive : Alive (l.clock.of kind) kind.seconds r.time
  not_reserved : ∀ user ∈ l.userDetail.username, user ∉ reservedNames

theorem bears_of_admits {publicKey : p.PublicKey}
    (hkey : convertToPublicKey p keyStore.publicKey = .ok publicKey) {now : ℕ}
    {header : Option String} {authentication : Authentication}
    (h : Admits keyStore now header authentication) : ∃ parts, Bears publicKey header parts := by
  obtain ⟨header, rfl, hbearer, hverify, -⟩ := h
  rw [verifyTokenByText, hkey] at hverify
  obtain ⟨token, hdecode, jwt, hjwt⟩ := verifiedToken_not_error_iff.mp hverify
  obtain ⟨hjwt, -, hsignature, -⟩ := verify_ok_iff.mp hjwt
  obtain ⟨signature, hsignature, hverify⟩ := verifySignature_ok_iff.mp hsignature
  rw [algorithm_require_build, Option.any_some] at hverify
  exact ⟨jwt.parts, header, signature, rfl, hbearer,
    tokenParts_eq_some_iff.mpr ⟨token, hdecode, splitToken_of_decode hjwt⟩, hsignature, hverify⟩

/-- A request that carries a token of a login is admitted exactly if it opens the filter with it,
and then as the user of the login. -/
theorem admits_iff_of_carries {publicKey : p.PublicKey}
    (hkey : convertToPublicKey p keyStore.publicKey = .ok publicKey) {r : Request}
    {l : Login keyStore} {kind : TokenKind} (hcarries : Carries publicKey r (l.text kind))
    (authentication : Authentication) :
    Admits keyStore r.time r.header authentication ↔
      Opens publicKey r l kind ∧ JwtAccessToken.new l.userDetail.username (some "")
        l.userDetail.authorities = .ok authentication := by
  obtain ⟨parts, parts', ⟨h, signature, hheader, hbearer, hparts, hsignature, hverify⟩, hparts',
    hcontent⟩ := show Carries publicKey r (l.text kind) from hcarries
  obtain ⟨user, token, huser, htext, ⟨s⟩⟩ := detailToken_signed (l.detailToken_eq kind)
  obtain ⟨text, hdecode, hsplit⟩ := tokenParts_eq_some_iff.mp hparts
  -- the text in the header has the header and payload that the login signed
  rw [htext, tokenParts_signed s, Option.some.injEq] at hparts'
  have hsame : parts.content =
      Builder.signedContent (Builder.writePart p s.header) (Builder.writePart p s.payload) := by
    rw [← hcontent, ← hparts']
    rfl
  have hpresents := presents_of_content_eq s hsplit hsame
  rw [hheader, admits_detail_iff hkey hbearer hdecode hpresents, ← hsame]
  constructor
  · rintro ⟨hname, halive, hnew, -⟩
    refine ⟨⟨hcarries, halive, ?_⟩, hnew⟩
    rw [huser]
    rintro _ ⟨⟩
    exact hname
  · rintro ⟨⟨-, halive, hname⟩, hnew⟩
    exact ⟨hname user huser, halive, hnew, signature, hsignature, hverify⟩

/-- In a run, what the filter admits was opened with a token of an earlier login. -/
theorem opens_of_admits {publicKey : p.PublicKey}
    (hkey : convertToPublicKey p keyStore.publicKey = .ok publicKey)
    {past : List (Event keyStore)} {r : Request} (hunforged : Unforged publicKey past r)
    {authentication : Authentication} (h : Admits keyStore r.time r.header authentication) :
    ∃ l kind, Event.login l ∈ past ∧ Opens publicKey r l kind ∧
      JwtAccessToken.new l.userDetail.username (some "") l.userDetail.authorities =
        .ok authentication := by
  obtain ⟨parts, hbears⟩ := bears_of_admits hkey h
  obtain ⟨l, kind, parts', hlogin, hparts', hcontent⟩ := hunforged parts hbears
  exact ⟨l, kind, hlogin,
    (admits_iff_of_carries hkey ⟨parts, parts', hbears, hparts', hcontent⟩ authentication).mp h⟩

/-- What a request leaves behind: the chain invoked as the user of a login, or nothing. -/
theorem handled_cases {publicKey : p.PublicKey}
    (hkey : convertToPublicKey p keyStore.publicKey = .ok publicKey)
    {past : List (Event keyStore)} {r : Request} (hunforged : Unforged publicKey past r) :
    (∃ authentication l kind, (r.handled keyStore).invoked = [some authentication] ∧
        Event.login l ∈ past ∧ Opens publicKey r l kind ∧
        authentication.principal = l.userDetail.username ∧
        authentication.authorities.map some = l.userDetail.authorities.getD []) ∨
      ((r.handled keyStore).invoked = [] ∧ (r.handled keyStore).context = r.context) := by
  by_cases h : ∃ authentication, Admits keyStore r.time r.header authentication
  · obtain ⟨authentication, hadmits⟩ := h
    obtain ⟨l, kind, hlogin, hopens, hnew⟩ := opens_of_admits hkey hunforged hadmits
    exact Or.inl ⟨authentication, l, kind, handle_admitted hadmits _ _, hlogin, hopens,
      JwtAccessToken.new_ok hnew⟩
  · exact Or.inr (handle_not_admitted (not_exists.mp h) _ _)

/-! ## 4. Tokens as they were handed out -/

/-- The header made from a token of a login. -/
def Login.bearer (l : Login keyStore) (kind : TokenKind) : Option String :=
  some (AuthConstant.PREFIX_BEARER ++ l.text kind)

theorem Login.bearerToken_eq (l : Login keyStore) (kind : TokenKind) :
    hasBearer (AuthConstant.PREFIX_BEARER ++ l.text kind) = true ∧
      bearerToken (AuthConstant.PREFIX_BEARER ++ l.text kind) = l.text kind := by
  obtain ⟨_, token, -, htext, -⟩ := detailToken_signed (l.detailToken_eq kind)
  rw [htext]
  exact bearerToken_append (blank_not_mem_encodeToString token)

/-- Handing a token back is no forgery. -/
theorem unforged_bearer {publicKey : p.PublicKey} {past : List (Event keyStore)}
    {l : Login keyStore} (hlogin : Event.login l ∈ past) {kind : TokenKind} {r : Request}
    (hheader : r.header = l.bearer kind) : Unforged publicKey past r := by
  rintro parts ⟨h, signature, hh, -, hparts, -⟩
  obtain rfl := Option.some.inj (hh.symm.trans hheader)
  rw [(l.bearerToken_eq kind).2] at hparts
  exact ⟨l, kind, parts, hlogin, hparts, rfl⟩

theorem carries_bearer {publicKey : p.PublicKey} {privateKey : p.PrivateKey}
    (hpaired : p.Paired privateKey publicKey)
    (l : Login (KeyStore.ofPair publicKey privateKey)) {kind : TokenKind} {r : Request}
    (hheader : r.header = l.bearer kind) : Carries publicKey r (l.text kind) := by
  obtain ⟨hbearer, htoken⟩ := l.bearerToken_eq kind
  obtain ⟨_, token, -, htext, ⟨s⟩⟩ := detailToken_signed (l.detailToken_eq kind)
  have hparts : tokenParts p (l.text kind) = some s.parts := by
    rw [htext]
    exact tokenParts_signed s
  refine ⟨s.parts, s.parts, ⟨_, s.signature, hheader, hbearer, ?_, ?_, ?_⟩, hparts, rfl⟩
  · rw [htoken]
    exact hparts
  · exact decodeBase64_encodeUrlSafe _
  · exact hpaired _ _ (s.sign_of_key rfl)

end Runs

/-! ## 5. A login on the compact platform -/

def compactLogin (username : String) (haccess : (answerHeader username
    AuthConstant.HEAD_AUTHORIZATION).isSome = true) (hrefresh : (answerHeader username
    AuthConstant.HEAD_REFRESH_T).isSome = true) : Login compactKeyStore where
  clock := morningLogin
  response := .empty
  no_token := rfl
  authentication := adminLogin username
  made := ⟨some username, rfl⟩
  text
    | .access => (answerHeader username AuthConstant.HEAD_AUTHORIZATION).get haccess
    | .refresh => (answerHeader username AuthConstant.HEAD_REFRESH_T).get hrefresh
  access_eq := (Option.some_get haccess).symm
  refresh_eq := (Option.some_get hrefresh).symm

def aliceLogin : Login compactKeyStore := compactLogin "alice" rfl rfl

/-- A request with a token of the login, and a chain that does nothing. -/
def aliceRequest (kind : TokenKind) (time : ℕ) : Request :=
  ⟨time, aliceLogin.bearer kind, fun context response => (.ok (), context, response), none, .empty⟩

def aliceRun (kind : TokenKind) (time : ℕ) : List (Event compactKeyStore) :=
  [.request (aliceRequest kind time), .login aliceLogin]

theorem run_aliceRun (kind : TokenKind) {time : ℕ} (h : 1700000000003 ≤ time) :
    Run (server compactKeyStore (show UInt8 from 7)) (aliceRun kind time) := by
  refine Run.cons (Run.cons Run.nil ?_ trivial) ?_ ?_
  · exact fun _ h => nomatch h
  · rintro _ ⟨⟩
    exact h
  · exact unforged_bearer (List.mem_singleton_self _) rfl

end UtilsRepo.Auth
