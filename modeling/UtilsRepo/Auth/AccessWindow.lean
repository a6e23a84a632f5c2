import UtilsRepo.Auth.LoginRequired

/-!
# The access window

The refresh token is made like the access token and only lives longer, and the filter cannot tell
them apart.  Requests stay within half an hour of an access token as long as nobody sends a refresh
token later than that.
-/

namespace UtilsRepo.Auth

open Jwt TimedRun

variable {p : Platform}

/-- A request opens the filter with a refresh token after the access token made with it has
expired. -/
def StaleRefresh {keyStore : KeyStore p} (publicKey : p.PublicKey) (past : List (Event keyStore))
    (r : Request) : Prop :=
  ∃ l : Login keyStore, Event.login l ∈ past ∧ Opens publicKey r l .refresh ∧
    l.clock.access.base / 1000 + 1800 < r.time / 1000

/-- The user had an access token made at most half an hour before, to the second. -/
def InAccessWindow {keyStore : KeyStore p} (past : List (Event keyStore)) (user : String)
    (time : ℕ) : Prop :=
  ∃ l : Login keyStore, Event.login l ∈ past ∧ l.userDetail.username = some user ∧
    l.clock.access.base ≤ time ∧ time / 1000 ≤ l.clock.access.base / 1000 + 1800

/-- Whoever a request invoked the chain as had an access token in time. -/
def InvokedInWindow {keyStore : KeyStore p} (past : List (Event keyStore)) (r : Request) : Prop :=
  ∀ context ∈ (r.handled keyStore).invoked,
    ∃ (authentication : Authentication) (user : String), context = some authentication ∧
      authentication.principal = some user ∧ InAccessWindow past user r.time

section Window

variable {publicKey : p.PublicKey} {privateKey : p.PrivateKey}

/-- Every token of a user opens the filter within the access window, a stale refresh token apart. -/
theorem inAccessWindow_of_opens {keyStore : KeyStore p}
    {past : List (Event keyStore)} {r : Request}
    (hrun : Run (server keyStore publicKey) (Event.request r :: past))
    (hfresh : ¬ StaleRefresh publicKey past r) {l : Login keyStore} {kind : TokenKind}
    (hlogin : Event.login l ∈ past) (hopens : Opens publicKey r l kind) {user : String}
    (huser : l.userDetail.username = some user) : InAccessWindow past user r.time := by
  have hfinish : (Event.login l).finish ≤ r.time := Run.finish_le_start hrun hlogin
  have hstart := (Event.start_le_finish (Event.login l)).trans hfinish
  refine ⟨l, hlogin, huser, hstart, ?_⟩
  cases kind with
  | access => exact ((alive_access_iff _ _).mp hopens.alive).2
  | refresh => exact Nat.le_of_not_lt fun hlate => hfresh ⟨l, hlogin, hopens, hlate⟩

/-- A stale refresh token does open the filter. -/
theorem invoked_of_staleRefresh
    {past : List (Event (KeyStore.ofPair publicKey privateKey))} {r : Request}
    (h : StaleRefresh publicKey past r) :
    ∃ authentication l, Event.login l ∈ past ∧
      (r.handled (KeyStore.ofPair publicKey privateKey)).invoked = [some authentication] ∧
      authentication.principal = l.userDetail.username := by
  obtain ⟨l, hlogin, hopens, -⟩ := h
  obtain ⟨authentication, hnew⟩ := l.grant
  have hadmits := (admits_iff_of_carries (convertToPublicKey_ofPair publicKey privateKey)
    hopens.carries authentication).mpr ⟨hopens, hnew⟩
  exact ⟨authentication, l, hlogin, handle_admitted hadmits _ _, (JwtAccessToken.new_ok hnew).1⟩

/-- Without stale refresh tokens the access window is kept. -/
theorem invoked_in_window {run : List (Event (KeyStore.ofPair publicKey privateKey))}
    (hrun : Run (server (KeyStore.ofPair publicKey privateKey) publicKey) run)
    (hfresh : ∀ r past, Event.request r :: past <:+ run → ¬ StaleRefresh publicKey past r)
    {past : List (Event (KeyStore.ofPair publicKey privateKey))} {r : Request}
    (hplace : Event.request r :: past <:+ run) : InvokedInWindow past r := by
  intro context hcontext
  have hrequest := hrun.of_suffix hplace
  rcases handled_cases (convertToPublicKey_ofPair publicKey privateKey) hrequest.guard_last with
    ⟨authentication, l, kind, hinvoked, hlogin, hopens, hprincipal, -⟩ | ⟨hnil, -⟩
  · rw [hinvoked, List.mem_singleton] at hcontext
    obtain ⟨user, _, huser, -, -⟩ := detailToken_signed (l.detailToken_eq kind)
    exact ⟨authentication, user, hcontext, hprincipal.trans huser,
      inAccessWindow_of_opens hrequest (hfresh r past hplace) hlogin hopens huser⟩
  · rw [hnil] at hcontext
    cases hcontext

end Window

/-! ## An access token in its window and a refresh token beyond it -/

theorem invoked_in_window_alice :
    InvokedInWindow [Event.login aliceLogin] (aliceRequest .access 1700000001000) := by
  refine invoked_in_window (run_aliceRun .access (by decide)) ?_ List.suffix_rfl
  intro r past hplace
  -- the only request is well within the window
  obtain heq | hsuffix := List.suffix_cons_iff.mp hplace
  · cases heq
    rintro ⟨l, hl, -, hlate⟩
    cases List.mem_singleton.mp hl
    exact absurd hlate (by decide)
  · obtain heq | hsuffix := List.suffix_cons_iff.mp hsuffix
    · cases heq
    · cases List.suffix_nil.mp hsuffix

theorem opens_refresh_alice :
    Opens (show compactPlatform.PublicKey from (7 : UInt8)) (aliceRequest .refresh 1700001801000)
      aliceLogin .refresh where
  carries := carries_bearer (compactPlatform_paired 7) aliceLogin rfl
  alive := ⟨by decide, by decide⟩
  not_reserved := by
    rintro _ ⟨⟩
    decide

/-- Half an hour and a second after the login the refresh token authenticates its user. -/
theorem refresh_token_beyond_window :
    Run (server compactKeyStore (show UInt8 from 7)) (aliceRun .refresh 1700001801000) ∧
      ∃ authentication : Authentication,
        ((aliceRequest .refresh 1700001801000).handled compactKeyStore).invoked =
            [some authentication] ∧
          authentication.principal = some "alice" ∧
          ¬ InAccessWindow [Event.login aliceLogin] "alice" 1700001801000 := by
  have hmem : Event.login aliceLogin ∈ [Event.login aliceLogin] := List.mem_singleton_self _
  obtain ⟨authentication, l, hl, hinvoked, hprincipal⟩ :=
    invoked_of_staleRefresh ⟨aliceLogin, hmem, opens_refresh_alice, by decide⟩
  cases List.mem_singleton.mp hl
  refine ⟨run_aliceRun .refresh (by decide), authentication, hinvoked, hprincipal, ?_⟩
  rintro ⟨l, hl, -, -, hwindow⟩
  cases List.mem_singleton.mp hl
  exact absurd hwindow (by decide)

end UtilsRepo.Auth
