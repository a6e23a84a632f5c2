import UtilsRepo.Auth.ServerRun

/-!
# No authentication without a login

In every run of the server the filter chain is invoked only as a user who logged in before, at most
a week after the token of that login was made; a request that is refused leaves no trace.
-/

namespace UtilsRepo.Auth

open Jwt TimedRun

variable {p : Platform} {publicKey : p.PublicKey} {privateKey : p.PrivateKey}

/-- Both lifetimes are within a week. -/
theorem seconds_of_alive {clock : TokenClock} {kind : TokenKind} {now : ℕ}
    (h : Alive clock kind.seconds now) :
    clock.base / 1000 ≤ now / 1000 ∧ now / 1000 ≤ clock.base / 1000 + 604800 := by
  have hbase := clock.base_le
  have hpos : 0 < kind.seconds.toInt ∧ kind.seconds.toInt ≤ 604800 := by
    cases kind <;> decide
  have hseconds := (alive_iff clock hpos.1 now).mp h
  omega

/-- The context is the authentication of a user who logged in before, with the authorities of that
login, at most a week after its token was made. -/
def LoggedInBefore {keyStore : KeyStore p} (past : List (Event keyStore)) (time : ℕ)
    (context : Option Authentication) : Prop :=
  ∃ (authentication : Authentication) (user : String) (l : Login keyStore) (kind : TokenKind),
    context = some authentication ∧ Event.login l ∈ past ∧
      authentication.principal = some user ∧ l.userDetail.username = some user ∧
      authentication.authorities.map some = l.userDetail.authorities.getD [] ∧
      (l.clock.of kind).base / 1000 ≤ time / 1000 ∧
      time / 1000 ≤ (l.clock.of kind).base / 1000 + 604800

/-- Whoever the chain is invoked as has logged in before; a refused request leaves no trace. -/
theorem login_before_invoked {run : List (Event (KeyStore.ofPair publicKey privateKey))}
    (hrun : Run (server (KeyStore.ofPair publicKey privateKey) publicKey) run)
    {past : List (Event (KeyStore.ofPair publicKey privateKey))} {r : Request}
    (hplace : Event.request r :: past <:+ run) :
    (∀ context ∈ (r.handled (KeyStore.ofPair publicKey privateKey)).invoked,
      LoggedInBefore past r.time context) ∧
      (Refused (KeyStore.ofPair publicKey privateKey) r.time r.header →
        (r.handled (KeyStore.ofPair publicKey privateKey)).invoked = [] ∧
          (r.handled (KeyStore.ofPair publicKey privateKey)).context = r.context) := by
  have hunforged := Run.guard_last (hrun.of_suffix hplace)
  constructor
  · intro context hcontext
    rcases handled_cases (convertToPublicKey_ofPair publicKey privateKey) hunforged with
      ⟨authentication, l, kind, hinvoked, hlogin, hopens, hprincipal, hauthorities⟩ | ⟨hnil, -⟩
    · rw [hinvoked, List.mem_singleton] at hcontext
      obtain ⟨user, _, huser, -, -⟩ := detailToken_signed (l.detailToken_eq kind)
      exact ⟨authentication, user, l, kind, hcontext, hlogin, hprincipal.trans huser, huser,
        hauthorities, seconds_of_alive hopens.alive⟩
    · rw [hnil] at hcontext
      cases hcontext
  · intro hrefused
    exact handle_not_admitted (not_admits_of_refused hrefused) _ _

theorem login_before_invoked_alice :
    (∀ context ∈ ((aliceRequest .access 1700000001000).handled compactKeyStore).invoked,
      LoggedInBefore [.login aliceLogin] 1700000001000 context) ∧
      (Refused compactKeyStore 1700000001000 (aliceLogin.bearer .access) →
        ((aliceRequest .access 1700000001000).handled compactKeyStore).invoked = [] ∧
          ((aliceRequest .access 1700000001000).handled compactKeyStore).context = none) :=
  login_before_invoked (run_aliceRun .access (by decide)) List.suffix_rfl

end UtilsRepo.Auth
