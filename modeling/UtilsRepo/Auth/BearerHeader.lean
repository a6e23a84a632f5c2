import UtilsRepo.Auth.LoginUsable

/-!
# The bearer header

The filter asks for the prefix at the start of the header but removes it wherever it occurs, so the
text it verifies is the rest of the header only if the prefix does not occur in there again.
-/

namespace UtilsRepo.Auth

open Jwt Fallible

variable {p : Platform} {keyStore : KeyStore p} {now : ℕ}

/-! ## 1. The token of a header -/

def Accepted (keyStore : KeyStore p) (now : ℕ) (token : String) : Prop :=
  (verifyTokenByText p now token keyStore.publicKey).error = false

instance (token : String) : Decidable (Accepted keyStore now token) :=
  inferInstanceAs (Decidable (_ = _))

/-- The text that is verified, if the header gets that far and the text is accepted. -/
def credential (keyStore : KeyStore p) (now : ℕ) : Option String → Option String
  | none => none
  | some header =>
      if hasBearer header ∧ Accepted keyStore now (bearerToken header) then
        some (bearerToken header)
      else none

theorem credential_eq_some_iff {header : Option String} {token : String} :
    credential keyStore now header = some token ↔
      ∃ h, header = some h ∧ hasBearer h = true ∧ bearerToken h = token ∧
        Accepted keyStore now token := by
  cases header with
  | none => exact iff_of_false (fun h => nomatch h) (fun ⟨_, h, _⟩ => nomatch h)
  | some header =>
    simp only [credential, Option.ite_none_right_eq_some, Option.some.injEq, exists_eq_left']
    constructor
    · rintro ⟨⟨hbearer, haccepted⟩, rfl⟩
      exact ⟨hbearer, rfl, haccepted⟩
    · rintro ⟨hbearer, rfl, haccepted⟩
      exact ⟨⟨hbearer, haccepted⟩, rfl⟩

/-- With a credential the filter goes on with exactly that token. -/
theorem filtered_of_credential {header : Option String} {token : String}
    (h : credential keyStore now header = some token) (chain : FilterChain) :
    filtered keyStore now chain header = (do
      let accessToken ← Fallible.ofExcept (requestAuthentication p token)
      setAuthentication accessToken
      doFilter chain) := by
  obtain ⟨header, rfl, hbearer, rfl, haccepted⟩ := credential_eq_some_iff.mp h
  have hverified : (verifyTokenByText p now (bearerToken header) keyStore.publicKey).error = false :=
    haccepted
  rw [filtered, if_pos hbearer, authenticated, if_neg (by simp [hverified])]

theorem filtered_of_no_credential {header : Option String}
    (h : credential keyStore now header = none) (chain : FilterChain) :
    filtered keyStore now chain header = respond p .forbidden AuthConstant.MSG_NO_ACCESS := by
  cases header with
  | none => rfl
  | some header =>
    have hnot : ¬ (hasBearer header ∧ Accepted keyStore now (bearerToken header)) := by
      intro hboth
      rw [credential, if_pos hboth] at h
      cases h
    unfold filtered authenticated
    dsimp only
    split_ifs with hbearer herror
    · rfl
    · exact absurd ⟨hbearer, by simpa [Accepted] using herror⟩ hnot
    · rfl

/-! ## 2. The grammar -/

/-- The prefix in front makes a header that is not blank. -/
theorem hasBearer_iff {header : String} :
    hasBearer header = true ↔ ∃ token, header = AuthConstant.PREFIX_BEARER ++ token := by
  unfold hasBearer
  simp only [Bool.and_eq_true, Bool.not_eq_true', List.isEmpty_eq_false_iff,
    List.isPrefixOf_iff_prefix]
  constructor
  · rintro ⟨-, rest, hrest⟩
    refine ⟨String.ofList rest, ?_⟩
    apply String.toList_inj.mp
    rw [String.toList_append, String.toList_ofList, hrest]
  · rintro ⟨token, rfl⟩
    rw [String.toList_append]
    refine ⟨?_, List.prefix_append _ _⟩
    apply trim_ne_nil_iff.mpr
    exact ⟨'B', by simp [AuthConstant.PREFIX_BEARER], by decide⟩

theorem bearerToken_bearer (header : String) :
    bearerToken (AuthConstant.PREFIX_BEARER ++ header) = bearerToken header := by
  rw [bearerToken, String.toList_append,
    Scan.deleteMatches_literal_append (by decide : AuthConstant.PREFIX_BEARER.toList ≠ [])]
  rfl

theorem bearerToken_eq_iff {token : String} :
    bearerToken (AuthConstant.PREFIX_BEARER ++ token) = token ↔
      ¬ AuthConstant.PREFIX_BEARER.toList <:+: token.toList := by
  rw [bearerToken_bearer, bearerToken,
    ← Scan.deleteMatches_literal_eq_self_iff (by decide : AuthConstant.PREFIX_BEARER.toList ≠ [])]
  constructor
  · intro h
    have hlist := congrArg String.toList h
    rwa [String.toList_ofList] at hlist
  · intro h
    rw [h, String.ofList_toList]

/-- A header is taken as its grammar says: the prefix, and behind it the token that is verified. -/
structure ParsedByGrammar (keyStore : KeyStore p) (now : ℕ) (header : Option String) : Prop where
  credential_iff : ∀ token, credential keyStore now header = some token ↔
    header = some (AuthConstant.PREFIX_BEARER ++ token) ∧ Accepted keyStore now token
  verified_eq : ∀ h, header = some h → hasBearer h = true →
    bearerToken h = String.ofList (h.toList.drop 7)

/-- The grammar is followed exactly where the prefix does not occur behind itself. -/
theorem parsedByGrammar_iff (keyStore : KeyStore p) (now : ℕ) (header : Option String) :
    ParsedByGrammar keyStore now header ↔
      ∀ token, header = some (AuthConstant.PREFIX_BEARER ++ token) →
        ¬ AuthConstant.PREFIX_BEARER.toList <:+: token.toList := by
  have hdrop : ∀ token : String,
      String.ofList ((AuthConstant.PREFIX_BEARER ++ token).toList.drop 7) = token := by
    intro token
    rw [String.toList_append, show (7 : ℕ) = AuthConstant.PREFIX_BEARER.toList.length from rfl,
      List.drop_left, String.ofList_toList]
  constructor
  · intro h token htoken
    apply bearerToken_eq_iff.mp
    have hverified := h.verified_eq _ htoken (hasBearer_iff.mpr ⟨token, rfl⟩)
    exact hverified.trans (hdrop token)
  · intro h
    constructor
    · intro token
      rw [credential_eq_some_iff]
      constructor
      · rintro ⟨header, rfl, hbearer, htoken, haccepted⟩
        obtain ⟨rest, rfl⟩ := hasBearer_iff.mp hbearer
        rw [bearerToken_eq_iff.mpr (h rest rfl)] at htoken
        exact ⟨by rw [htoken], haccepted⟩
      · rintro ⟨rfl, haccepted⟩
        exact ⟨_, rfl, hasBearer_iff.mpr ⟨token, rfl⟩, bearerToken_eq_iff.mpr (h token rfl),
          haccepted⟩
    · rintro header rfl hbearer
      obtain ⟨token, rfl⟩ := hasBearer_iff.mp hbearer
      rw [hdrop, bearerToken_eq_iff]
      exact h token rfl

/-! ## 3. Headers outside the grammar -/

/-- A prefix in front of a header changes nothing, however often it is repeated. -/
theorem credential_repeated {header : String} (h : hasBearer header = true) :
    credential keyStore now (some (AuthConstant.PREFIX_BEARER ++ header)) =
      credential keyStore now (some header) := by
  simp only [credential, bearerToken_bearer, h, hasBearer_iff.mpr ⟨header, rfl⟩]

theorem credential_own {publicKey : p.PublicKey} {privateKey : p.PrivateKey}
    (hpaired : p.Paired privateKey publicKey) {clock : TokenClock} {d : JwtUserDetail}
    {user text : String} {message : Option String} (huser : d.username = some user)
    {seconds : Int32}
    (h : detailToken (KeyStore.ofPair publicKey privateKey) clock d seconds =
      ⟨some text, message, false⟩) {authentication : Authentication}
    (hadmits : user ∉ reservedNames ∧ Alive clock seconds now ∧
      JwtAccessToken.new (some user) (some "") d.authorities = .ok authentication) :
    credential (KeyStore.ofPair publicKey privateKey) now
      (some (AuthConstant.PREFIX_BEARER ++ text)) = some text := by
  obtain ⟨_, ⟨⟩, hbearer, haccepted, -⟩ := (admits_own_iff hpaired huser h now authentication).mpr
    hadmits
  obtain ⟨-, token, -, rfl, -⟩ := detailToken_signed h
  have htoken := (bearerToken_append (blank_not_mem_encodeToString token)).2
  rw [htoken] at haccepted
  exact credential_eq_some_iff.mpr ⟨_, rfl, hbearer, htoken, haccepted⟩

/-- With the prefix twice, alice's access token gets through all the same. -/
theorem bearer_bearer_accepted :
    ∃ text, answerHeader "alice" AuthConstant.HEAD_AUTHORIZATION = some text ∧
      credential compactKeyStore 1700000000002 (some ("Bearer Bearer " ++ text)) = some text ∧
      ¬ ParsedByGrammar compactKeyStore 1700000000002 (some ("Bearer Bearer " ++ text)) := by
  obtain ⟨text, htext⟩ := Option.isSome_iff_exists.mp
    (show (answerHeader "alice" AuthConstant.HEAD_AUTHORIZATION).isSome from rfl)
  obtain ⟨htoken, -⟩ := headers_onAuthenticationSuccess rfl htext
  have hown : credential compactKeyStore 1700000000002 (some (AuthConstant.PREFIX_BEARER ++ text)) =
      some text :=
    credential_own (compactPlatform_paired 7) rfl htoken
      ⟨by decide, (alive_access_iff morning _).mpr (by decide), rfl⟩
  have hdouble : credential compactKeyStore 1700000000002 (some ("Bearer Bearer " ++ text)) =
      some text := by
    rw [show "Bearer Bearer " ++ text =
      AuthConstant.PREFIX_BEARER ++ (AuthConstant.PREFIX_BEARER ++ text) by
        rw [← String.append_assoc]; rfl]
    rw [credential_repeated (hasBearer_iff.mpr ⟨text, rfl⟩)]
    exact hown
  refine ⟨text, htext, hdouble, fun hgrammar => ?_⟩
  obtain ⟨hheader, -⟩ := (hgrammar.credential_iff text).mp hdouble
  -- the two headers differ in length
  have hlength := congrArg String.length (Option.some.inj hheader)
  rw [String.length_append, String.length_append] at hlength
  exact absurd (Nat.add_right_cancel hlength) (by decide)

end UtilsRepo.Auth
