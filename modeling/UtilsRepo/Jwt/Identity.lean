import UtilsRepo.Jwt.CreateVerify

/-!
# Which identities a claims-based token passes for

A field that is `null` in the verifier's claims is not checked, every other one has to be the
token's, as long as the custom claims of the token do not name an identity themselves.
-/

namespace UtilsRepo.Jwt

open Builder

variable {p : Platform}

def identityNames : List String := ["sub", "jti", "iss"]

/-- The custom claims give no text to an identity name. -/
def NoCustomIdentity (claims : JwtCustomClaim) : Prop :=
  ∀ e ∈ customEntries claims.customStringClaim, ∀ n ∈ identityNames, e.1 = some n → e.2 = none

theorem typed_of_getString {clock : TokenClock} {claims : JwtCustomClaim} {b : Builder}
    {algorithm : Algorithm p} {token : String} (hb : claimsBuilder clock claims = .ok b)
    (s : Signed b algorithm token) (hcustom : NoCustomIdentity claims) {k : String}
    (hk : k ∈ identityNames) {field : Option String}
    (hfield : fixedClaim clock claims k = (written field).map .string) {t : String}
    (h : getString p s.payload k = some t) : field = some t := by
  have hnames : k ≠ "nbf" ∧ k ≠ claimKey ∧ k ≠ "roles" :=
    (by decide : ∀ k ∈ identityNames, k ≠ "nbf" ∧ k ≠ claimKey ∧ k ≠ "roles") k hk
  have hlookup : s.payload.lookup k = none ∨ s.payload.lookup k = (written field).map .str := by
    rw [s.lookup_payload, lookup_claimsBuilder hb, if_neg hnames.1, if_neg hnames.2.1,
      if_neg hnames.2.2, hfield]
    unfold freeClaim
    split
    · next value hvalue =>
      have hnone : value = none := hcustom _ (List.of_mem_dlookup hvalue) k hk rfl
      exact Or.inl (by rw [hnone]; rfl)
    · right
      cases written field <;> rfl
  obtain hnone | hsome := hlookup
  · rw [getString, hnone] at h
    cases h
  · rw [getString_str hsome] at h
    exact (written_eq_some_iff.mp h).1

theorem accepts_of_verify {b : Builder} {algorithm : Algorithm p} {token : String}
    (s : Signed b algorithm token) {now : ℕ} {claims : JwtCustomClaim}
    {publicKey : Option p.PublicKey}
    (h : (verifyTokenByRSA256 p now (encodeToString token) claims publicKey).error = false) :
    ∃ payload, deserialize p s.payload = .ok payload ∧ Accepts claims now payload := by
  cases publicKey with
  | none => cases h
  | some key =>
    change (verifiedToken (encodeToString token) now
      (.ok (claimsVerifier (⟨some key, none⟩ : Algorithm p) claims))).error = false at h
    rw [verifiedToken_success_iff, verify_signed_iff s] at h
    obtain ⟨payload, hd, -, hmeets⟩ := h
    exact ⟨payload, hd, meets_claimsVerifier_iff.mp hmeets⟩

/-- Every field the verifier gives is the creator's. -/
theorem verified_identity_eq (clock : TokenClock) (c₁ c₂ : JwtCustomClaim) (keyPair : RSAKeyPair p)
    (hcustom : NoCustomIdentity c₁) {text : String} {message : Option String}
    (hcreate : createTokenByRSA256 p clock c₁ keyPair = ⟨some text, message, false⟩) {now : ℕ}
    (hverify : (verifyTokenByRSA256 p now text c₂ keyPair.publicKeyOrigin).error = false) :
    (c₂.subject = none ∨ c₂.subject = c₁.subject) ∧ (c₂.tid = none ∨ c₂.tid = c₁.tid) ∧
      (c₂.issuer = none ∨ c₂.issuer = c₁.issuer) := by
  obtain ⟨b, token, hb, ⟨s⟩, heq⟩ := signedToken_of_not_error
    (show (createTokenByRSA256 p clock c₁ keyPair).error = false by rw [hcreate])
  obtain rfl : text = encodeToString token :=
    Option.some.inj (congrArg Token.token (hcreate.symm.trans heq))
  obtain ⟨payload, hd, haccepts⟩ := accepts_of_verify s hverify
  obtain ⟨-, hissuer, hsubject, hid, -⟩ := deserialize_ok hd
  have hor : ∀ {asked given : Option String}, (∀ t, asked = some t → given = some t) →
      asked = none ∨ asked = given := by
    rintro (_ | t) given h
    · exact Or.inl rfl
    · exact Or.inr (h t rfl).symm
  refine ⟨hor fun t ht => ?_, hor fun t ht => ?_, hor fun t ht => ?_⟩
  · exact typed_of_getString hb s hcustom (k := "sub") (by decide) rfl
      (hsubject.symm.trans (haccepts.subject t ht))
  · exact typed_of_getString hb s hcustom (k := "jti") (by decide) rfl
      (hid.symm.trans (haccepts.id t ht))
  · exact typed_of_getString hb s hcustom (k := "iss") (by decide) rfl
      (hissuer.symm.trans (haccepts.issuer t ht))

def alice : JwtCustomClaim := (ClaimBuilder.new (some "t1") (some "alice") (some "center")).build

/-- The claims of any subject with this id and issuer. -/
def anySubject : JwtCustomClaim := (ClaimBuilder.new (some "t1") none (some "center")).build

theorem creatable_alice : Creatable alice :=
  ⟨(fun _ h => nomatch h), (fun _ h => nomatch h), (fun _ h => nomatch h)⟩

theorem alice_verifies_as_anySubject :
    ∃ text, createTokenByRSA256 compactPlatform morning alice compactKeyPair =
        ⟨some text, some "create success", false⟩ ∧
      (verifyTokenByRSA256 compactPlatform 1700000000001 text anySubject
        compactKeyPair.publicKeyOrigin).error = false := by
  have hcreate := create_of_creatable morning compactKeyPair_valid creatable_alice
  have hend : (1700000000001 : ℕ) ≤ expiresAtOf morning alice := by decide
  have hfree : CustomNamesFree alice := fun _ h => nomatch h
  obtain ⟨text, htext, hiff⟩ := verify_other_iff anySubject compactKeyPair_valid hfree
    (fun _ h => nomatch h) rfl hcreate (Nat.le_refl _) hend
  refine ⟨text, htext, hiff.mpr ⟨(fun _ h => nomatch h), ?_, ?_⟩⟩
  · rintro _ ⟨⟩
    decide
  · rintro _ ⟨⟩
    decide

theorem verified_identity_eq_alice :
    (anySubject.subject = none ∨ anySubject.subject = alice.subject) ∧
      (anySubject.tid = none ∨ anySubject.tid = alice.tid) ∧
      (anySubject.issuer = none ∨ anySubject.issuer = alice.issuer) := by
  obtain ⟨text, hcreate, hverify⟩ := alice_verifies_as_anySubject
  exact verified_identity_eq morning alice anySubject compactKeyPair (fun _ h => nomatch h) hcreate
    hverify

theorem anySubject_accepts_alice :
    ∃ text, createTokenByRSA256 compactPlatform morning alice compactKeyPair =
        ⟨some text, some "create success", false⟩ ∧
      (verifyTokenByRSA256 compactPlatform 1700000000001 text anySubject
        compactKeyPair.publicKeyOrigin).error = false ∧ alice.subject ≠ anySubject.subject := by
  obtain ⟨text, hcreate, hverify⟩ := alice_verifies_as_anySubject
  exact ⟨text, hcreate, hverify, by decide⟩

end UtilsRepo.Jwt
