import UtilsRepo.Jwt.WrittenClaims

/-!
# What a verifier accepts

A verifier accepts a signed token when its key accepts the signature and every requirement holds of
the payload; for the two verifiers of `JwtUtil` the requirements are spelled out.
-/

namespace UtilsRepo.Jwt

open Builder

variable {p : Platform}

/-! ## 1. Requirements -/

namespace Verification

theorem lookup_requireClaim (v : Verification p) (name : String) (value : Option Requirement)
    (k : String) :
    (v.requireClaim name value).claims.lookup k =
      if k = name then value else v.claims.lookup k := by
  have hwrite : (v.requireClaim name value).claims = MapWrites.write v.claims name value := by
    cases value <;> rfl
  rw [hwrite, MapWrites.lookup_write]

theorem lookup_addLeeway (v : Verification p) (name k : String) :
    (v.addLeeway name).claims.lookup k =
      if k = name then (v.claims.lookup k).or (some (.leeway 0)) else v.claims.lookup k := by
  unfold addLeeway
  split_ifs with hmem hk hk
  · subst hk
    obtain ⟨r, hr⟩ := Option.isSome_iff_exists.mp (AList.lookup_isSome.mpr hmem)
    rw [hr]
    rfl
  · rfl
  · subst hk
    rw [lookup_requireClaim, if_pos rfl, AList.lookup_eq_none.mpr hmem, Option.none_or]
  · rw [lookup_requireClaim, if_neg hk]

@[simp] theorem algorithm_requireClaim (v : Verification p) (name : String)
    (value : Option Requirement) : (v.requireClaim name value).algorithm = v.algorithm := by
  cases value <;> rfl

@[simp] theorem algorithm_addLeeway (v : Verification p) (name : String) :
    (v.addLeeway name).algorithm = v.algorithm := by
  unfold addLeeway
  split_ifs
  · rfl
  · exact algorithm_requireClaim v name _

theorem mem_entrySet {v : Verification p} {e : Σ _ : String, Requirement} :
    e ∈ v.entrySet ↔ v.claims.lookup e.1 = some e.2 := by
  rw [entrySet, List.mem_insertionSort]
  exact (@AList.mem_lookup_iff String (fun _ => Requirement) _ e.1 e.2 v.claims).symm

end Verification

/-- Every requirement of a verifier holds of a payload at a time. -/
def Meets (v : Verification p) (now : ℕ) (payload : Payload) : Prop :=
  ∀ name r, v.claims.lookup name = some r → verifyClaim p now payload ⟨name, r⟩ = .ok ()

theorem verifyClaims_ok_iff {v : Verification p} {now : ℕ} {jwt : DecodedJWT} {payload : Payload}
    (h : jwt.payload = some payload) : verifyClaims v now jwt = .ok () ↔ Meets v now payload := by
  rw [verifyClaims, h]
  change v.entrySet.forM (verifyClaim p now payload) = .ok () ↔ _
  rw [Fallible.except_forM_ok_iff]
  simp only [Verification.mem_entrySet]
  exact ⟨fun hall name r hr => hall ⟨name, r⟩ hr, fun hall e he => hall e.1 e.2 he⟩

/-! ## 2. Signed tokens -/

theorem verifySignature_ok_iff {algorithm : Algorithm p} {jwt : DecodedJWT} :
    verifySignature algorithm jwt = .ok () ↔
      ∃ signature, decodeBase64 jwt.parts.signature = .ok signature ∧
        algorithm.publicKey.any (fun key => p.verify key
          (signedContent jwt.parts.header jwt.parts.payload) signature) = true := by
  unfold verifySignature
  cases decodeBase64 jwt.parts.signature with
  | error e => exact iff_of_false (fun h => nomatch h) (fun ⟨_, h, _⟩ => nomatch h)
  | ok signature =>
    simp only [Except.ok.injEq, exists_eq_left']
    exact Fallible.except_require_ok_iff

theorem verify_ok_iff {v : Verification p} {now : ℕ} {token : String} {jwt : DecodedJWT} :
    v.verify now token = .ok jwt ↔
      decode p token = .ok jwt ∧ verifyAlgorithm jwt = .ok () ∧
        verifySignature v.algorithm jwt = .ok () ∧ verifyClaims v now jwt = .ok () := by
  unfold Verification.verify
  rw [Fallible.except_bind_ok_iff]
  simp only [Fallible.except_check_ok_iff]
  constructor
  · rintro ⟨jwt, hdecode, halgorithm, hsignature, hclaims, ⟨⟩⟩
    exact ⟨hdecode, halgorithm, hsignature, hclaims⟩
  · rintro ⟨hdecode, halgorithm, hsignature, hclaims⟩
    exact ⟨jwt, hdecode, halgorithm, hsignature, hclaims, rfl⟩

/-- A verifier accepts a text with the header and payload of a signed token at a time. -/
theorem verify_presents_iff {b : Builder} {algorithm : Algorithm p} {token text : String}
    {s : Signed b algorithm token} {parts : Parts} (h : Presents s text parts)
    (v : Verification p) (now : ℕ) :
    (∃ jwt, v.verify now text = .ok jwt) ↔
      ∃ payload signature, deserialize p s.payload = .ok payload ∧
        decodeBase64 parts.signature = .ok signature ∧
        v.algorithm.publicKey.any (fun key => p.verify key
          (signedContent (writePart p s.header) (writePart p s.payload)) signature) = true ∧
        Meets v now payload := by
  simp only [verify_ok_iff, h.decode_eq]
  cases hd : deserialize p s.payload with
  | error e => exact iff_of_false (fun ⟨_, h, _⟩ => nomatch h) (fun ⟨_, _, h, _⟩ => nomatch h)
  | ok payload =>
    simp only [Except.map, Except.ok.injEq, exists_eq_left', ← h.header_eq, ← h.payload_eq,
      verifySignature_ok_iff]
    rw [verifyClaims_ok_iff rfl]
    constructor
    · rintro ⟨-, ⟨signature, hsignature, hverify⟩, hmeets⟩
      exact ⟨payload, signature, rfl, hsignature, hverify, hmeets⟩
    · rintro ⟨_, signature, rfl, hsignature, hverify, hmeets⟩
      exact ⟨rfl, ⟨signature, hsignature, hverify⟩, hmeets⟩

theorem verify_signed_iff {b : Builder} {algorithm : Algorithm p} {token : String}
    (s : Signed b algorithm token) (v : Verification p) (now : ℕ) :
    (∃ jwt, v.verify now token = .ok jwt) ↔
      ∃ payload, deserialize p s.payload = .ok payload ∧
        v.algorithm.publicKey.any (fun key => p.verify key
          (signedContent (writePart p s.header) (writePart p s.payload)) s.signature) = true ∧
        Meets v now payload := by
  rw [verify_presents_iff s.presents]
  simp only [Signed.parts, decodeBase64_encodeUrlSafe, Except.ok.injEq, exists_and_left,
    exists_eq_left']

theorem verifiedToken_not_error_iff {text : String} {now : ℕ} {v : Verification p} :
    (verifiedToken text now (.ok v)).error = false ↔
      ∃ token, decodeToString p text = .ok token ∧ ∃ jwt, v.verify now token = .ok jwt := by
  unfold verifiedToken
  simp only [bind, Except.bind]
  cases decodeToString p text with
  | error e => exact iff_of_false (fun h => nomatch h) (fun ⟨_, h, _⟩ => nomatch h)
  | ok token =>
    simp only [Except.ok.injEq, exists_eq_left']
    cases v.verify now token with
    | error e => exact iff_of_false (fun h => nomatch h) (fun ⟨_, h⟩ => nomatch h)
    | ok jwt => exact iff_of_true rfl ⟨jwt, rfl⟩

theorem verifiedToken_success_iff {token : String} {now : ℕ} {v : Verification p} :
    (verifiedToken (encodeToString token) now (.ok v)).error = false ↔
      ∃ jwt, v.verify now token = .ok jwt := by
  simp only [verifiedToken_not_error_iff, decodeToString_encodeToString, Except.ok.injEq,
    exists_eq_left']

theorem verifiedToken_eq_of_not_error {token : String} {now : ℕ}
    {verifier : Except JavaException (Verification p)}
    (h : (verifiedToken token now verifier).error = false) :
    verifiedToken token now verifier = ⟨some token, some "verify success", false⟩ := by
  unfold verifiedToken at h ⊢
  dsimp only at h ⊢
  split at h
  · rfl
  · cases h

/-! ## 3. The claims-based verifier -/

/-- What `verifyTokenByRSA256(String, JwtCustomClaim, RSAPublicKey)` asks of a payload. -/
structure Accepts (claims : JwtCustomClaim) (now : ℕ) (payload : Payload) : Prop where
  subject : ∀ s, claims.subject = some s → payload.subject = some s
  id : ∀ s, claims.tid = some s → payload.id = some s
  issuer : ∀ s, claims.issuer = some s → payload.issuer = some s
  salt : payload.claimAsString (some claimKey) = some claimValue
  expiresAt : ∀ d, payload.expiresAt = some d → today now - 1000 ≤ d
  issuedAt : ∀ d, payload.issuedAt = some d → d ≤ today now + 1000
  notBefore : ∀ d, payload.notBefore = some d → d ≤ today now + 180000

theorem lookup_claimsVerifier (algorithm : Algorithm p) (claims : JwtCustomClaim) (k : String) :
    (claimsVerifier algorithm claims).claims.lookup k =
      if k = "nbf" then some (.leeway 180)
      else if k = "iat" then some (.leeway 1)
      else if k = "exp" then some (.leeway 1)
      else if k = claimKey then some (.text claimValue)
      else if k = "iss" then claims.issuer.map fun s => .issuers [some s]
      else if k = "jti" then claims.tid.map .text
      else if k = "sub" then claims.subject.map .text
      else none := by
  -- an issuer that is `null` requires nothing
  have hissuer : (if [claims.issuer].all Option.isNone then none
      else some (Requirement.issuers [claims.issuer])) =
      claims.issuer.map fun s => .issuers [some s] := by
    cases claims.issuer <;> rfl
  have hempty : (∅ : AList fun _ : String => Requirement).lookup k = none := rfl
  simp only [claimsVerifier, Verification.build, Verification.lookup_addLeeway,
    Verification.acceptNotBefore, Verification.acceptIssuedAt, Verification.acceptExpiresAt,
    Verification.withClaim, Verification.withIssuer, Verification.withJWTId,
    Verification.withSubject, Verification.lookup_requireClaim, Verification.require, hissuer,
    hempty, Option.map_some]
  by_cases h₁ : k = "nbf"
  · simp [h₁]
  by_cases h₂ : k = "iat"
  · simp [h₂]
  by_cases h₃ : k = "exp"
  · simp [h₃]
  · simp [h₁, h₂, h₃]

theorem algorithm_claimsVerifier (algorithm : Algorithm p) (claims : JwtCustomClaim) :
    (claimsVerifier algorithm claims).algorithm = algorithm := by
  simp only [claimsVerifier, Verification.build, Verification.algorithm_addLeeway,
    Verification.acceptNotBefore, Verification.acceptIssuedAt, Verification.acceptExpiresAt,
    Verification.withClaim, Verification.withIssuer, Verification.withJWTId,
    Verification.withSubject, Verification.algorithm_requireClaim, Verification.require]

theorem assertDateIsFuture_ok_iff {date : Option ℤ} {leeway : ℤ} {now : ℕ} :
    assertDateIsFuture p date leeway now = .ok () ↔
      ∀ d, date = some d → today now - leeway * 1000 ≤ d := by
  cases date with
  | none => exact iff_of_true rfl (fun _ h => nomatch h)
  | some d =>
    have hcheck : assertDateIsFuture p (some d) leeway now = .ok () ↔
        ¬ today now - leeway * 1000 > d := Fallible.except_refuse_ok_iff
    simp only [hcheck, not_lt, Option.some.injEq, forall_eq']

theorem assertDateIsPast_ok_iff {date : Option ℤ} {leeway : ℤ} {now : ℕ} :
    assertDateIsPast p date leeway now = .ok () ↔
      ∀ d, date = some d → d ≤ today now + leeway * 1000 := by
  cases date with
  | none => exact iff_of_true rfl (fun _ h => nomatch h)
  | some d =>
    have hcheck : assertDateIsPast p (some d) leeway now = .ok () ↔
        ¬ today now + leeway * 1000 < d := Fallible.except_refuse_ok_iff
    simp only [hcheck, not_lt, Option.some.injEq, forall_eq']

theorem assertValidStringClaim_ok_iff {name : String} {value : Option String} {expected : String} :
    assertValidStringClaim name value expected = .ok () ↔ value = some expected :=
  Fallible.except_require_ok_iff

theorem assertValidIssuerClaim_ok_iff {issuer : Option String} {s : String} :
    assertValidIssuerClaim issuer [some s] = .ok () ↔ issuer = some s := by
  unfold assertValidIssuerClaim
  split_ifs with h
  · exact iff_of_true rfl (List.mem_singleton.mp h.2)
  · refine iff_of_false (fun h => nomatch h) ?_
    rintro rfl
    exact h ⟨rfl, List.mem_singleton_self _⟩

theorem meets_claimsVerifier_iff {algorithm : Algorithm p} {claims : JwtCustomClaim} {now : ℕ}
    {payload : Payload} :
    Meets (claimsVerifier algorithm claims) now payload ↔ Accepts claims now payload := by
  constructor
  · intro h
    have hat := fun name r hr => h name r ((lookup_claimsVerifier algorithm claims name).trans hr)
    refine ⟨?_, ?_, ?_, ?_, ?_, ?_, ?_⟩
    · intro s hs
      exact assertValidStringClaim_ok_iff.mp (hat "sub" (.text s) (by simp [hs, claimKey]))
    · intro s hs
      exact assertValidStringClaim_ok_iff.mp (hat "jti" (.text s) (by simp [hs, claimKey]))
    · intro s hs
      exact assertValidIssuerClaim_ok_iff.mp
        (hat "iss" (.issuers [some s]) (by simp [hs, claimKey]))
    · exact assertValidStringClaim_ok_iff.mp
        (hat claimKey (.text claimValue) (by simp [claimKey]))
    · exact assertDateIsFuture_ok_iff.mp (hat "exp" (.leeway 1) (by simp))
    · exact assertDateIsPast_ok_iff.mp (hat "iat" (.leeway 1) (by simp))
    · exact assertDateIsPast_ok_iff.mp (hat "nbf" (.leeway 180) (by simp))
  · intro h name r hr
    rw [lookup_claimsVerifier] at hr
    split_ifs at hr with hnbf hiat hexp hsalt hiss hjti hsub
    · cases hr
      subst hnbf
      exact assertDateIsPast_ok_iff.mpr h.notBefore
    · cases hr
      subst hiat
      exact assertDateIsPast_ok_iff.mpr h.issuedAt
    · cases hr
      subst hexp
      exact assertDateIsFuture_ok_iff.mpr h.expiresAt
    · cases hr
      subst hsalt
      exact assertValidStringClaim_ok_iff.mpr h.salt
    · obtain ⟨s, hs, rfl⟩ := Option.map_eq_some_iff.mp hr
      subst hiss
      exact assertValidIssuerClaim_ok_iff.mpr (h.issuer s hs)
    · obtain ⟨s, hs, rfl⟩ := Option.map_eq_some_iff.mp hr
      subst hjti
      exact assertValidStringClaim_ok_iff.mpr (h.id s hs)
    · obtain ⟨s, hs, rfl⟩ := Option.map_eq_some_iff.mp hr
      subst hsub
      exact assertValidStringClaim_ok_iff.mpr (h.subject s hs)

/-! ## 4. The verifier without requirements -/

theorem lookup_require_build (algorithm : Algorithm p) (k : String) :
    (Verification.require algorithm).build.claims.lookup k =
      if k = "iat" ∨ k = "nbf" ∨ k = "exp" then some (.leeway 0) else none := by
  have hempty : (∅ : AList fun _ : String => Requirement).lookup k = none := rfl
  simp only [Verification.build, Verification.lookup_addLeeway, Verification.require, hempty,
    Option.none_or]
  by_cases h₁ : k = "iat"
  · simp [h₁]
  by_cases h₂ : k = "nbf"
  · simp [h₂]
  · simp [h₁, h₂]

theorem algorithm_require_build (algorithm : Algorithm p) :
    (Verification.require algorithm).build.algorithm = algorithm := by
  simp only [Verification.build, Verification.algorithm_addLeeway, Verification.require]

theorem meets_require_iff {algorithm : Algorithm p} {now : ℕ} {payload : Payload} :
    Meets (Verification.require algorithm).build now payload ↔
      (∀ d, payload.expiresAt = some d → today now ≤ d) ∧
        (∀ d, payload.notBefore = some d → d ≤ today now) ∧
        (∀ d, payload.issuedAt = some d → d ≤ today now) := by
  have hfuture := @assertDateIsFuture_ok_iff p payload.expiresAt 0 now
  have hpast := fun date => @assertDateIsPast_ok_iff p date 0 now
  simp only [Int.zero_mul, Int.sub_zero, Int.add_zero] at hfuture hpast
  rw [← hfuture, ← hpast, ← hpast]
  constructor
  · intro h
    have hat := fun name hr =>
      h name (.leeway 0) ((lookup_require_build algorithm name).trans (if_pos hr))
    exact ⟨hat "exp" (by simp), hat "nbf" (by simp), hat "iat" (by simp)⟩
  · rintro ⟨hexp, hnbf, hiat⟩ name r hr
    rw [lookup_require_build] at hr
    split_ifs at hr with hname
    cases hr
    rcases hname with rfl | rfl | rfl
    · exact hiat
    · exact hnbf
    · exact hexp

/-! ## 5. Reading the payload -/

-- what the code's own dates are written as
def seconds (time : ℤ) : Option Json := some (.int (time.tdiv 1000))

-- a date after the round through whole seconds
def truncated (time : ℤ) : ℤ := time.tdiv 1000 * 1000

def InLong (time : ℤ) : Prop := -2 ^ 63 ≤ time ∧ time < 2 ^ 63

theorem toLong_of_inLong {n : ℤ} (h : InLong n) : toLong n = n := by
  have hrange : -2 ^ 63 ≤ n ∧ n < 2 ^ 63 := h
  apply Int.bmod_eq_of_le <;> omega

theorem inLong_notBefore (clock : TokenClock) : InLong clock.notBefore := by
  have hrange := clock.inRange
  unfold InLong
  omega

theorem truncated_cases (time : ℤ) :
    (0 ≤ time ∧ truncated time = time / 1000 * 1000) ∨
      (time < 0 ∧ truncated time = -(-time / 1000 * 1000)) := by
  unfold truncated
  by_cases h : 0 ≤ time
  · exact Or.inl ⟨h, by rw [Int.tdiv_eq_ediv_of_nonneg h]⟩
  · have hneg : time.tdiv 1000 = -((-time).tdiv 1000) := by rw [Int.neg_tdiv, Int.neg_neg]
    refine Or.inr ⟨by omega, ?_⟩
    rw [hneg, Int.tdiv_eq_ediv_of_nonneg (by omega), Int.neg_mul]

theorem truncated_le_today {time : ℤ} {now : ℕ} (h : time ≤ now) : truncated time ≤ today now := by
  have hcases := truncated_cases time
  unfold today
  omega

theorem today_le_truncated {time : ℤ} {now : ℕ} (h : now ≤ time) : today now ≤ truncated time := by
  have hcases := truncated_cases time
  unfold today
  omega

theorem getDateFromSeconds_seconds {tree : List (String × Json)} {name : String}
    {time : Option ℤ} (h : tree.lookup name = time.bind seconds) (hlong : ∀ t ∈ time, InLong t) :
    getDateFromSeconds p tree name = .ok (time.map truncated) := by
  unfold getDateFromSeconds
  rw [h]
  cases time with
  | none => rfl
  | some time =>
    have hrange : InLong time := hlong time rfl
    unfold InLong at hrange
    -- the product with 1000 is no larger than the date, so it does not overflow
    have hcases := truncated_cases time
    unfold truncated at hcases
    have hseconds : -2 ^ 63 ≤ time.tdiv 1000 ∧ time.tdiv 1000 < 2 ^ 63 := by omega
    have hproduct : toLong (time.tdiv 1000 * 1000) = time.tdiv 1000 * 1000 :=
      toLong_of_inLong ⟨by omega, by omega⟩
    simp only [Option.bind_some, seconds, asLong, if_pos hseconds, hproduct, Option.map_some,
      truncated]

theorem deserialize_dates (tree : List (String × Json)) (exp nbf iat : Option ℤ)
    (haud : ∀ j, tree.lookup "aud" = some j → ∃ s, j = .str s)
    (hexp : tree.lookup "exp" = exp.bind seconds) (hexpLong : ∀ t ∈ exp, InLong t)
    (hnbf : tree.lookup "nbf" = nbf.bind seconds) (hnbfLong : ∀ t ∈ nbf, InLong t)
    (hiat : tree.lookup "iat" = iat.bind seconds) (hiatLong : ∀ t ∈ iat, InLong t) :
    ∃ audience, deserialize p tree = .ok
      { issuer := getString p tree "iss", subject := getString p tree "sub", audience,
        expiresAt := exp.map truncated, notBefore := nbf.map truncated,
        issuedAt := iat.map truncated, id := getString p tree "jti", tree } := by
  have haudience : ∃ audience, getStringOrArray p tree "aud" = .ok audience := by
    unfold getStringOrArray
    cases h : tree.lookup "aud" with
    | none => exact ⟨none, rfl⟩
    | some j =>
      obtain ⟨s, rfl⟩ := haud j h
      exact ⟨_, rfl⟩
  obtain ⟨audience, haudience⟩ := haudience
  refine ⟨audience, ?_⟩
  simp only [deserialize, haudience, getDateFromSeconds_seconds hexp hexpLong,
    getDateFromSeconds_seconds hnbf hnbfLong, getDateFromSeconds_seconds hiat hiatLong, bind,
    Except.bind]
  rfl

/-- A payload that was read: its dates could be read, its texts are the ones of its tree. -/
theorem deserialize_ok {tree : List (String × Json)} {payload : Payload}
    (h : deserialize p tree = .ok payload) :
    (∀ name ∈ ["exp", "nbf", "iat"], ∃ date, getDateFromSeconds p tree name = .ok date) ∧
      payload.issuer = getString p tree "iss" ∧ payload.subject = getString p tree "sub" ∧
      payload.id = getString p tree "jti" ∧ payload.tree = tree := by
  unfold deserialize at h
  obtain ⟨_, -, h⟩ := Fallible.except_bind_ok h
  obtain ⟨exp, hexp, h⟩ := Fallible.except_bind_ok h
  obtain ⟨nbf, hnbf, h⟩ := Fallible.except_bind_ok h
  obtain ⟨iat, hiat, h⟩ := Fallible.except_bind_ok h
  cases h
  refine ⟨?_, rfl, rfl, rfl, rfl⟩
  simp only [List.forall_mem_cons]
  exact ⟨⟨exp, hexp⟩, ⟨nbf, hnbf⟩, ⟨iat, hiat⟩, by simp⟩

theorem not_deserialize_of_str {tree : List (String × Json)} {name t : String}
    (hname : name ∈ ["exp", "nbf", "iat"]) (h : tree.lookup name = some (.str t))
    (payload : Payload) : deserialize p tree ≠ .ok payload := by
  intro hok
  obtain ⟨date, hdate⟩ := (deserialize_ok hok).1 name hname
  unfold getDateFromSeconds at hdate
  rw [h] at hdate
  cases hdate

theorem getString_str {tree : List (String × Json)} {name : String} {s : Option String}
    (h : tree.lookup name = s.map .str) : getString p tree name = s := by
  rw [getString, h]
  cases s <;> rfl

end UtilsRepo.Jwt
