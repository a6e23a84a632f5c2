import UtilsRepo.Jwt.CompactPlatform
import UtilsRepo.Jwt.VerifiedToken

/-!
# The overloads

`createTokenByRSA256` and `verifyTokenByRSA256` come as one copy for each form of a key and each unit
of a lifetime.  The copies agree: a key text stands for the key it converts to, and a second for a
thousand milliseconds.
-/

namespace UtilsRepo.Jwt

variable {p : Platform}

/-! ## 1. Forms of a key -/

theorem signedTokenByText_of_ok {privateKey : Option String} {key : p.PrivateKey}
    (h : convertToPrivateKey p privateKey = .ok key) (claims : Except JavaException Builder) :
    signedTokenByText p privateKey claims = signedToken (some key) claims := by
  rw [signedTokenByText_eq, h]

theorem verifyTokenByText_of_ok {publicKey : Option String} {key : p.PublicKey}
    (h : convertToPublicKey p publicKey = .ok key) (now : ℕ) (token : String) :
    verifyTokenByText p now token publicKey = verifyTokenByKey p now token (some key) := by
  rw [verifyTokenByText, h]
  rfl

/-! ## 2. Units of a lifetime -/

/-- `int` seconds as `long` milliseconds, a product that never overflows. -/
def inMillis (expireTs : Int32) : Int64 := 1000 * expireTs.toInt64

theorem toInt_inMillis (expireTs : Int32) : (inMillis expireTs).toInt = 1000 * expireTs.toInt := by
  have hmin := expireTs.le_toInt
  have hmax := expireTs.toInt_lt
  rw [inMillis, Int64.toInt_mul, Int32.toInt_toInt64]
  show (1000 * expireTs.toInt).bmod (2 ^ 64) = _
  apply Int.bmod_eq_of_le <;> omega

theorem inMillis_nonpos_iff (expireTs : Int32) : inMillis expireTs ≤ 0 ↔ expireTs ≤ 0 := by
  rw [Int64.le_iff_toInt_le, Int32.le_iff_toInt_le, toInt_inMillis]
  show 1000 * expireTs.toInt ≤ 0 ↔ expireTs.toInt ≤ 0
  omega

theorem expiryMillis_inMillis (clock : TokenClock) (expireTs : Int32) :
    expiryMillis clock (inMillis expireTs) = expirySeconds clock expireTs := by
  have hmin := expireTs.le_toInt
  have hmax := expireTs.toInt_lt
  have hrange := clock.inRange
  have hle := clock.base_le
  by_cases hsign : expireTs ≤ 0
  · rw [expiryMillis, if_pos ((inMillis_nonpos_iff expireTs).mpr hsign), expirySeconds,
      if_pos hsign]
    rfl
  · rw [expiryMillis, if_neg (fun h => hsign ((inMillis_nonpos_iff expireTs).mp h)),
      expirySeconds, if_neg hsign, toInt_inMillis]
    -- a lifetime of `int` seconds does not reach the end of `long`
    have hsum : InLong (1000 * expireTs.toInt + clock.base) := ⟨by omega, by omega⟩
    rw [toLong_of_inLong hsum]
    omega

theorem expiryMillis_zero (clock : TokenClock) :
    expiryMillis clock 0 = clock.base + 30 * 60 * 1000 :=
  if_pos (by decide)

/-! ## 3. One function -/

theorem overloads_agree {privateText : Option String} {privateKey : p.PrivateKey}
    (hprivate : convertToPrivateKey p privateText = .ok privateKey)
    {publicText : Option String} {publicKey : p.PublicKey}
    (hpublic : convertToPublicKey p publicText = .ok publicKey)
    (clock : TokenClock) (userId userDetails : Option String) :
    -- a key text and the key
    ((∀ expireTs : Int64,
        createTokenByTextMillis p clock privateText userId expireTs =
            createTokenByKeyMillis p clock (some privateKey) userId expireTs ∧
          createTokenByTextDetailsMillis p clock privateText userId userDetails expireTs =
            createTokenByKeyDetailsMillis p clock (some privateKey) userId userDetails expireTs) ∧
      ∀ expireTs : Int32,
        createTokenByTextSeconds p clock privateText userId expireTs =
            createTokenByKeySeconds p clock (some privateKey) userId expireTs ∧
          createTokenByTextDetailsSeconds p clock privateText userId userDetails expireTs =
            createTokenByKeyDetailsSeconds p clock (some privateKey) userId userDetails
              expireTs) ∧
    -- seconds and milliseconds
    (∀ expireTs : Int32,
      createTokenByKeySeconds p clock (some privateKey) userId expireTs =
          createTokenByKeyMillis p clock (some privateKey) userId (inMillis expireTs) ∧
        createTokenByTextSeconds p clock privateText userId expireTs =
          createTokenByTextMillis p clock privateText userId (inMillis expireTs) ∧
        createTokenByKeyDetailsSeconds p clock (some privateKey) userId userDetails expireTs =
          createTokenByKeyDetailsMillis p clock (some privateKey) userId userDetails
            (inMillis expireTs) ∧
        createTokenByTextDetailsSeconds p clock privateText userId userDetails expireTs =
          createTokenByTextDetailsMillis p clock privateText userId userDetails
            (inMillis expireTs)) ∧
    -- no lifetime
    (createTokenByKey p clock (some privateKey) userId =
        createTokenByKeyMillis p clock (some privateKey) userId 0 ∧
      ∀ publicKeyOrigin : Option p.PublicKey,
        createTokenByKeyPair p clock ⟨publicKeyOrigin, some privateKey⟩ userId =
          createTokenByKeyMillis p clock (some privateKey) userId 0) ∧
    -- the plain verifiers
    (∀ (token : String) (now : ℕ),
      verifyTokenByText p now token publicText = verifyTokenByKey p now token (some publicKey) ∧
        ∀ filePathName : Option String,
          verifyTokenByKeyAndFile p now token (some publicKey) filePathName =
            verifyTokenByKey p now token (some publicKey)) := by
  have htext := fun claims => signedTokenByText_of_ok hprivate claims
  have hexpiry := fun expireTs => expiryMillis_inMillis clock expireTs
  refine ⟨⟨?_, ?_⟩, ?_, ?_, ?_⟩
  · intro expireTs
    exact ⟨htext _, htext _⟩
  · intro expireTs
    exact ⟨htext _, htext _⟩
  · intro expireTs
    simp only [createTokenByKeySeconds, createTokenByKeyMillis, createTokenByTextSeconds,
      createTokenByTextMillis, createTokenByKeyDetailsSeconds, createTokenByKeyDetailsMillis,
      createTokenByTextDetailsSeconds, createTokenByTextDetailsMillis, hexpiry, and_self]
  · simp only [createTokenByKeyPair, createTokenByKey, createTokenByKeyMillis, expiryMillis_zero,
      implies_true, and_self]
  · intro token now
    refine ⟨verifyTokenByText_of_ok hpublic now token, fun filePathName => ?_⟩
    rw [verifyTokenByKeyAndFile, verifyTokenByKey]

theorem overloads_agree_seven :
    convertToPrivateKey compactPlatform (some "Bw==") = .ok (show UInt8 from 7) ∧
      convertToPublicKey compactPlatform (some "Bw==") = .ok (show UInt8 from 7) ∧
      createTokenByTextSeconds compactPlatform morning (some "Bw==") (some "alice") (-5) =
        createTokenByTextMillis compactPlatform morning (some "Bw==") (some "alice") (-5000) ∧
      verifyTokenByText compactPlatform 1700000000001 "a.b.c" (some "Bw==") =
        verifyTokenByKey compactPlatform 1700000000001 "a.b.c" (some (show UInt8 from 7)) := by
  have hprivate : convertToPrivateKey compactPlatform (some "Bw==") = .ok (show UInt8 from 7) := rfl
  have hpublic : convertToPublicKey compactPlatform (some "Bw==") = .ok (show UInt8 from 7) := rfl
  obtain ⟨-, hunits, -, hverifiers⟩ :=
    overloads_agree hprivate hpublic morning (some "alice") none
  exact ⟨hprivate, hpublic, (hunits (-5)).2.1, (hverifiers "a.b.c" 1700000000001).1⟩

end UtilsRepo.Jwt
