import UtilsRepo.Jwt.Overloads

/-!
# Requested lifetimes

The overloads with a lifetime, in either unit and with either form of a key, against the plain
verifiers: until when the token they make is accepted.
-/

namespace UtilsRepo.Jwt

variable {p : Platform}

/-! ## 1. The arguments -/

inductive KeyArgument (Key : Type)
  | object (key : Option Key)
  | text (text : Option String)

/-- The key an argument stands for. -/
def KeyArgument.Denotes {Key : Type} (convert : Option String → Except JavaException Key) :
    KeyArgument Key → Key → Prop
  | .object argument, key => argument = some key
  | .text argument, key => convert argument = .ok key

-- the argument `expireTs`, a `long` of milliseconds or an `int` of seconds
inductive Lifetime
  | millis (expireTs : Int64)
  | seconds (expireTs : Int32)

theorem toLong_sub (n : ℤ) : toLong (n - 2 ^ 64) = toLong n := Int.sub_bmod_right n (2 ^ 64)

namespace Lifetime

/-- The lifetime in milliseconds, as a number without bounds. -/
def requested : Lifetime → ℤ
  | millis expireTs => expireTs.toInt
  | seconds expireTs => 1000 * expireTs.toInt

def expiry (clock : TokenClock) : Lifetime → ℤ
  | millis expireTs => expiryMillis clock expireTs
  | seconds expireTs => expirySeconds clock expireTs

/-- A positive lifetime is added to the clock, and only the sum of milliseconds may wrap. -/
theorem expiry_eq (clock : TokenClock) {lifetime : Lifetime} (h : 0 < lifetime.requested) :
    lifetime.expiry clock = toLong (clock.base + lifetime.requested) := by
  have hrange := clock.inRange
  have hle := clock.base_le
  cases lifetime with
  | millis expireTs =>
    have hpos : ¬ expireTs ≤ 0 := by
      rw [Int64.le_iff_toInt_le]
      show ¬ expireTs.toInt ≤ 0
      exact not_le.mpr h
    show expiryMillis clock expireTs = toLong (clock.base + expireTs.toInt)
    rw [expiryMillis, if_neg hpos, add_comm]
  | seconds expireTs =>
    have hmax := expireTs.toInt_lt
    have hpos : ¬ expireTs ≤ 0 := by
      rw [Int32.le_iff_toInt_le]
      show ¬ expireTs.toInt ≤ 0
      change 0 < 1000 * expireTs.toInt at h
      omega
    change 0 < 1000 * expireTs.toInt at h
    show expirySeconds clock expireTs = toLong (clock.base + 1000 * expireTs.toInt)
    have hsum : InLong (clock.base + 1000 * expireTs.toInt) := ⟨by omega, by omega⟩
    rw [toLong_of_inLong hsum, expirySeconds, if_neg hpos, mul_comm]

theorem requested_lt (lifetime : Lifetime) : lifetime.requested < 2 ^ 63 := by
  cases lifetime with
  | millis expireTs => exact expireTs.toInt_lt
  | seconds expireTs =>
    have hmax := expireTs.toInt_lt
    show 1000 * expireTs.toInt < 2 ^ 63
    omega

end Lifetime

/-- The overload of `createTokenByRSA256(key, userId, expireTs)` that takes these arguments. -/
def createLifetimeToken (p : Platform) (clock : TokenClock) (userId : Option String) :
    KeyArgument p.PrivateKey → Lifetime → Token
  | .object privateKey, .millis expireTs => createTokenByKeyMillis p clock privateKey userId expireTs
  | .object privateKey, .seconds expireTs => createTokenByKeySeconds p clock privateKey userId expireTs
  | .text privateKey, .millis expireTs => createTokenByTextMillis p clock privateKey userId expireTs
  | .text privateKey, .seconds expireTs =>
      createTokenByTextSeconds p clock privateKey userId expireTs

-- `verifyTokenByRSA256(token, publicKey)`
def verifyPlainToken (p : Platform) (now : ℕ) (token : String) : KeyArgument p.PublicKey → Token
  | .object publicKey => verifyTokenByKey p now token publicKey
  | .text publicKey => verifyTokenByText p now token publicKey

theorem createLifetimeToken_eq {privateKey : KeyArgument p.PrivateKey} {key : p.PrivateKey}
    (h : privateKey.Denotes (convertToPrivateKey p) key) (clock : TokenClock)
    (userId : Option String) (lifetime : Lifetime) :
    createLifetimeToken p clock userId privateKey lifetime =
      createUserToken clock (some key) userId (lifetime.expiry clock) := by
  cases privateKey with
  | object argument =>
    obtain rfl : argument = some key := h
    cases lifetime <;> rfl
  | text argument =>
    change convertToPrivateKey p argument = .ok key at h
    cases lifetime <;> exact signedTokenByText_of_ok h _

theorem verifyPlainToken_eq {publicKey : KeyArgument p.PublicKey} {key : p.PublicKey}
    (h : publicKey.Denotes (convertToPublicKey p) key) (now : ℕ) (token : String) :
    verifyPlainToken p now token publicKey = verifyTokenByKey p now token (some key) := by
  cases publicKey with
  | object argument =>
    obtain rfl : argument = some key := h
    rfl
  | text argument => exact verifyTokenByText_of_ok h now token

/-! ## 2. Until when -/

section Accepted

variable {clock : TokenClock} {userId : Option String} {expiresAt : ℤ} {privateKey : p.PrivateKey}
  {publicKey : p.PublicKey}

theorem lookup_user {algorithm : Algorithm p} {token : String}
    (s : Signed (userClaims clock userId expiresAt) algorithm token) (k : String) :
    s.payload.lookup k =
      if k = "exp" then Jwt.seconds expiresAt
      else if k = "nbf" then Jwt.seconds clock.notBefore
      else if k = "jti" then userId.map .str
      else none := by
  rw [s.lookup_payload, lookup_userClaims]
  split_ifs
  · rfl
  · rfl
  · cases userId <;> rfl
  · rfl

theorem deserialize_user {algorithm : Algorithm p} {token : String} (hexpiry : InLong expiresAt)
    (s : Signed (userClaims clock userId expiresAt) algorithm token) :
    ∃ payload, deserialize p s.payload = .ok payload ∧
      payload.expiresAt = some (truncated expiresAt) ∧
      payload.notBefore = some (truncated clock.notBefore) ∧ payload.issuedAt = none := by
  obtain ⟨audience, hok⟩ := deserialize_dates (p := p) s.payload (some expiresAt)
    (some clock.notBefore) none (by simp [lookup_user]) (by simp [lookup_user])
    (by simpa using hexpiry) (by simp [lookup_user]) (by simpa using inLong_notBefore clock)
    (by simp [lookup_user]) (by simp)
  exact ⟨_, hok, rfl, rfl, rfl⟩

/-- A token made here is accepted between its two dates, cut to whole seconds. -/
theorem accepted_iff (hpaired : p.Paired privateKey publicKey) (hexpiry : InLong expiresAt)
    {text : String} {message : Option String}
    (h : createUserToken clock (some privateKey) userId expiresAt = ⟨some text, message, false⟩)
    (now : ℕ) :
    (verifyTokenByKey p now text (some publicKey)).error = false ↔
      truncated clock.notBefore ≤ today now ∧ today now ≤ truncated expiresAt := by
  have hnoerror : (createUserToken clock (some privateKey) userId expiresAt).error = false := by
    rw [h]
  obtain ⟨b, token, hb, ⟨s⟩, htoken⟩ := signedToken_of_not_error hnoerror
  obtain rfl : userClaims clock userId expiresAt = b := Except.ok.inj hb
  obtain rfl : text = encodeToString token :=
    Option.some.inj (congrArg Token.token (h.symm.trans htoken))
  have hverifier : verifyTokenByKey p now (encodeToString token) (some publicKey) =
      verifiedToken (encodeToString token) now
        (.ok (Verification.require (⟨some publicKey, none⟩ : Algorithm p)).build) := rfl
  obtain ⟨payload, hpayload, hexp, hnbf, hiat⟩ := deserialize_user hexpiry s
  have hsignature := hpaired _ _ (s.sign_of_key rfl)
  rw [hverifier, verifiedToken_success_iff, verify_signed_iff s, algorithm_require_build]
  simp only [hpayload, Except.ok.injEq, exists_eq_left', Option.any_some, hsignature, true_and,
    meets_require_iff, hexp, hnbf, hiat, Option.some.injEq, forall_eq', reduceCtorEq,
    false_implies, implies_true, and_true]
  exact and_comm

end Accepted

/-- The token is accepted from its making to the end of the second in which the lifetime ends. -/
def Honoured (p : Platform) (clock : TokenClock) (lifetime : Lifetime) (token : String)
    (publicKey : KeyArgument p.PublicKey) : Prop :=
  ∀ now : ℕ, clock.notBefore ≤ now →
    ((verifyPlainToken p now token publicKey).error = false ↔
      ((now / 1000 : ℕ) : ℤ) ≤ (clock.base + lifetime.requested) / 1000)

section Honoured

variable {privateKey : KeyArgument p.PrivateKey} {key : p.PrivateKey}
  {publicKey : KeyArgument p.PublicKey} {verifyKey : p.PublicKey} {clock : TokenClock}
  {userId : Option String} {lifetime : Lifetime} {text : String} {message : Option String}

/-- What the plain verifiers make of a token with a positive lifetime. -/
theorem accepted_lifetime_iff (hprivate : privateKey.Denotes (convertToPrivateKey p) key)
    (hpublic : publicKey.Denotes (convertToPublicKey p) verifyKey)
    (hpaired : p.Paired key verifyKey) (hpos : 0 < lifetime.requested)
    (h : createLifetimeToken p clock userId privateKey lifetime = ⟨some text, message, false⟩)
    (now : ℕ) :
    (verifyPlainToken p now text publicKey).error = false ↔
      truncated clock.notBefore ≤ today now ∧
        today now ≤ truncated (toLong (clock.base + lifetime.requested)) := by
  have hlong : InLong (toLong (clock.base + lifetime.requested)) :=
    ⟨Int.le_bmod (by decide), Int.bmod_lt (by decide)⟩
  rw [createLifetimeToken_eq hprivate, lifetime.expiry_eq clock hpos] at h
  rw [verifyPlainToken_eq hpublic]
  exact accepted_iff hpaired hlong h now

theorem honoured_of_inLong (hprivate : privateKey.Denotes (convertToPrivateKey p) key)
    (hpublic : publicKey.Denotes (convertToPublicKey p) verifyKey)
    (hpaired : p.Paired key verifyKey) (hpos : 0 < lifetime.requested)
    (h : createLifetimeToken p clock userId privateKey lifetime = ⟨some text, message, false⟩)
    (hsum : clock.base + lifetime.requested < 2 ^ 63) :
    Honoured p clock lifetime text publicKey := by
  have hnbf := truncated_cases clock.notBefore
  have hexp := truncated_cases (clock.base + lifetime.requested)
  intro now hnow
  rw [accepted_lifetime_iff hprivate hpublic hpaired hpos h,
    toLong_of_inLong ⟨by omega, hsum⟩]
  unfold today
  omega

/-- A sum that wraps lies in the past, so the token is dead when it is made. -/
theorem not_honoured_of_wrapped (hprivate : privateKey.Denotes (convertToPrivateKey p) key)
    (hpublic : publicKey.Denotes (convertToPublicKey p) verifyKey)
    (hpaired : p.Paired key verifyKey) (hpos : 0 < lifetime.requested)
    (h : createLifetimeToken p clock userId privateKey lifetime = ⟨some text, message, false⟩)
    (hsum : 2 ^ 63 ≤ clock.base + lifetime.requested) :
    ¬ Honoured p clock lifetime text publicKey := by
  have hrange := clock.inRange
  have hle := clock.base_le
  have hlt := lifetime.requested_lt
  have hwrapped : toLong (clock.base + lifetime.requested) =
      clock.base + lifetime.requested - 2 ^ 64 := by
    rw [← toLong_sub]
    exact toLong_of_inLong ⟨by omega, by omega⟩
  have hexp := truncated_cases (clock.base + lifetime.requested - 2 ^ 64)
  intro hall
  have hfirst := (hall clock.notBefore le_rfl).mpr (by omega)
  rw [accepted_lifetime_iff hprivate hpublic hpaired hpos h, hwrapped] at hfirst
  unfold today at hfirst
  omega

/-- A lifetime is honoured exactly when its sum with the clock is one of `long`. -/
theorem honoured_iff (hprivate : privateKey.Denotes (convertToPrivateKey p) key)
    (hpublic : publicKey.Denotes (convertToPublicKey p) verifyKey)
    (hpaired : p.Paired key verifyKey) (hpos : 0 < lifetime.requested)
    (h : createLifetimeToken p clock userId privateKey lifetime = ⟨some text, message, false⟩) :
    Honoured p clock lifetime text publicKey ↔ clock.base + lifetime.requested < 2 ^ 63 := by
  constructor
  · intro hhonoured
    by_contra hsum
    exact not_honoured_of_wrapped hprivate hpublic hpaired hpos h (not_lt.mp hsum) hhonoured
  · exact honoured_of_inLong hprivate hpublic hpaired hpos h

end Honoured

def aliceKey : KeyArgument compactPlatform.PrivateKey := .object (some (show UInt8 from 7))

def centerKey : KeyArgument compactPlatform.PublicKey := .text (some "Bw==")

theorem denotes_aliceKey :
    aliceKey.Denotes (convertToPrivateKey compactPlatform) (show UInt8 from 7) := rfl

theorem denotes_centerKey :
    centerKey.Denotes (convertToPublicKey compactPlatform) (show UInt8 from 7) := rfl

/-- A token for alice on the compact platform. -/
def aliceToken (lifetime : Lifetime) : Token :=
  createLifetimeToken compactPlatform morning (some "alice") aliceKey lifetime

theorem aliceToken_created (lifetime : Lifetime) (h : (aliceToken lifetime).error = false) :
    ∃ text, aliceToken lifetime = ⟨some text, some "create success", false⟩ := by
  have heq := createLifetimeToken_eq denotes_aliceKey morning (some "alice") lifetime
  rw [aliceToken, heq] at h ⊢
  obtain ⟨-, token, -, -, htoken⟩ := signedToken_of_not_error h
  exact ⟨encodeToString token, htoken⟩

theorem honoured_minute : ∃ text,
    aliceToken (.seconds 60) = ⟨some text, some "create success", false⟩ ∧
      Honoured compactPlatform morning (.seconds 60) text centerKey := by
  obtain ⟨text, htoken⟩ := aliceToken_created (.seconds 60) rfl
  refine ⟨text, htoken, ?_⟩
  exact (honoured_iff denotes_aliceKey denotes_centerKey (compactPlatform_paired 7) (by decide)
    htoken).mpr (by decide)

/-- The largest `long` is no lifetime: the token is made, and is dead. -/
theorem not_honoured_longest : ∃ text,
    aliceToken (.millis 9223372036854775807) = ⟨some text, some "create success", false⟩ ∧
      ¬ Honoured compactPlatform morning (.millis 9223372036854775807) text centerKey := by
  obtain ⟨text, htoken⟩ := aliceToken_created (.millis 9223372036854775807) rfl
  refine ⟨text, htoken, ?_⟩
  exact not_honoured_of_wrapped denotes_aliceKey denotes_centerKey (compactPlatform_paired 7)
    (by decide) htoken (by decide)

end UtilsRepo.Jwt
