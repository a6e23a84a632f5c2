import UtilsRepo.Jwt.CompactPlatform
import UtilsRepo.Jwt.VerifiedToken

/-!
# Free claim names against the token's own claims

Five token builders take a claim name from their caller.  Exactly the names that were written before
the free one can be changed through it: the builder has one map and the last call wins.
-/

namespace UtilsRepo.Jwt

open Builder

variable {p : Platform}

/-! ## 1. The five builders -/

/-- A call of a builder with a free claim name. -/
inductive FreeNameCall (p : Platform) where
  | typed (claims : JwtCustomClaim) (keyPair : RSAKeyPair p)
  | keyMillis (privateKey : Option p.PrivateKey) (userId userDetails : Option String)
      (expireTs : Int64)
  | keySeconds (privateKey : Option p.PrivateKey) (userId userDetails : Option String)
      (expireTs : Int32)
  | textMillis (privateKey userId userDetails : Option String) (expireTs : Int64)
  | textSeconds (privateKey userId userDetails : Option String) (expireTs : Int32)

namespace FreeNameCall

def create (clock : TokenClock) : FreeNameCall p → Token
  | .typed claims keyPair => createTokenByRSA256 p clock claims keyPair
  | .keyMillis privateKey userId userDetails expireTs =>
      createTokenByKeyDetailsMillis p clock privateKey userId userDetails expireTs
  | .keySeconds privateKey userId userDetails expireTs =>
      createTokenByKeyDetailsSeconds p clock privateKey userId userDetails expireTs
  | .textMillis privateKey userId userDetails expireTs =>
      createTokenByTextDetailsMillis p clock privateKey userId userDetails expireTs
  | .textSeconds privateKey userId userDetails expireTs =>
      createTokenByTextDetailsSeconds p clock privateKey userId userDetails expireTs

end FreeNameCall

/-! ## 2. The own claims -/

/-- The own claims of the claims-based token, from the typed fields and the clock. -/
def typedClaims (clock : TokenClock) (claims : JwtCustomClaim) : List (String × Option Json) :=
  [("exp", seconds (expiresAtOf clock claims)), ("nbf", seconds clock.notBefore),
    ("jti", (written claims.tid).map .str), ("iat", seconds (issuedAtOf clock claims)),
    ("sub", (written claims.subject).map .str), ("iss", (written claims.issuer).map .str),
    ("roles", (rolesClaim claims.roleList).bind serializeClaim), ("cn.t", some (.str claimValue))]

def userOwnClaims (clock : TokenClock) (userId : Option String) (expiresAt : ℤ) :
    List (String × Option Json) :=
  [("exp", seconds expiresAt), ("nbf", seconds clock.notBefore), ("jti", userId.map .str)]

def FreeNameCall.ownClaims (clock : TokenClock) :
    FreeNameCall p → List (String × Option Json)
  | .typed claims _ => typedClaims clock claims
  | .keyMillis _ userId _ expireTs | .textMillis _ userId _ expireTs =>
      userOwnClaims clock userId (expiryMillis clock expireTs)
  | .keySeconds _ userId _ expireTs | .textSeconds _ userId _ expireTs =>
      userOwnClaims clock userId (expirySeconds clock expireTs)

/-- The payload of the token has exactly these values under these names. -/
def PayloadHas (p : Platform) (token : Token) (own : List (String × Option Json)) : Prop :=
  ∃ fields, tokenPayload p token = some fields ∧ ∀ c ∈ own, fields.lookup c.1 = c.2

/-! ## 3. Harmless names -/

/-- A custom entry named like a claim written before it repeats that claim. -/
def HarmlessEntry (claims : JwtCustomClaim) (e : Σ _ : Option String, Option String) : Prop :=
  e.1 ≠ some "exp" ∧ e.1 ≠ some "iat" ∧
    (e.1 = some "roles" → e.2 = none ∧ rolesClaim claims.roleList = none) ∧
    (e.1 = some "jti" → e.2 = written claims.tid) ∧
    (e.1 = some "sub" → e.2 = written claims.subject) ∧
    (e.1 = some "iss" → e.2 = written claims.issuer)

/-- A user is not named like a date claim, and the one named `jti` has `jti` for details. -/
def HarmlessUser (userId userDetails : Option String) : Prop :=
  userId ≠ some "exp" ∧ userId ≠ some "nbf" ∧ (userId = some "jti" → userDetails = some "jti")

def FreeNameCall.Harmless : FreeNameCall p → Prop
  | .typed claims _ => ∀ e ∈ customEntries claims.customStringClaim, HarmlessEntry claims e
  | .keyMillis _ userId userDetails _ | .textMillis _ userId userDetails _
  | .keySeconds _ userId userDetails _ | .textSeconds _ userId userDetails _ =>
      HarmlessUser userId userDetails

/-! ## 4. The claims-based builder -/

theorem serializeClaim_string (s : String) : serializeClaim (.string s) = some (.str s) := rfl

theorem serializeClaim_date (time : ℤ) : serializeClaim (.date time) = seconds time := rfl

theorem bind_serializeClaim_string (s : Option String) :
    (s.map JavaValue.string).bind serializeClaim = s.map .str := by
  cases s <;> rfl

theorem freeClaim_eq_iff {entries : List (Σ _ : Option String, Option String)}
    (hnodup : entries.NodupKeys) (k : String) (before : Option JavaValue) :
    (freeClaim entries k before).bind serializeClaim = before.bind serializeClaim ↔
      ∀ e ∈ entries, e.1 = some k → e.2.map .str = before.bind serializeClaim := by
  unfold freeClaim
  cases hlookup : entries.dlookup (some k) with
  | none =>
    apply iff_of_true rfl
    rintro ⟨name, value⟩ he rfl
    rw [← List.mem_dlookup_iff hnodup, hlookup] at he
    cases he
  | some value =>
    dsimp only
    rw [bind_serializeClaim_string]
    constructor
    · rintro h ⟨name, value'⟩ he rfl
      rw [← List.mem_dlookup_iff hnodup, hlookup] at he
      obtain rfl := Option.some.inj he
      exact h
    · intro h
      exact h ⟨some k, value⟩ (List.of_mem_dlookup hlookup) rfl

private theorem map_str_inj {s t : Option String} :
    s.map Json.str = t.map Json.str ↔ s = t := by
  cases s <;> cases t <;> simp

private theorem map_str_ne_seconds (s : Option String) (time : ℤ) :
    s.map Json.str ≠ seconds time := by
  cases s <;> simp [seconds]

theorem map_str_eq_roles_iff {b b' : Builder} {roleList : Option (List JavaValue)}
    (h : withRoles b roleList = .ok b') (s : Option String) :
    s.map Json.str = (rolesClaim roleList).bind serializeClaim ↔
      s = none ∧ rolesClaim roleList = none := by
  rcases roleList with _ | _ | ⟨role, roles⟩
  · simp [rolesClaim]
  · simp [rolesClaim]
  · change b.withListClaim "roles" (role :: roles) = _ at h
    unfold withListClaim at h
    split_ifs at h with hvalid
    -- a role list that passed the check is written as an array, so no text repeats it
    obtain ⟨js, hjs⟩ := Option.isSome_iff_exists.mp
      (JavaObject.elementsToJson_isSome _ hvalid)
    have hroles : (rolesClaim (some (role :: roles))).bind serializeClaim = some (.arr js) := by
      change (JavaObject.elementsToJson _).map Json.arr = _
      rw [hjs, Option.map_some]
    rw [hroles]
    cases s <;> simp [rolesClaim]

theorem typedClaims_iff {clock : TokenClock} {claims : JwtCustomClaim} {b : Builder}
    (h : claimsBuilder clock claims = .ok b) :
    (∀ c ∈ typedClaims clock claims, (b.payloadClaims.lookup c.1).bind serializeClaim = c.2) ↔
      ∀ e ∈ customEntries claims.customStringClaim, HarmlessEntry claims e := by
  obtain ⟨b₁, hroles, -⟩ := Fallible.except_bind_ok h
  have hfree := freeClaim_eq_iff (nodupKeys_customEntries claims.customStringClaim)
  have hexp := hfree "exp" (some (.date (expiresAtOf clock claims)))
  have hjti := hfree "jti" ((written claims.tid).map .string)
  have hiat := hfree "iat" (some (.date (issuedAtOf clock claims)))
  have hsub := hfree "sub" ((written claims.subject).map .string)
  have hiss := hfree "iss" ((written claims.issuer).map .string)
  have hrole := hfree "roles" (rolesClaim claims.roleList)
  simp only [bind_serializeClaim_string, Option.bind_some, serializeClaim_date, map_str_inj,
    map_str_ne_seconds, map_str_eq_roles_iff hroles] at hexp hjti hiat hsub hiss hrole
  -- `nbf` and the salt are written last, the other six names stand before the free ones
  simp only [typedClaims, List.forall_mem_cons, List.not_mem_nil, false_implies, implies_true,
    and_true, lookup_claimsBuilder h, claimKey, fixedClaim, String.reduceEq, if_true, if_false,
    Option.bind_some, serializeClaim_date, serializeClaim_string, true_and, hexp, hjti, hiat, hsub,
    hiss, hrole]
  simp only [HarmlessEntry]
  constructor
  · rintro ⟨h₁, h₂, h₃, h₄, h₅, h₆⟩ e he
    exact ⟨h₁ e he, h₃ e he, h₆ e he, h₂ e he, h₄ e he, h₅ e he⟩
  · intro h
    exact ⟨fun e he => (h e he).1, fun e he => (h e he).2.2.2.1, fun e he => (h e he).2.1,
      fun e he => (h e he).2.2.2.2.1, fun e he => (h e he).2.2.2.2.2, fun e he => (h e he).2.2.1⟩

theorem payloadHas_signed {b : Builder} {algorithm : Algorithm p} {token : String}
    (s : Signed b algorithm token) (message : Option String) (error : Bool)
    (own : List (String × Option Json)) :
    PayloadHas p ⟨some (encodeToString token), message, error⟩ own ↔
      ∀ c ∈ own, (b.payloadClaims.lookup c.1).bind serializeClaim = c.2 := by
  simp only [PayloadHas, tokenPayload_signed s, Option.some.injEq, exists_eq_left',
    s.lookup_payload]

theorem claims_own_iff {clock : TokenClock} {claims : JwtCustomClaim} {keyPair : RSAKeyPair p}
    (h : (createTokenByRSA256 p clock claims keyPair).error = false) :
    PayloadHas p (createTokenByRSA256 p clock claims keyPair) (typedClaims clock claims) ↔
      ∀ e ∈ customEntries claims.customStringClaim, HarmlessEntry claims e := by
  obtain ⟨b, token, hb, ⟨s⟩, htoken⟩ := signedToken_of_not_error h
  rw [createTokenByRSA256, htoken, payloadHas_signed s, typedClaims_iff hb]

/-! ## 5. The overloads -/

theorem user_own_iff {clock : TokenClock} {privateKey : Option p.PrivateKey}
    {userId userDetails : Option String} {expiresAt : ℤ}
    (h : (createUserDetailsToken clock privateKey userId userDetails expiresAt).error = false) :
    PayloadHas p (createUserDetailsToken clock privateKey userId userDetails expiresAt)
        (userOwnClaims clock userId expiresAt) ↔ HarmlessUser userId userDetails := by
  obtain ⟨b, token, hb, ⟨s⟩, htoken⟩ := signedToken_of_not_error h
  obtain ⟨user, rfl, rfl⟩ := withClaim_ok hb
  rw [createUserDetailsToken, htoken, payloadHas_signed s]
  simp only [userOwnClaims, List.forall_mem_cons, List.not_mem_nil, false_implies, implies_true,
    and_true, lookup_addClaim, lookup_userClaims, HarmlessUser, ne_eq, Option.some.injEq]
  have hdate := map_str_ne_seconds userDetails
  by_cases hexp : user = "exp"
  · simp [hexp, bind_serializeClaim_string, hdate]
  by_cases hnbf : user = "nbf"
  · simp [hnbf, bind_serializeClaim_string, hdate]
  by_cases hjti : user = "jti"
  · simp [hjti, bind_serializeClaim_string, serializeClaim_date]
  · simp [Ne.symm hexp, Ne.symm hnbf, Ne.symm hjti, hexp, hnbf, hjti, serializeClaim_date,
      serializeClaim_string]

/-- A key given as text signs what the key it converts to signs. -/
theorem user_own_iff_of_text {clock : TokenClock} {privateKey userId userDetails : Option String}
    {expiresAt : ℤ}
    (h : (signedTokenByText p privateKey
      ((userClaims clock userId expiresAt).withClaim userId userDetails)).error = false) :
    PayloadHas p (signedTokenByText p privateKey
        ((userClaims clock userId expiresAt).withClaim userId userDetails))
        (userOwnClaims clock userId expiresAt) ↔ HarmlessUser userId userDetails := by
  rw [signedTokenByText_eq] at h ⊢
  split at h
  · exact user_own_iff h
  · cases h

/-- Free claim names cannot change the own claims exactly when they are harmless. -/
theorem own_claims_iff_harmless (clock : TokenClock) (call : FreeNameCall p)
    (h : (call.create clock).error = false) :
    PayloadHas p (call.create clock) (call.ownClaims clock) ↔ call.Harmless := by
  cases call with
  | typed claims keyPair => exact claims_own_iff h
  | keyMillis privateKey userId userDetails expireTs => exact user_own_iff h
  | keySeconds privateKey userId userDetails expireTs => exact user_own_iff h
  | textMillis privateKey userId userDetails expireTs => exact user_own_iff_of_text h
  | textSeconds privateKey userId userDetails expireTs => exact user_own_iff_of_text h

/-! ## 6. A free name that is harmless and one that is not -/

/-- The claims of a user with one custom entry. -/
def withCustom (name : String) (value : Option String) : JwtCustomClaim :=
  { (ClaimBuilder.new (some "t1") (some "alice") (some "center")).build with
    customStringClaim := some (AList.singleton (some name) value) }

theorem own_claims_custom_dept :
    PayloadHas compactPlatform
      ((FreeNameCall.typed (withCustom "dept" (some "sales")) compactKeyPair).create morning)
      ((FreeNameCall.typed (withCustom "dept" (some "sales")) compactKeyPair).ownClaims morning) :=
  (own_claims_iff_harmless morning (.typed (withCustom "dept" (some "sales")) compactKeyPair)
    rfl).mpr (by
      intro e he
      obtain rfl := List.mem_singleton.mp he
      simp [HarmlessEntry])

/-- A custom entry `exp` without a value takes the expiry out of the token. -/
theorem custom_exp_null_changes_own_claims :
    ((FreeNameCall.typed (withCustom "exp" none) compactKeyPair).create morning).error = false ∧
      ¬ PayloadHas compactPlatform
        ((FreeNameCall.typed (withCustom "exp" none) compactKeyPair).create morning)
        ((FreeNameCall.typed (withCustom "exp" none) compactKeyPair).ownClaims morning) := by
  refine ⟨rfl, fun h => ?_⟩
  have hharmless := (@claims_own_iff compactPlatform morning (withCustom "exp" none)
    compactKeyPair rfl).mp h
  exact (hharmless ⟨some "exp", none⟩ (List.mem_singleton_self _)).1 rfl

end UtilsRepo.Jwt
