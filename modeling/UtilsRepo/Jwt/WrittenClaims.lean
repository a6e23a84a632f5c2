import UtilsRepo.Jwt.SignedToken

/-!
# The claims the builders write

The claim map of every token builder, name by name: which call wrote the entry that is left in the
end.
-/

namespace UtilsRepo.Jwt

open Builder

/-! ## 1. Blank texts -/

theorem isNotEmpty_iff {s : Option String} : isNotEmpty s = true ↔ ∃ t, s = some t ∧ HasText t := by
  cases s with
  | none => simp [isNotEmpty]
  | some t =>
    rw [isNotEmpty, decide_eq_true_iff, gt_iff_lt, List.length_pos_iff, trim_ne_nil_iff]
    simp [HasText]

-- the claims-based builder writes a text that is not blank
def written (s : Option String) : Option String := if isNotEmpty s then s else none

theorem written_eq_some_iff {s : Option String} {t : String} :
    written s = some t ↔ s = some t ∧ HasText t := by
  unfold written
  split_ifs with h
  · obtain ⟨u, rfl, hu⟩ := isNotEmpty_iff.mp h
    simp only [Option.some.injEq]
    exact ⟨fun htu => ⟨htu, htu ▸ hu⟩, And.left⟩
  · simp only [false_iff, not_and]
    rintro rfl ht
    exact h (isNotEmpty_iff.mpr ⟨t, rfl, ht⟩)

/-! ## 2. The typed claims -/

theorem lookup_addWritten (b : Builder) (name : String) (s : Option String) (k : String) :
    (if isNotEmpty s then b.addClaim name (s.map .string) else b).payloadClaims.lookup k =
      if k = name ∧ isNotEmpty s then (written s).map .string else b.payloadClaims.lookup k := by
  by_cases h : isNotEmpty s
  · rw [if_pos h, lookup_addClaim, written, if_pos h]
    simp [h]
  · rw [if_neg h, if_neg (fun hk => h hk.2)]

def expiresAtOf (clock : TokenClock) (claims : JwtCustomClaim) : ℤ :=
  match claims.expiresAt with
  | some expiresAt => expiresAt.toInt
  | none => clock.base + 1000 * 60 * 30

def issuedAtOf (clock : TokenClock) (claims : JwtCustomClaim) : ℤ :=
  match claims.issuedAt with
  | some issuedAt => issuedAt.toInt
  | none => clock.base

/-- What the typed fields of the claims put under a name. -/
def fixedClaim (clock : TokenClock) (claims : JwtCustomClaim) (k : String) : Option JavaValue :=
  if k = "exp" then some (.date (expiresAtOf clock claims))
  else if k = "iat" then some (.date (issuedAtOf clock claims))
  else if k = "iss" then (written claims.issuer).map .string
  else if k = "jti" then (written claims.tid).map .string
  else if k = "sub" then (written claims.subject).map .string
  else none

theorem written_of_not_isNotEmpty {s : Option String} (h : ¬ isNotEmpty s) : written s = none :=
  if_neg h

theorem lookup_fixedClaims (clock : TokenClock) (claims : JwtCustomClaim) (k : String) :
    (fixedClaims clock claims).payloadClaims.lookup k = fixedClaim clock claims k := by
  have hexp : fixedClaims clock claims =
      ((let b := Builder.create.withHeader claims.headerClaims
        let b := if isNotEmpty claims.subject then b.withSubject claims.subject else b
        let b := if isNotEmpty claims.tid then b.withJWTId claims.tid else b
        if isNotEmpty claims.issuer then b.withIssuer claims.issuer else b).withIssuedAt
          (issuedAtOf clock claims)).withExpiresAt (expiresAtOf clock claims) := by
    unfold fixedClaims issuedAtOf expiresAtOf
    cases claims.issuedAt <;> cases claims.expiresAt <;> rfl
  have hblank := fun s : Option String => written_of_not_isNotEmpty (s := s)
  rw [hexp]
  simp only [withExpiresAt, withIssuedAt, withIssuer, withJWTId, withSubject, lookup_addClaim,
    lookup_addWritten, payloadClaims_withHeader, lookup_create, fixedClaim]
  split_ifs <;> simp_all

/-! ## 3. The role list -/

def rolesClaim (roleList : Option (List JavaValue)) : Option JavaValue :=
  match roleList with
  | none | some [] => none
  | some roles => some (.list roles)

theorem lookup_withRoles {b b' : Builder} {roleList : Option (List JavaValue)}
    (h : withRoles b roleList = .ok b') (k : String) :
    b'.payloadClaims.lookup k =
      if k = "roles" then (rolesClaim roleList).or (b.payloadClaims.lookup k)
      else b.payloadClaims.lookup k := by
  rcases roleList with _ | _ | ⟨role, roles⟩
  · cases h
    simp [rolesClaim]
  · cases h
    simp [rolesClaim]
  · change b.withListClaim "roles" (role :: roles) = _ at h
    unfold withListClaim at h
    split_ifs at h
    cases h
    rw [lookup_addClaim]
    rfl

theorem headerClaims_withRoles {b b' : Builder} {roleList : Option (List JavaValue)}
    (h : withRoles b roleList = .ok b') : b'.headerClaims = b.headerClaims := by
  rcases roleList with _ | _ | ⟨role, roles⟩
  · cases h
    rfl
  · cases h
    rfl
  · change b.withListClaim "roles" (role :: roles) = _ at h
    unfold withListClaim at h
    split_ifs at h
    cases h
    exact headerClaims_addClaim _ _ _

/-! ## 4. Free names -/

theorem withClaim_ok {b b' : Builder} {name value : Option String}
    (h : b.withClaim name value = .ok b') :
    ∃ n, name = some n ∧ b' = b.addClaim n (value.map .string) := by
  cases name with
  | none => cases h
  | some n => exact ⟨n, rfl, (Except.ok.inj h).symm⟩

/-- What a list of free entries leaves under a name: an entry wins over what was there. -/
def freeClaim (entries : List (Σ _ : Option String, Option String)) (k : String)
    (before : Option JavaValue) : Option JavaValue :=
  match entries.dlookup (some k) with
  | some value => value.map .string
  | none => before

theorem lookup_foldlM_withClaim {entries : List (Σ _ : Option String, Option String)}
    (hnodup : entries.NodupKeys) {b b' : Builder}
    (h : entries.foldlM (fun b e => b.withClaim e.1 e.2) b = .ok b') (k : String) :
    b'.payloadClaims.lookup k = freeClaim entries k (b.payloadClaims.lookup k) := by
  induction entries generalizing b with
  | nil =>
    cases h
    rfl
  | cons e entries ih =>
    rw [List.foldlM_cons] at h
    obtain ⟨b₁, hb₁, hrest⟩ := Fallible.except_bind_ok h
    obtain ⟨name, value⟩ := e
    obtain ⟨n, rfl, rfl⟩ := withClaim_ok hb₁
    rw [List.nodupKeys_cons] at hnodup
    rw [ih hnodup.2 hrest, lookup_addClaim]
    by_cases hk : k = n
    · -- no later entry has this name
      subst hk
      have hnone : entries.dlookup (some k) = none := List.dlookup_eq_none.mpr hnodup.1
      simp [freeClaim, hnone]
    · have hne : (some k : Option String) ≠ some n := fun h => hk (Option.some.inj h)
      simp [freeClaim, List.dlookup_cons_ne entries ⟨some n, value⟩ hne, hk]

theorem headerClaims_foldlM_withClaim {entries : List (Σ _ : Option String, Option String)}
    {b b' : Builder} (h : entries.foldlM (fun b e => b.withClaim e.1 e.2) b = .ok b') :
    b'.headerClaims = b.headerClaims := by
  induction entries generalizing b with
  | nil =>
    cases h
    rfl
  | cons e entries ih =>
    rw [List.foldlM_cons] at h
    obtain ⟨b₁, hb₁, hrest⟩ := Fallible.except_bind_ok h
    obtain ⟨n, -, rfl⟩ := withClaim_ok hb₁
    rw [ih hrest, headerClaims_addClaim]

def customEntries (custom : Option (AList fun _ : Option String => Option String)) :
    List (Σ _ : Option String, Option String) :=
  match custom with
  | none => []
  | some custom => custom.entries

theorem nodupKeys_customEntries (custom : Option (AList fun _ : Option String => Option String)) :
    (customEntries custom).NodupKeys := by
  cases custom with
  | none => exact List.nodupKeys_nil
  | some custom => exact custom.nodupKeys

theorem withCustomClaims_eq (b : Builder)
    (custom : Option (AList fun _ : Option String => Option String)) :
    withCustomClaims b custom = (customEntries custom).foldlM (fun b e => b.withClaim e.1 e.2) b := by
  cases custom <;> rfl

/-! ## 5. Every entry of the claims-based builder -/

/-- The fixed claims and the roles, then the custom claims, then the two that every token has. -/
theorem claimsBuilder_ok {clock : TokenClock} {claims : JwtCustomClaim} {b : Builder}
    (h : claimsBuilder clock claims = .ok b) :
    ∃ b₁ b₂, withRoles (fixedClaims clock claims) claims.roleList = .ok b₁ ∧
      (customEntries claims.customStringClaim).foldlM (fun b e => b.withClaim e.1 e.2) b₁ = .ok b₂ ∧
      b = (b₂.addClaim claimKey (some (.string claimValue))).withNotBefore clock.notBefore := by
  unfold claimsBuilder at h
  obtain ⟨b₁, hroles, h⟩ := Fallible.except_bind_ok h
  obtain ⟨b₂, hcustom, h⟩ := Fallible.except_bind_ok h
  rw [withCustomClaims_eq] at hcustom
  cases h
  exact ⟨b₁, b₂, hroles, hcustom, rfl⟩

/-- What `createTokenByRSA256(JwtCustomClaim, RSAKeyPair)` leaves under a name. -/
theorem lookup_claimsBuilder {clock : TokenClock} {claims : JwtCustomClaim} {b : Builder}
    (h : claimsBuilder clock claims = .ok b) (k : String) :
    b.payloadClaims.lookup k =
      if k = "nbf" then some (.date clock.notBefore)
      else if k = claimKey then some (.string claimValue)
      else freeClaim (customEntries claims.customStringClaim) k
        (if k = "roles" then rolesClaim claims.roleList else fixedClaim clock claims k) := by
  obtain ⟨b₁, b₂, hroles, hcustom, rfl⟩ := claimsBuilder_ok h
  have hb₁ := lookup_withRoles hroles k
  have hb₂ := lookup_foldlM_withClaim (nodupKeys_customEntries _) hcustom k
  rw [lookup_fixedClaims] at hb₁
  rw [withNotBefore, lookup_addClaim, lookup_addClaim, hb₂, hb₁]
  by_cases hk : k = "roles"
  · subst hk
    simp [fixedClaim]
  · simp [hk]

theorem headerClaims_claimsBuilder {clock : TokenClock} {claims : JwtCustomClaim} {b : Builder}
    (h : claimsBuilder clock claims = .ok b) :
    b.headerClaims = (Builder.create.withHeader claims.headerClaims).headerClaims := by
  obtain ⟨b₁, b₂, hroles, hcustom, rfl⟩ := claimsBuilder_ok h
  rw [withNotBefore, headerClaims_addClaim, headerClaims_addClaim,
    headerClaims_foldlM_withClaim hcustom, headerClaims_withRoles hroles]
  unfold fixedClaims
  cases claims.issuedAt <;> cases claims.expiresAt <;> dsimp only <;>
    simp only [withExpiresAt, withIssuedAt, withIssuer, withJWTId, withSubject,
      headerClaims_addClaim] <;>
    split_ifs <;> simp only [headerClaims_addClaim]

/-! ## 6. Every entry of the overloads -/

theorem lookup_userClaims (clock : TokenClock) (userId : Option String) (expiresAt : ℤ)
    (k : String) :
    (userClaims clock userId expiresAt).payloadClaims.lookup k =
      if k = "exp" then some (.date expiresAt)
      else if k = "nbf" then some (.date clock.notBefore)
      else if k = "jti" then userId.map .string
      else none := by
  simp only [userClaims, withExpiresAt, withNotBefore, withJWTId, lookup_addClaim, lookup_create]

/-! ## 7. Issued tokens -/

theorem createdToken_of_not_error {r : Except JavaException String}
    (h : (createdToken r).error = false) :
    ∃ token, r = .ok token ∧
      createdToken r = ⟨some (encodeToString token), some "create success", false⟩ := by
  cases r with
  | error e => cases h
  | ok token => exact ⟨token, rfl, rfl⟩

theorem signedToken_of_not_error {p : Platform} {privateKey : Option p.PrivateKey}
    {claims : Except JavaException Builder} (h : (signedToken privateKey claims).error = false) :
    ∃ b token, claims = .ok b ∧ Nonempty (Signed b (⟨none, privateKey⟩ : Algorithm p) token) ∧
      signedToken privateKey claims =
        ⟨some (encodeToString token), some "create success", false⟩ := by
  obtain ⟨token, hok, htoken⟩ := createdToken_of_not_error h
  obtain ⟨algorithm, halgorithm, hok⟩ := Fallible.except_bind_ok hok
  obtain ⟨b, hb, hsign⟩ := Fallible.except_bind_ok hok
  unfold Algorithm.rsa256 at halgorithm
  split_ifs at halgorithm
  cases halgorithm
  exact ⟨b, token, hb, signed_of_sign hsign, htoken⟩

/-- The payload fields inside a token, as java-jwt's decoder reads them. -/
def tokenPayload (p : Platform) (t : Token) : Option (List (String × Json)) := do
  let text ← (decodeToString p (← t.token)).toOption
  let parts ← (splitToken text).toOption
  let bytes ← (decodeBase64 parts.payload).toOption
  (← (parseFields p (newString p bytes)).toOption)

theorem tokenPayload_signed {p : Platform} {b : Builder} {algorithm : Algorithm p} {token : String}
    (s : Signed b algorithm token) (message : Option String) (error : Bool) :
    tokenPayload p ⟨some (encodeToString token), message, error⟩ = some s.payload := by
  have hpayload := parseFields_writeJson (p := p) (payloadFields_distinct s.payloadFields)
  simp only [tokenPayload, decodeToString_encodeToString, s.splitToken_eq, Except.toOption,
    Signed.parts, decodeBase64_writePart, newString_getBytes, hpayload, Option.bind_eq_bind,
    Option.bind_some]

end UtilsRepo.Jwt
