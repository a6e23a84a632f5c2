import UtilsRepo.Jwt.CompactPlatform
import UtilsRepo.Jwt.VerifiedToken

/-!
# Creating and verifying with the same claims

The claims-based builder leaves out a blank subject, id or issuer, the verifier asks for every one
that is not `null`: the two agree exactly on claims without blank texts.
-/

namespace UtilsRepo.Jwt

open Builder

variable {p : Platform}

/-! ## 1. Which claims can be written -/

/-- A header entry that `sign` can write, or that never reaches it. -/
def HeaderEntryWritable (e : Σ _ : Option String, JavaValue) : Prop :=
  e.2.1.isNull = true ∨ e.1 = some "alg" ∨ (e.1.isSome ∧ e.2.1.toJson.isSome)

def headerEntries (headerClaims : Option (AList fun _ : Option String => JavaValue)) :
    List (Σ _ : Option String, JavaValue) :=
  match headerClaims with
  | none => []
  | some headerClaims => headerClaims.entries

/-- What a token can be made of. -/
structure Creatable (claims : JwtCustomClaim) : Prop where
  header : ∀ e ∈ headerEntries claims.headerClaims, HeaderEntryWritable e
  roles : ∀ roles, claims.roleList = some roles →
    JavaObject.validateElements (roles.map Subtype.val) = true
  custom : ∀ e ∈ customEntries claims.customStringClaim, e.1.isSome

theorem writeFields_isSome_iff {κ : Type} {key : κ → Option String}
    {write : JavaValue → Option Json} {entries : List (Σ _ : κ, JavaValue)} :
    (writeFields key write entries).isSome ↔
      ∀ e ∈ entries, (key e.1).isSome ∧ (write e.2).isSome := by
  induction entries with
  | nil => exact iff_of_true rfl (by simp)
  | cons e entries ih =>
    obtain ⟨k, v⟩ := e
    rw [List.forall_mem_cons, ← ih, Option.isSome_iff_exists]
    simp only [writeFields_cons]
    constructor
    · rintro ⟨_, name, j, rest, hname, hj, hrest, -⟩
      exact ⟨⟨Option.isSome_of_eq_some hname, Option.isSome_of_eq_some hj⟩,
        Option.isSome_of_eq_some hrest⟩
    · rintro ⟨⟨hname, hj⟩, hrest⟩
      obtain ⟨name, hname⟩ := Option.isSome_iff_exists.mp hname
      obtain ⟨j, hj⟩ := Option.isSome_iff_exists.mp hj
      obtain ⟨rest, hrest⟩ := Option.isSome_iff_exists.mp hrest
      exact ⟨_, name, j, rest, hname, hj, hrest, rfl⟩

theorem lookup_foldl_addHeader {entries : List (Σ _ : Option String, JavaValue)}
    (hnodup : entries.NodupKeys) (header : AList fun _ : Option String => JavaValue)
    (k : Option String) :
    (entries.foldl addHeader header).lookup k =
      match entries.dlookup k with
      | some v => if v.1.isNull then none else some v
      | none => header.lookup k := by
  have hwrite : addHeader = fun header e =>
      MapWrites.write header e.1 (if e.2.1.isNull then none else some e.2) := by
    funext header e
    unfold addHeader
    split_ifs <;> rfl
  rw [hwrite]
  cases hlookup : entries.dlookup k with
  | some v =>
    exact MapWrites.lookup_foldl_write_of_mem Sigma.fst _ hnodup (List.of_mem_dlookup hlookup)
  | none =>
    exact MapWrites.lookup_foldl_write_of_notMem Sigma.fst _ (List.dlookup_eq_none.mp hlookup)

theorem lookup_signedHeader (b : Builder) (k : Option String) :
    b.signedHeader.lookup k =
      if k = some "alg" then some (.string "RS256")
      else (b.headerClaims.lookup k).or (if k = some "typ" then some (.string "JWT") else none) := by
  by_cases halg : k = some "alg"
  · rw [if_pos halg, halg, lookup_signedHeader_alg]
  · have hinsert : (b.headerClaims.insert (some "alg") (.string "RS256")).lookup k =
        b.headerClaims.lookup k := AList.lookup_insert_ne halg
    rw [if_neg halg]
    unfold signedHeader
    dsimp only
    by_cases htyp : k = some "typ"
    · subst htyp
      rw [if_pos rfl]
      split_ifs with hmem
      · obtain ⟨v, hv⟩ := Option.isSome_iff_exists.mp (AList.lookup_isSome.mpr hmem)
        rw [hinsert] at hv
        rw [hinsert, hv]
        rfl
      · rw [← hinsert, AList.lookup_eq_none.mpr hmem, AList.lookup_insert]
        rfl
    · rw [if_neg htyp, Option.or_none]
      split_ifs
      · exact hinsert
      · rw [AList.lookup_insert_ne htyp, hinsert]

theorem nodupKeys_headerEntries
    (headerClaims : Option (AList fun _ : Option String => JavaValue)) :
    (headerEntries headerClaims).NodupKeys := by
  unfold headerEntries
  split
  · exact List.nodupKeys_nil
  · exact AList.nodupKeys _

theorem lookup_withHeader (headerClaims : Option (AList fun _ : Option String => JavaValue))
    (k : Option String) :
    (Builder.create.withHeader headerClaims).headerClaims.lookup k =
      ((headerEntries headerClaims).dlookup k).bind fun v =>
        if v.1.isNull then none else some v := by
  cases headerClaims with
  | none => rfl
  | some header =>
    have h := lookup_foldl_addHeader (nodupKeys_headerEntries (some header)) ∅ k
    change (header.entries.foldl addHeader ∅).lookup k = (header.entries.dlookup k).bind _
    rw [show header.entries = headerEntries (some header) from rfl, h]
    cases (headerEntries (some header)).dlookup k <;> rfl

theorem headerFields_isSome_iff {b : Builder} {claims : JwtCustomClaim}
    (h : b.headerClaims = (Builder.create.withHeader claims.headerClaims).headerClaims) :
    b.headerFields.isSome ↔ ∀ e ∈ headerEntries claims.headerClaims, HeaderEntryWritable e := by
  have hnodup := nodupKeys_headerEntries claims.headerClaims
  have hlookup : ∀ k, b.headerClaims.lookup k =
      ((headerEntries claims.headerClaims).dlookup k).bind fun v =>
        if v.1.isNull then none else some v := by
    intro k
    rw [h, lookup_withHeader]
  unfold headerFields
  rw [writeFields_isSome_iff, MapWrites.forall_mem_entries_iff b.signedHeader
    (P := fun k v => (id k).isSome ∧ v.1.toJson.isSome)]
  constructor
  · rintro hall ⟨k, v⟩ he
    by_cases hnull : v.1.isNull = true
    · exact Or.inl hnull
    by_cases halg : k = some "alg"
    · exact Or.inr (Or.inl halg)
    refine Or.inr (Or.inr (hall k v ?_))
    rw [lookup_signedHeader, if_neg halg, hlookup, (List.mem_dlookup_iff hnodup).mpr he]
    simp [hnull]
  · intro hall k v hv
    by_cases halg : k = some "alg"
    · rw [lookup_signedHeader, if_pos halg] at hv
      cases hv
      exact ⟨by rw [halg]; rfl, rfl⟩
    rw [lookup_signedHeader, if_neg halg, Option.or_eq_some_iff, hlookup] at hv
    obtain hv | ⟨-, hv⟩ := hv
    · -- an entry of the caller's that is not `null`
      obtain ⟨v', hentry, hv⟩ := Option.bind_eq_some_iff.mp hv
      split_ifs at hv with hnull
      cases hv
      have hwritable := hall ⟨k, v⟩ (List.of_mem_dlookup hentry)
      exact (hwritable.resolve_left hnull).resolve_left halg
    · -- the type `sign` adds
      split_ifs at hv with htyp
      cases hv
      exact ⟨by rw [htyp]; rfl, rfl⟩

theorem withRoles_ok_iff {b : Builder} {roleList : Option (List JavaValue)} :
    (∃ b', withRoles b roleList = .ok b') ↔
      ∀ roles, roleList = some roles →
        JavaObject.validateElements (roles.map Subtype.val) = true := by
  rcases roleList with _ | _ | ⟨role, roles⟩
  · exact iff_of_true ⟨b, rfl⟩ (fun _ h => nomatch h)
  · refine iff_of_true ⟨b, rfl⟩ ?_
    rintro _ ⟨⟩
    rfl
  · change (∃ b', b.withListClaim "roles" (role :: roles) = .ok b') ↔ _
    unfold withListClaim
    split_ifs with h
    · refine iff_of_true ⟨_, rfl⟩ ?_
      rintro _ ⟨⟩
      exact h
    · exact iff_of_false (fun ⟨_, h'⟩ => nomatch h') (fun h' => h (h' _ rfl))

theorem foldlM_withClaim_ok_iff {entries : List (Σ _ : Option String, Option String)}
    {b : Builder} :
    (∃ b', entries.foldlM (fun b e => b.withClaim e.1 e.2) b = .ok b') ↔
      ∀ e ∈ entries, e.1.isSome := by
  induction entries generalizing b with
  | nil => exact iff_of_true ⟨b, rfl⟩ (by simp)
  | cons e entries ih =>
    obtain ⟨_ | name, value⟩ := e
    · refine iff_of_false (fun ⟨_, h⟩ => nomatch h) ?_
      intro h
      exact absurd (h _ List.mem_cons_self) (by simp)
    · rw [List.forall_mem_cons]
      exact ih.trans (iff_of_eq (by simp))

theorem claimsBuilder_ok_iff (clock : TokenClock) {claims : JwtCustomClaim} :
    (∃ b, claimsBuilder clock claims = .ok b) ↔
      (∀ roles, claims.roleList = some roles →
        JavaObject.validateElements (roles.map Subtype.val) = true) ∧
      ∀ e ∈ customEntries claims.customStringClaim, e.1.isSome := by
  rw [← withRoles_ok_iff (b := fixedClaims clock claims)]
  constructor
  · rintro ⟨b, h⟩
    obtain ⟨b₁, b₂, hroles, hcustom, -⟩ := claimsBuilder_ok h
    exact ⟨⟨b₁, hroles⟩, foldlM_withClaim_ok_iff.mp ⟨b₂, hcustom⟩⟩
  · rintro ⟨⟨b₁, hroles⟩, hcustom⟩
    obtain ⟨b₂, hcustom⟩ := (foldlM_withClaim_ok_iff (b := b₁)).mpr hcustom
    rw [← withCustomClaims_eq] at hcustom
    refine ⟨((b₂.addClaim claimKey (some (.string claimValue))).withNotBefore clock.notBefore), ?_⟩
    simp only [claimsBuilder, hroles, hcustom, bind, Except.bind]
    rfl

theorem payloadFields_claimsBuilder {clock : TokenClock} {claims : JwtCustomClaim} {b : Builder}
    (h : claimsBuilder clock claims = .ok b) : b.payloadFields.isSome := by
  have hroles := ((claimsBuilder_ok_iff clock).mp ⟨b, h⟩).1
  have hstring : ∀ (s : Option String) (v : JavaValue), s.map JavaValue.string = some v →
      (serializeClaim v).isSome := by
    rintro (_ | s) v hv
    · cases hv
    · cases hv
      rfl
  unfold payloadFields
  rw [writeFields_isSome_iff, MapWrites.forall_mem_entries_iff b.payloadClaims
    (P := fun k v => (some k).isSome ∧ (serializeClaim v).isSome)]
  intro k v hv
  refine ⟨rfl, ?_⟩
  rw [lookup_claimsBuilder h] at hv
  split_ifs at hv with hnbf hsalt hrole
  · cases hv
    rfl
  · cases hv
    rfl
  · unfold freeClaim at hv
    split at hv
    · exact hstring _ v hv
    · rcases hr : claims.roleList with _ | _ | ⟨role, roles⟩
      · rw [hr] at hv
        cases hv
      · rw [hr] at hv
        cases hv
      · rw [hr] at hv
        cases hv
        exact JavaObject.toJson_isSome (.list _) (hroles _ hr)
  · unfold freeClaim at hv
    split at hv
    · exact hstring _ v hv
    · unfold fixedClaim at hv
      split_ifs at hv
      · cases hv
        rfl
      · cases hv
        rfl
      · exact hstring _ v hv
      · exact hstring _ v hv
      · exact hstring _ v hv

/-! ## 2. Creating -/

/-- A key pair that can be used: its halves belong together and the private one signs. -/
def RSAKeyPair.Valid (keyPair : RSAKeyPair p) : Prop :=
  ∃ privateKey publicKey, keyPair.privateKeyOrigin = some privateKey ∧
    keyPair.publicKeyOrigin = some publicKey ∧ p.Paired privateKey publicKey ∧
    ∀ text, (p.sign privateKey text).isSome

theorem creatable_of_not_error {clock : TokenClock} {claims : JwtCustomClaim}
    {keyPair : RSAKeyPair p}
    (h : (createTokenByRSA256 p clock claims keyPair).error = false) : Creatable claims := by
  obtain ⟨b, token, hb, ⟨s⟩, -⟩ := signedToken_of_not_error h
  obtain ⟨hroles, hcustom⟩ := (claimsBuilder_ok_iff clock).mp ⟨b, hb⟩
  have hheader := (headerFields_isSome_iff (headerClaims_claimsBuilder hb)).mp
    (Option.isSome_of_eq_some s.headerFields)
  exact ⟨hheader, hroles, hcustom⟩

theorem create_of_creatable (clock : TokenClock) {claims : JwtCustomClaim} {keyPair : RSAKeyPair p}
    (hvalid : keyPair.Valid) (h : Creatable claims) :
    (createTokenByRSA256 p clock claims keyPair).error = false := by
  obtain ⟨privateKey, publicKey, hprivate, -, -, hsign⟩ := hvalid
  obtain ⟨b, hb⟩ := (claimsBuilder_ok_iff clock).mpr ⟨h.roles, h.custom⟩
  obtain ⟨header, hheader⟩ := Option.isSome_iff_exists.mp
    ((headerFields_isSome_iff (headerClaims_claimsBuilder hb)).mpr h.header)
  obtain ⟨payload, hpayload⟩ := Option.isSome_iff_exists.mp (payloadFields_claimsBuilder hb)
  obtain ⟨token, htoken⟩ := sign_of_fields ⟨none, some privateKey⟩ hheader hpayload rfl
    hsign
  unfold createTokenByRSA256 signedToken
  simp only [hprivate, hb, Algorithm.rsa256, Option.isNone_some, Bool.false_eq_true, and_false,
    if_false, bind, Except.bind, htoken]
  rfl

/-! ## 3. The payload of claims with their own names -/

def ownNames : List String := ["sub", "jti", "iss", "iat", "exp", "roles", claimKey, "nbf"]

/-- The custom entries have other names than the builder's. -/
def CustomNamesFree (claims : JwtCustomClaim) : Prop :=
  ∀ e ∈ customEntries claims.customStringClaim, ∀ n ∈ ownNames, e.1 ≠ some n

theorem freeClaim_of_names_free {claims : JwtCustomClaim} (h : CustomNamesFree claims) {k : String}
    (hk : k ∈ ownNames) (before : Option JavaValue) :
    freeClaim (customEntries claims.customStringClaim) k before = before := by
  unfold freeClaim
  split
  · next value hvalue => exact absurd rfl (h _ (List.of_mem_dlookup hvalue) k hk)
  · rfl

/-- The payload a verifier reads out of a claims-based token. -/
structure TypedPayload (clock : TokenClock) (claims : JwtCustomClaim) (payload : Payload) : Prop where
  subject : payload.subject = written claims.subject
  id : payload.id = written claims.tid
  issuer : payload.issuer = written claims.issuer
  salt : payload.claimAsString (some claimKey) = some claimValue
  expiresAt : payload.expiresAt = some (truncated (expiresAtOf clock claims))
  issuedAt : payload.issuedAt = some (truncated (issuedAtOf clock claims))
  notBefore : payload.notBefore = some (truncated clock.notBefore)

theorem inLong_toInt (n : Int64) : InLong n.toInt := ⟨n.le_toInt, n.toInt_lt⟩

theorem inLong_expiresAtOf (clock : TokenClock) (claims : JwtCustomClaim) :
    InLong (expiresAtOf clock claims) := by
  have hle := clock.base_le
  have hrange := clock.inRange
  unfold expiresAtOf
  split
  · exact inLong_toInt _
  · unfold InLong
    omega

theorem inLong_issuedAtOf (clock : TokenClock) (claims : JwtCustomClaim) :
    InLong (issuedAtOf clock claims) := by
  have hle := clock.base_le
  have hrange := clock.inRange
  unfold issuedAtOf
  split
  · exact inLong_toInt _
  · unfold InLong
    omega

theorem typedPayload {clock : TokenClock} {claims : JwtCustomClaim} {b : Builder}
    {algorithm : Algorithm p} {token : String} (hb : claimsBuilder clock claims = .ok b)
    (s : Signed b algorithm token) (hfree : CustomNamesFree claims) :
    ∃ payload, deserialize p s.payload = .ok payload ∧ TypedPayload clock claims payload := by
  -- a typed field reaches the payload, since no custom entry has its name
  have hown : ∀ k ∈ ownNames, k ≠ "nbf" → k ≠ claimKey → k ≠ "roles" →
      s.payload.lookup k = (fixedClaim clock claims k).bind serializeClaim := by
    intro k hk hnbf hsalt hroles
    rw [s.lookup_payload, lookup_claimsBuilder hb, if_neg hnbf, if_neg hsalt, if_neg hroles,
      freeClaim_of_names_free hfree hk]
  have htext : ∀ t : Option String, (t.map JavaValue.string).bind serializeClaim = t.map .str := by
    rintro (_ | t) <;> rfl
  have hexp : s.payload.lookup "exp" = (some (expiresAtOf clock claims)).bind seconds :=
    hown "exp" (by decide) (by decide) (by decide) (by decide)
  have hiat : s.payload.lookup "iat" = (some (issuedAtOf clock claims)).bind seconds :=
    hown "iat" (by decide) (by decide) (by decide) (by decide)
  have hnbf : s.payload.lookup "nbf" = (some (clock.notBefore : ℤ)).bind seconds := by
    rw [s.lookup_payload, lookup_claimsBuilder hb, if_pos rfl]
    rfl
  have hsalt : s.payload.lookup claimKey = some (.str claimValue) := by
    rw [s.lookup_payload, lookup_claimsBuilder hb, if_neg (by decide), if_pos rfl]
    rfl
  have hsub : s.payload.lookup "sub" = (written claims.subject).map .str :=
    (hown "sub" (by decide) (by decide) (by decide) (by decide)).trans (htext _)
  have hjti : s.payload.lookup "jti" = (written claims.tid).map .str :=
    (hown "jti" (by decide) (by decide) (by decide) (by decide)).trans (htext _)
  have hiss : s.payload.lookup "iss" = (written claims.issuer).map .str :=
    (hown "iss" (by decide) (by decide) (by decide) (by decide)).trans (htext _)
  -- the only entry under `aud` is a custom text
  have haud : ∀ j, s.payload.lookup "aud" = some j → ∃ t, j = .str t := by
    intro j hj
    rw [s.lookup_payload, lookup_claimsBuilder hb, if_neg (by decide), if_neg (by decide),
      if_neg (by decide)] at hj
    unfold freeClaim at hj
    split at hj
    · rw [htext] at hj
      obtain ⟨t, -, rfl⟩ := Option.map_eq_some_iff.mp hj
      exact ⟨t, rfl⟩
    · cases hj
  obtain ⟨audience, hd⟩ := deserialize_dates (p := p) _ _ _ _ haud
    hexp (by rintro _ ⟨⟩; exact inLong_expiresAtOf clock claims)
    hnbf (by rintro _ ⟨⟩; exact inLong_notBefore clock)
    hiat (by rintro _ ⟨⟩; exact inLong_issuedAtOf clock claims)
  refine ⟨_, hd, getString_str hsub, getString_str hjti, getString_str hiss, ?_, rfl, rfl, rfl⟩
  rw [Payload.claimAsString, Option.bind_some, hsalt]

/-! ## 4. Verifying with other claims -/

/-- Which claims `c₂` accept a token made from `c₁`, while the token is alive. -/
theorem verify_other_iff {clock : TokenClock} {c₁ : JwtCustomClaim} (c₂ : JwtCustomClaim)
    {keyPair : RSAKeyPair p} (hvalid : keyPair.Valid) (hfree : CustomNamesFree c₁)
    (hissued : ∀ d, c₁.issuedAt = some d → d.toInt ≤ clock.notBefore) {token : Token}
    (htoken : createTokenByRSA256 p clock c₁ keyPair = token) (herror : token.error = false)
    {now : ℕ} (hstart : clock.notBefore ≤ now) (hend : now ≤ expiresAtOf clock c₁) :
    ∃ text, token = ⟨some text, some "create success", false⟩ ∧
      ((verifyTokenByRSA256 p now text c₂ keyPair.publicKeyOrigin).error = false ↔
        (∀ s, c₂.subject = some s → written c₁.subject = some s) ∧
        (∀ s, c₂.tid = some s → written c₁.tid = some s) ∧
        ∀ s, c₂.issuer = some s → written c₁.issuer = some s) := by
  obtain ⟨privateKey, publicKey, hprivate, hpublic, hpaired, -⟩ := hvalid
  rw [← htoken] at herror
  obtain ⟨b, text, hb, ⟨s⟩, heq⟩ := signedToken_of_not_error herror
  refine ⟨encodeToString text, htoken.symm.trans heq, ?_⟩
  have hverifier : verifyTokenByRSA256 p now (encodeToString text) c₂ keyPair.publicKeyOrigin =
      verifiedToken (encodeToString text) now
        (.ok (claimsVerifier (⟨some publicKey, none⟩ : Algorithm p) c₂)) := by
    rw [hpublic]
    rfl
  have hsignature : p.verify publicKey
      (signedContent (writePart p s.header) (writePart p s.payload)) s.signature = true :=
    hpaired _ _ (s.sign_of_key hprivate)
  obtain ⟨payload, hd, typed⟩ := typedPayload hb s hfree
  have hissuedAt : truncated (issuedAtOf clock c₁) ≤ today now := by
    apply truncated_le_today
    unfold issuedAtOf
    split
    · next d hd => exact le_trans (hissued d hd) (by omega)
    · have hle := clock.base_le
      omega
  -- the clock is between the dates also after both were cut to seconds
  have hexpiresAt := today_le_truncated hend
  have hnotBefore : truncated clock.notBefore ≤ today now := truncated_le_today (by omega)
  rw [hverifier, verifiedToken_success_iff, verify_signed_iff s]
  simp only [hd, Except.ok.injEq, exists_eq_left', algorithm_claimsVerifier, Option.any_some,
    hsignature, true_and, meets_claimsVerifier_iff]
  constructor
  · intro h
    exact ⟨fun s hs => typed.subject.symm.trans (h.subject s hs),
      fun s hs => typed.id.symm.trans (h.id s hs),
      fun s hs => typed.issuer.symm.trans (h.issuer s hs)⟩
  · rintro ⟨hsubject, htid, hissuer⟩
    refine ⟨fun s hs => typed.subject.trans (hsubject s hs), fun s hs => typed.id.trans (htid s hs),
      fun s hs => typed.issuer.trans (hissuer s hs), typed.salt, ?_, ?_, ?_⟩
    · rw [typed.expiresAt]
      rintro _ ⟨⟩
      omega
    · rw [typed.issuedAt]
      rintro _ ⟨⟩
      omega
    · rw [typed.notBefore]
      rintro _ ⟨⟩
      omega

/-! ## 5. Verifying with the same claims -/

/-- A token is made, and verifies with the claims it was made from until it expires. -/
def Agrees (p : Platform) (clock : TokenClock) (claims : JwtCustomClaim) (keyPair : RSAKeyPair p) :
    Prop :=
  ∃ text, createTokenByRSA256 p clock claims keyPair =
      ⟨some text, some "create success", false⟩ ∧
    ∀ now : ℕ, clock.notBefore ≤ now → now ≤ expiresAtOf clock claims →
      verifyTokenByRSA256 p now text claims keyPair.publicKeyOrigin =
        ⟨some text, some "verify success", false⟩

/-- Subject, id and issuer are each missing or not blank. -/
def NoBlankIdentity (claims : JwtCustomClaim) : Prop :=
  ∀ s, claims.subject = some s ∨ claims.tid = some s ∨ claims.issuer = some s → HasText s

section Agrees

variable {clock : TokenClock} {claims : JwtCustomClaim} {keyPair : RSAKeyPair p}

theorem creatable_of_agrees (h : Agrees p clock claims keyPair) : Creatable claims := by
  obtain ⟨text, hcreate, -⟩ := h
  have hnoerror : (createTokenByRSA256 p clock claims keyPair).error = false := by rw [hcreate]
  exact creatable_of_not_error hnoerror

theorem noBlankIdentity_of_agrees (hvalid : keyPair.Valid) (hfree : CustomNamesFree claims)
    (hissued : ∀ d, claims.issuedAt = some d → d.toInt ≤ clock.notBefore)
    (hwindow : clock.notBefore ≤ expiresAtOf clock claims) (h : Agrees p clock claims keyPair) :
    NoBlankIdentity claims := by
  obtain ⟨text, hcreate, hverify⟩ := h
  obtain ⟨text', htext, hiff⟩ := verify_other_iff claims hvalid hfree hissued hcreate rfl
    (Nat.le_refl _) hwindow
  obtain rfl : text = text' := Option.some.inj (congrArg Token.token htext)
  obtain ⟨hsubject, htid, hissuer⟩ := hiff.mp
    (by rw [hverify _ (Nat.le_refl _) hwindow])
  rintro s (hs | hs | hs)
  · exact (written_eq_some_iff.mp (hsubject s hs)).2
  · exact (written_eq_some_iff.mp (htid s hs)).2
  · exact (written_eq_some_iff.mp (hissuer s hs)).2

theorem agrees_of_creatable (hvalid : keyPair.Valid) (hfree : CustomNamesFree claims)
    (hissued : ∀ d, claims.issuedAt = some d → d.toInt ≤ clock.notBefore)
    (hcreatable : Creatable claims)
    (hblank : clock.notBefore ≤ expiresAtOf clock claims → NoBlankIdentity claims) :
    Agrees p clock claims keyPair := by
  have herror := create_of_creatable clock hvalid hcreatable
  obtain ⟨b, token, -, -, hcreate⟩ := signedToken_of_not_error herror
  refine ⟨encodeToString token, hcreate, fun now hstart hend => ?_⟩
  have hidentity := hblank (le_trans (by omega) hend)
  obtain ⟨text, htext, hiff⟩ := verify_other_iff claims hvalid hfree hissued hcreate rfl
    hstart hend
  obtain rfl : encodeToString token = text := Option.some.inj (congrArg Token.token htext)
  apply verifiedToken_eq_of_not_error
  apply hiff.mpr
  exact ⟨fun s hs => written_eq_some_iff.mpr ⟨hs, hidentity s (Or.inl hs)⟩,
    fun s hs => written_eq_some_iff.mpr ⟨hs, hidentity s (Or.inr (Or.inl hs))⟩,
    fun s hs => written_eq_some_iff.mpr ⟨hs, hidentity s (Or.inr (Or.inr hs))⟩⟩

end Agrees

/-- Builder and verifier agree exactly on claims that can be written and have no blank identity. -/
theorem create_verify_agrees_iff (clock : TokenClock) (c : ClaimBuilder) (keyPair : RSAKeyPair p)
    (hvalid : keyPair.Valid) (hfree : CustomNamesFree c.build)
    (hissued : ∀ d, c.issuedAt = some d → d.toInt ≤ clock.notBefore) :
    Agrees p clock c.build keyPair ↔
      Creatable c.build ∧
        (clock.notBefore ≤ expiresAtOf clock c.build → NoBlankIdentity c.build) := by
  constructor
  · intro h
    exact ⟨creatable_of_agrees h,
      fun hwindow => noBlankIdentity_of_agrees hvalid hfree hissued hwindow h⟩
  · rintro ⟨hcreatable, hblank⟩
    exact agrees_of_creatable hvalid hfree hissued hcreatable hblank

theorem compactKeyPair_valid : compactKeyPair.Valid :=
  ⟨_, _, rfl, rfl, compactPlatform_paired 7, compactPlatform_sign_isSome _⟩

theorem create_verify_agrees_alice :
    Agrees compactPlatform morning
      (ClaimBuilder.new (some "t1") (some "alice") (some "center")).build compactKeyPair := by
  refine (create_verify_agrees_iff morning
    (ClaimBuilder.new (some "t1") (some "alice") (some "center")) compactKeyPair
    compactKeyPair_valid (fun _ h => nomatch h) (fun _ h => nomatch h)).mpr ⟨⟨?_, ?_, ?_⟩, ?_⟩
  · exact fun _ h => nomatch h
  · exact fun _ h => nomatch h
  · exact fun _ h => nomatch h
  · rintro - s (⟨⟨⟩⟩ | ⟨⟨⟩⟩ | ⟨⟨⟩⟩) <;> decide

theorem create_verify_disagrees_blank_subject :
    compactKeyPair.Valid ∧ ¬ Agrees compactPlatform morning
      (ClaimBuilder.new (some "t1") (some " ") (some "center")).build compactKeyPair := by
  refine ⟨compactKeyPair_valid, fun h => ?_⟩
  refine absurd (noBlankIdentity_of_agrees compactKeyPair_valid ?_ ?_ ?_ h " " (Or.inl rfl))
    (by decide)
  · exact fun _ h => nomatch h
  · exact fun _ h => nomatch h
  · decide

end UtilsRepo.Jwt
