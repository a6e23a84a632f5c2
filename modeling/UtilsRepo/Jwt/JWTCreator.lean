import UtilsRepo.Java.Object
import UtilsRepo.Lib.MapWrites

/-!
# java-jwt: creating a token

`JWTCreator.Builder` collects header and payload claims in one map each, where a later value of the
same name replaces the earlier one and a `null` value removes it; `sign` writes both maps as JSON
and signs them with RS256.
-/

namespace UtilsRepo.Jwt

/-- `Algorithm.RSA256`; a key that is not needed may be missing. -/
structure Algorithm (p : Platform) where
  publicKey : Option p.PublicKey
  privateKey : Option p.PrivateKey

def Algorithm.rsa256 {p : Platform} (publicKey : Option p.PublicKey)
    (privateKey : Option p.PrivateKey) : Except JavaException (Algorithm p) :=
  if publicKey.isNone ∧ privateKey.isNone then
    .error ⟨.illegalArgumentException, some "Both provided Keys cannot be null."⟩
  else .ok ⟨publicKey, privateKey⟩

-- `JWTCreator.Builder`
structure Builder where
  payloadClaims : AList fun _ : String => JavaValue
  headerClaims : AList fun _ : Option String => JavaValue

namespace Builder

-- `JWT.create()`
def create : Builder := ⟨∅, ∅⟩

def addClaim (b : Builder) (name : String) (value : Option JavaValue) : Builder :=
  match value with
  | none => { b with payloadClaims := b.payloadClaims.erase name }
  | some v => { b with payloadClaims := b.payloadClaims.insert name v }

def withSubject (b : Builder) (subject : Option String) : Builder :=
  b.addClaim "sub" (subject.map .string)

def withJWTId (b : Builder) (jwtId : Option String) : Builder :=
  b.addClaim "jti" (jwtId.map .string)

def withIssuer (b : Builder) (issuer : Option String) : Builder :=
  b.addClaim "iss" (issuer.map .string)

def withIssuedAt (b : Builder) (issuedAt : ℤ) : Builder :=
  b.addClaim "iat" (some (.date issuedAt))

def withExpiresAt (b : Builder) (expiresAt : ℤ) : Builder :=
  b.addClaim "exp" (some (.date expiresAt))

def withNotBefore (b : Builder) (notBefore : ℤ) : Builder :=
  b.addClaim "nbf" (some (.date notBefore))

def assertNonNull (name : Option String) : Except JavaException String :=
  match name with
  | none => .error ⟨.illegalArgumentException, some "The Custom Claim's name can't be null."⟩
  | some name => .ok name

-- `withClaim(String, String)`
def withClaim (b : Builder) (name value : Option String) : Except JavaException Builder := do
  let name ← assertNonNull name
  return b.addClaim name (value.map .string)

-- `withClaim(String, List)` of a list that is not `null`
def withListClaim (b : Builder) (name : String) (elements : List JavaValue) :
    Except JavaException Builder :=
  if JavaObject.validateElements (elements.map Subtype.val) then
    .ok (b.addClaim name (some (.list elements)))
  else .error ⟨.illegalArgumentException,
    some "Expected list containing Map, List, Boolean, Integer, Long, Double, String and Date"⟩

/-- One entry of a header map: a `null` value removes, others replace. -/
def addHeader (header : AList fun _ : Option String => JavaValue)
    (e : Σ _ : Option String, JavaValue) : AList fun _ : Option String => JavaValue :=
  if e.2.1.isNull then header.erase e.1 else header.insert e.1 e.2

def withHeader (b : Builder) (claims : Option (AList fun _ : Option String => JavaValue)) :
    Builder :=
  match claims with
  | none => b
  | some claims => { b with headerClaims := claims.entries.foldl addHeader b.headerClaims }

/-! ## 1. Writing the claims -/

/-- `PayloadSerializer`: a date at the top level becomes whole seconds.  The audience is only ever
a text here. -/
def serializeClaim (v : JavaValue) : Option Json :=
  match v.1 with
  | .date time => some (.int (time.tdiv 1000))
  | o => o.toJson

/-- The fields written for a map; `none` when a key or a value cannot be written. -/
def writeFields {κ : Type} (key : κ → Option String) (write : JavaValue → Option Json) :
    List (Σ _ : κ, JavaValue) → Option (List (String × Json))
  | [] => some []
  | ⟨k, v⟩ :: entries => do
      some ((← key k, ← write v) :: (← writeFields key write entries))

def payloadFields (b : Builder) : Option (List (String × Json)) :=
  writeFields some serializeClaim b.payloadClaims.entries

/-- The header map as `sign` completes it. -/
def signedHeader (b : Builder) : AList fun _ : Option String => JavaValue :=
  -- `alg` is always replaced, `typ` stays when the caller has set it
  let header := b.headerClaims.insert (some "alg") (.string "RS256")
  if some "typ" ∈ header then header else header.insert (some "typ") (.string "JWT")

def headerFields (b : Builder) : Option (List (String × Json)) :=
  writeFields id (fun v => v.1.toJson) b.signedHeader.entries

/-! ## 2. Signing -/

-- `Base64.encodeBase64URLSafeString`
def encodeUrlSafe (bytes : List UInt8) : String := String.ofList (Base64.encodeUrlSafe bytes)

-- the text a signature is over
def signedContent (header payload : String) : String := header ++ "." ++ payload

def signParts {p : Platform} (algorithm : Algorithm p) (header payload : String) :
    Except JavaException String :=
  match algorithm.privateKey.bind fun key => p.sign key (signedContent header payload) with
  | some signature => .ok (signedContent header payload ++ "." ++ encodeUrlSafe signature)
  | none => .error ⟨.signatureGenerationException, some ("The Token's Signature couldn't be " ++
      "generated when signing using the Algorithm: SHA256withRSA")⟩

def writePart (p : Platform) (fields : List (String × Json)) : String :=
  encodeUrlSafe (getBytes (p.writeJson (.obj fields)))

def sign {p : Platform} (b : Builder) (algorithm : Algorithm p) : Except JavaException String :=
  match b.headerFields, b.payloadFields with
  | some header, some payload => signParts algorithm (writePart p header) (writePart p payload)
  | _, _ => .error ⟨.jwtCreationException,
      some "Some of the Claims couldn't be converted to a valid JSON format."⟩

/-! ## 3. The claim map -/

@[simp] theorem lookup_create (k : String) : create.payloadClaims.lookup k = none := rfl

theorem lookup_addClaim (b : Builder) (name : String) (value : Option JavaValue) (k : String) :
    (b.addClaim name value).payloadClaims.lookup k =
      if k = name then value else b.payloadClaims.lookup k := by
  have hwrite : (b.addClaim name value).payloadClaims =
      MapWrites.write b.payloadClaims name value := by
    cases value <;> rfl
  rw [hwrite, MapWrites.lookup_write]

@[simp] theorem headerClaims_addClaim (b : Builder) (name : String) (value : Option JavaValue) :
    (b.addClaim name value).headerClaims = b.headerClaims := by
  cases value <;> rfl

@[simp] theorem payloadClaims_withHeader (b : Builder)
    (claims : Option (AList fun _ : Option String => JavaValue)) :
    (b.withHeader claims).payloadClaims = b.payloadClaims := by
  cases claims <;> rfl

theorem lookup_signedHeader_alg (b : Builder) :
    b.signedHeader.lookup (some "alg") = some (.string "RS256") := by
  unfold signedHeader
  dsimp only
  split_ifs
  · rw [AList.lookup_insert]
  · rw [AList.lookup_insert_ne (by decide), AList.lookup_insert]

/-! ## 4. The fields written -/

section writeFields

variable {κ : Type} {key : κ → Option String} {write : JavaValue → Option Json}
  {entries : List (Σ _ : κ, JavaValue)} {fields : List (String × Json)}

theorem writeFields_cons {k : κ} {v : JavaValue} :
    writeFields key write (⟨k, v⟩ :: entries) = some fields ↔
      ∃ name j rest, key k = some name ∧ write v = some j ∧
        writeFields key write entries = some rest ∧ fields = (name, j) :: rest := by
  simp only [writeFields, Option.bind_eq_bind, Option.bind_eq_some_iff, Option.some.injEq]
  constructor
  · rintro ⟨name, hname, j, hj, rest, hrest, rfl⟩
    exact ⟨name, j, rest, hname, hj, hrest, rfl⟩
  · rintro ⟨name, j, rest, hname, hj, hrest, rfl⟩
    exact ⟨name, hname, j, hj, rest, hrest, rfl⟩

theorem writeFields_keys (h : writeFields key write entries = some fields) :
    entries.keys.map key = fields.map (some ∘ Prod.fst) := by
  induction entries generalizing fields with
  | nil =>
    cases h
    rfl
  | cons e entries ih =>
    obtain ⟨name, j, rest, hname, -, hrest, rfl⟩ := writeFields_cons.mp h
    rw [List.keys_cons, List.map_cons, List.map_cons, ih hrest, hname]
    rfl

theorem writeFields_distinct (hkey : ∀ k k' name, key k = some name → key k' = some name → k = k')
    (hwrite : ∀ v j, write v = some j → j.DistinctKeys) (hnodup : entries.NodupKeys)
    (h : writeFields key write entries = some fields) : (Json.obj fields).DistinctKeys := by
  constructor
  · have hkeys := writeFields_keys h
    rw [← List.map_map] at hkeys
    refine List.Nodup.of_map some (hkeys ▸ List.Nodup.map_on ?_ hnodup)
    intro k hk k' _ heq
    -- every key was written, so equal names come from equal keys
    have hmem : key k ∈ (fields.map Prod.fst).map some := hkeys ▸ List.mem_map_of_mem hk
    obtain ⟨name, -, hname⟩ := List.mem_map.mp hmem
    exact hkey k k' name hname.symm (heq ▸ hname.symm)
  · clear hnodup
    induction entries generalizing fields with
    | nil =>
      cases h
      exact True.intro
    | cons e entries ih =>
      obtain ⟨name, j, rest, -, hj, hrest, rfl⟩ := writeFields_cons.mp h
      exact ⟨hwrite _ _ hj, ih hrest⟩

theorem lookup_writeFields [DecidableEq κ]
    (hkey : ∀ k k' name, key k = some name → key k' = some name → k = k')
    (h : writeFields key write entries = some fields) {k : κ} {name : String}
    (hk : key k = some name) : fields.lookup name = (entries.dlookup k).bind write := by
  induction entries generalizing fields with
  | nil =>
    cases h
    rfl
  | cons e entries ih =>
    obtain ⟨k', v⟩ := e
    obtain ⟨name', j, rest, hname', hj, hrest, rfl⟩ := writeFields_cons.mp h
    by_cases hkk : k = k'
    · subst hkk
      obtain rfl : name = name' := Option.some.inj (hk.symm.trans hname')
      rw [List.dlookup_cons_eq, Option.bind_some, List.lookup_cons_self, hj]
    · have hne : name ≠ name' := by
        rintro rfl
        exact hkk (hkey k k' name hk hname')
      rw [List.dlookup_cons_ne _ _ hkk, List.lookup_cons, beq_false_of_ne hne]
      exact ih hrest

end writeFields

theorem serializeClaim_distinctKeys {v : JavaValue} {j : Json} (h : serializeClaim v = some j) :
    j.DistinctKeys := by
  unfold serializeClaim at h
  split at h
  · cases h
    exact True.intro
  · exact JavaObject.toJson_distinctKeys _ v.2 h

theorem payloadFields_distinct {b : Builder} {fields : List (String × Json)}
    (h : b.payloadFields = some fields) : (Json.obj fields).DistinctKeys :=
  writeFields_distinct (fun _ _ _ h h' => Option.some.inj (h.trans h'.symm))
    (fun _ _ => serializeClaim_distinctKeys) b.payloadClaims.nodupKeys h

theorem headerFields_distinct {b : Builder} {fields : List (String × Json)}
    (h : b.headerFields = some fields) : (Json.obj fields).DistinctKeys :=
  writeFields_distinct (fun _ _ _ h h' => h.trans h'.symm)
    (fun v _ => JavaObject.toJson_distinctKeys _ v.2) b.signedHeader.nodupKeys h

theorem lookup_payloadFields {b : Builder} {fields : List (String × Json)}
    (h : b.payloadFields = some fields) (k : String) :
    fields.lookup k = (b.payloadClaims.lookup k).bind serializeClaim :=
  lookup_writeFields (fun _ _ _ h h' => Option.some.inj (h.trans h'.symm)) h rfl

theorem lookup_headerFields {b : Builder} {fields : List (String × Json)}
    (h : b.headerFields = some fields) (k : String) :
    fields.lookup k = (b.signedHeader.lookup (some k)).bind fun v => v.1.toJson :=
  lookup_writeFields (fun _ _ _ h h' => h.trans h'.symm) h rfl

end Builder

end UtilsRepo.Jwt
