import UtilsRepo.Jwt.CompactPlatform
import UtilsRepo.Jwt.Identity

/-!
# Changing keys

`RSAKeyStorage` in the authentication center and `RSAPublicKeyStorage` in the services.  The center
changes its keys, what it answers is passed on to the services late, twice, in any order or not at all,
and tokens go from the one to the others.  A service accepts the tokens made under the key it was told
last, and no others.
-/

namespace UtilsRepo.Jwt

open Builder

variable {p : Platform}

/-! ## 1. The storages -/

/-- The key pairs `java.security` generates one after the other: each can be used, and a signature made
with one is none for another. -/
structure KeyPairGenerator (p : Platform) where
  privateKey : ℕ → p.PrivateKey
  publicKey : ℕ → p.PublicKey
  paired : ∀ n, p.Paired (privateKey n) (publicKey n)
  signs : ∀ n text, (p.sign (privateKey n) text).isSome
  unrelated : ∀ m n, m ≠ n → ∀ text signature, p.sign (privateKey m) text = some signature →
    p.verify (publicKey n) text signature = false

/-- An `RSAKeyPair` as it is generated, with the text of its public key. -/
structure GeneratedKeyPair (p : Platform) where
  publicKey : String
  origin : RSAKeyPair p

namespace KeyPairGenerator

variable (g : KeyPairGenerator p)

-- `RSAKeyGenerator.generate()`, for the n-th time
def generate (n : ℕ) : GeneratedKeyPair p where
  publicKey := String.ofList (Base64.encode (p.getEncoded (g.publicKey n)))
  origin := ⟨some (g.publicKey n), some (g.privateKey n)⟩

theorem valid_generate (n : ℕ) : (g.generate n).origin.Valid :=
  ⟨_, _, rfl, rfl, g.paired n, g.signs n⟩

@[simp] theorem convertToPublicKey_generate (n : ℕ) :
    convertToPublicKey p (some (g.generate n).publicKey) = .ok (g.publicKey n) := by
  simp only [generate, convertToPublicKey, String.toList_ofList, Base64.decodeStrict_encode,
    p.generatePublic_getEncoded]

end KeyPairGenerator

/-- What `generate` is declared to throw. -/
inductive GenerateException where
  | noSuchAlgorithmException (message : Option String)
  | unsupportedEncodingException (message : Option String)

def GenerateException.getMessage : GenerateException → Option String
  | noSuchAlgorithmException message | unsupportedEncodingException message => message

structure JwtChangeKeyException where
  message : Option String

structure RSAKeyStorage (p : Platform) where
  keyStore : Option (GeneratedKeyPair p)

namespace RSAKeyStorage

-- `changeKey()`, and `loadStorage()`, which only calls it
def changeKey (storage : RSAKeyStorage p)
    (generated : Except GenerateException (GeneratedKeyPair p)) :
    Except JwtChangeKeyException String × RSAKeyStorage p :=
  match generated with
  | .ok keyPair => (.ok keyPair.publicKey, ⟨some keyPair⟩)
  | .error e => (.error ⟨e.getMessage⟩, storage)

-- `createTokenByRSA256(claims, RSAKeyStorage.getSavedKeyPair())`
def createToken (storage : RSAKeyStorage p) (clock : TokenClock) (claims : JwtCustomClaim) : Token :=
  match storage.keyStore with
  -- the `NullPointerException` is caught
  | none => ⟨none, none, true⟩
  | some keyPair => createTokenByRSA256 p clock claims keyPair.origin

end RSAKeyStorage

structure RSAPublicKeyStorage where
  keyStore : Option String
  claimStore : Option JwtCustomClaim

namespace RSAPublicKeyStorage

-- `loadStorage(newKey, claimStore)`
def loadStorage (newKey : Option String) (claimStore : Option JwtCustomClaim) :
    RSAPublicKeyStorage :=
  ⟨newKey, claimStore⟩

-- `verifyTokenByRSA256(token, getSavedClaim(), convertToPublicKey(getSavedPublicKey()))`
def verifyToken (p : Platform) (storage : RSAPublicKeyStorage) (now : ℕ) (token : String) :
    Except JavaException Token := do
  let publicKey ← convertToPublicKey p storage.keyStore
  return match storage.claimStore with
    -- the `NullPointerException` is caught
    | none => ⟨none, none, true⟩
    | some claims => verifyTokenByRSA256 p now token claims (some publicKey)

/-- The service takes the token for good. -/
def Takes (p : Platform) (storage : RSAPublicKeyStorage) (now : ℕ) (token : String) : Prop :=
  ∃ verified, storage.verifyToken p now token = .ok verified ∧ verified.error = false

end RSAPublicKeyStorage

/-! ## 2. The center and its services -/

inductive KeyEvent (Service : Type) where
  | changeKey (failure : Option GenerateException)
  | createToken (clock : TokenClock) (claims : JwtCustomClaim)
  /-- The `n`-th answer of `changeKey` reaches a service. -/
  | loadStorage (service : Service) (n : ℕ) (claims : JwtCustomClaim)

structure KeyRun (p : Platform) (Service : Type) where
  storage : RSAKeyStorage p
  services : Service → RSAPublicKeyStorage
  generated : ℕ
  answers : List String
  tokens : List String

namespace KeyRun

variable {Service : Type} [DecidableEq Service]

def start : KeyRun p Service where
  storage := ⟨none⟩
  services _ := ⟨none, none⟩
  generated := 0
  answers := []
  tokens := []

def changeKey (s : KeyRun p Service)
    (generated : Except GenerateException (GeneratedKeyPair p)) : KeyRun p Service :=
  let (answer, storage) := s.storage.changeKey generated
  { s with storage := storage, answers := s.answers ++ answer.toOption.toList }

def step (g : KeyPairGenerator p) (s : KeyRun p Service) : KeyEvent Service → KeyRun p Service
  | .changeKey none =>
      { s.changeKey (.ok (g.generate s.generated)) with generated := s.generated + 1 }
  | .changeKey (some e) => s.changeKey (.error e)
  | .createToken clock claims =>
      { s with tokens := s.tokens ++ (s.storage.createToken clock claims).token.toList }
  | .loadStorage service n claims =>
      match s.answers[n]? with
      | some newKey =>
          let loaded := RSAPublicKeyStorage.loadStorage (some newKey) (some claims)
          { s with services := Function.update s.services service loaded }
      | none => s

def run (g : KeyPairGenerator p) (events : List (KeyEvent Service)) : KeyRun p Service :=
  events.foldl (step g) start

end KeyRun

/-! ## 3. Keys by their number -/

/-- A token by the key, the clock and the claims it was made with. -/
structure MadeToken where
  key : ℕ
  clock : TokenClock
  claims : JwtCustomClaim

/-- The same system without any cryptography: keys are numbered. -/
structure Rotation (Service : Type) where
  keys : ℕ
  told : Service → Option (ℕ × JwtCustomClaim)
  made : List MadeToken

namespace Rotation

variable {Service : Type} [DecidableEq Service]

def start : Rotation Service := ⟨0, fun _ => none, []⟩

open Classical in
noncomputable def step (r : Rotation Service) : KeyEvent Service → Rotation Service
  | .changeKey none => { r with keys := r.keys + 1 }
  | .changeKey (some _) => r
  | .createToken clock claims =>
      if 0 < r.keys ∧ Creatable claims then
        { r with made := r.made ++ [⟨r.keys - 1, clock, claims⟩] }
      else r
  | .loadStorage service n claims =>
      if n < r.keys then { r with told := Function.update r.told service (some (n, claims)) } else r

noncomputable def run (events : List (KeyEvent Service)) : Rotation Service :=
  events.foldl step start

end Rotation

/-- The asked claims are those of a token, and the time is right for it. -/
structure MadeToken.Satisfies (m : MadeToken) (asked : JwtCustomClaim) (now : ℕ) : Prop where
  subject : ∀ s, asked.subject = some s → written m.claims.subject = some s
  id : ∀ s, asked.tid = some s → written m.claims.tid = some s
  issuer : ∀ s, asked.issuer = some s → written m.claims.issuer = some s
  expiresAt : today now - 1000 ≤ truncated (expiresAtOf m.clock m.claims)
  issuedAt : truncated (issuedAtOf m.clock m.claims) ≤ today now + 1000
  notBefore : truncated m.clock.notBefore ≤ today now + 180000

theorem TypedPayload.accepts_iff {clock : TokenClock} {claims asked : JwtCustomClaim}
    {payload : Payload} (typed : TypedPayload clock claims payload) {key now : ℕ} :
    Accepts asked now payload ↔ (MadeToken.mk key clock claims).Satisfies asked now := by
  obtain ⟨hsubject, hid, hissuer, hsalt, hexpiresAt, hissuedAt, hnotBefore⟩ := typed
  constructor
  · intro h
    exact ⟨fun s hs => hsubject.symm.trans (h.subject s hs), fun s hs => hid.symm.trans (h.id s hs),
      fun s hs => hissuer.symm.trans (h.issuer s hs), h.expiresAt _ hexpiresAt,
      h.issuedAt _ hissuedAt, h.notBefore _ hnotBefore⟩
  · intro h
    refine ⟨fun s hs => hsubject.trans (h.subject s hs), fun s hs => hid.trans (h.id s hs),
      fun s hs => hissuer.trans (h.issuer s hs), hsalt, ?_, ?_, ?_⟩
    · rw [hexpiresAt]
      rintro _ ⟨⟩
      exact h.expiresAt
    · rw [hissuedAt]
      rintro _ ⟨⟩
      exact h.issuedAt
    · rw [hnotBefore]
      rintro _ ⟨⟩
      exact h.notBefore

/-! ## 4. Keys and signatures -/

theorem error_of_token {privateKey : Option p.PrivateKey} {claims : Except JavaException Builder}
    {text : String} (h : (signedToken privateKey claims).token = some text) :
    (signedToken privateKey claims).error = false := by
  unfold signedToken createdToken at h ⊢
  split at h
  · rfl
  · cases h

/-- The center makes a token of the claims exactly when they can be written. -/
theorem token_isSome_iff {keyPair : RSAKeyPair p} (hvalid : keyPair.Valid) (clock : TokenClock)
    (claims : JwtCustomClaim) :
    (createTokenByRSA256 p clock claims keyPair).token.isSome ↔ Creatable claims := by
  constructor
  · intro h
    obtain ⟨text, htext⟩ := Option.isSome_iff_exists.mp h
    exact creatable_of_not_error (error_of_token htext)
  · intro h
    obtain ⟨b, token, -, -, heq⟩ := signedToken_of_not_error (create_of_creatable clock hvalid h)
    exact Option.isSome_of_eq_some (congrArg Token.token heq)

/-- A token of one key verifies with another key never, and with its own as the claims say. -/
theorem verify_made_iff (g : KeyPairGenerator p) {m : MadeToken} (hfree : CustomNamesFree m.claims)
    {text : String}
    (hmade : (createTokenByRSA256 p m.clock m.claims (g.generate m.key).origin).token = some text)
    (asked : JwtCustomClaim) (n now : ℕ) :
    (verifyTokenByRSA256 p now text asked (some (g.publicKey n))).error = false ↔
      n = m.key ∧ m.Satisfies asked now := by
  obtain ⟨b, token, hb, ⟨s⟩, heq⟩ := signedToken_of_not_error (error_of_token hmade)
  obtain rfl : text = encodeToString token :=
    Option.some.inj (hmade.symm.trans (congrArg Token.token heq))
  obtain ⟨payload, hd, typed⟩ := typedPayload hb s hfree
  have hsign := s.sign_of_key rfl
  have hkey : p.verify (g.publicKey n)
      (signedContent (writePart p s.header) (writePart p s.payload)) s.signature = true ↔
        n = m.key := by
    constructor
    · intro hverify
      by_contra hne
      rw [g.unrelated m.key n (Ne.symm hne) _ _ hsign] at hverify
      cases hverify
    · rintro rfl
      exact g.paired _ _ _ hsign
  change (verifiedToken (encodeToString token) now
    (.ok (claimsVerifier (⟨some (g.publicKey n), none⟩ : Algorithm p) asked))).error = false ↔ _
  rw [verifiedToken_success_iff, verify_signed_iff s]
  simp only [hd, Except.ok.injEq, exists_eq_left', algorithm_claimsVerifier, Option.any_some,
    meets_claimsVerifier_iff]
  exact and_congr hkey typed.accepts_iff

/-! ## 5. The storages know the numbers -/

/-- The storages hold the keys of these numbers, and the tokens were made so. -/
structure Tells (g : KeyPairGenerator p) {Service : Type} (s : KeyRun p Service)
    (r : Rotation Service) : Prop where
  storage : s.storage.keyStore = if r.keys = 0 then none else some (g.generate (r.keys - 1))
  services : ∀ service, s.services service = match r.told service with
    | none => ⟨none, none⟩
    | some (n, claims) => ⟨some (g.generate n).publicKey, some claims⟩
  generated : s.generated = r.keys
  answers : s.answers = (List.range r.keys).map fun n => (g.generate n).publicKey
  tokens : List.Forall₂ (fun text m =>
    (createTokenByRSA256 p m.clock m.claims (g.generate m.key).origin).token = some text)
      s.tokens r.made

namespace Tells

variable {g : KeyPairGenerator p} {Service : Type} [DecidableEq Service] {s : KeyRun p Service}
  {r : Rotation Service}

omit [DecidableEq Service] in
theorem start (g : KeyPairGenerator p) : Tells g (.start : KeyRun p Service) .start where
  storage := rfl
  services _ := rfl
  generated := rfl
  answers := rfl
  tokens := .nil

theorem changeKey (h : Tells g s r) :
    Tells g (s.step g (.changeKey none)) (r.step (.changeKey none)) where
  storage := by
    show some (g.generate s.generated) = _
    rw [h.generated]
    rfl
  services := h.services
  generated := congrArg (· + 1) h.generated
  answers := by
    show s.answers ++ [(g.generate s.generated).publicKey] = _
    rw [h.answers, h.generated]
    show _ = (List.range (r.keys + 1)).map _
    rw [List.range_succ, List.map_append]
    rfl
  tokens := h.tokens

theorem changeKey_failed (h : Tells g s r) (e : GenerateException) :
    Tells g (s.step g (.changeKey (some e))) (r.step (.changeKey (some e))) where
  storage := h.storage
  services := h.services
  generated := h.generated
  answers := by
    show s.answers ++ [] = _
    rw [List.append_nil, h.answers]
    rfl
  tokens := h.tokens

omit [DecidableEq Service] in
theorem answer (h : Tells g s r) (n : ℕ) :
    s.answers[n]? = if n < r.keys then some (g.generate n).publicKey else none := by
  rw [h.answers, List.getElem?_map]
  split
  · rw [List.getElem?_range ‹_›]
    rfl
  · rw [List.getElem?_eq_none (by rw [List.length_range]; omega)]
    rfl

theorem loadStorage (h : Tells g s r) (service : Service) (n : ℕ) (claims : JwtCustomClaim) :
    Tells g (s.step g (.loadStorage service n claims)) (r.step (.loadStorage service n claims)) := by
  simp only [KeyRun.step, Rotation.step, h.answer]
  by_cases hn : n < r.keys
  · simp only [if_pos hn]
    refine ⟨h.storage, fun other => ?_, h.generated, h.answers, h.tokens⟩
    by_cases hother : other = service
    · subst hother
      simp only [Function.update_self]
      rfl
    · simp only [Function.update_of_ne hother]
      exact h.services other
  · simp only [if_neg hn]
    exact h

omit [DecidableEq Service] in
theorem createToken_cases (h : Tells g s r) (clock : TokenClock) (claims : JwtCustomClaim) :
    (0 < r.keys ∧ Creatable claims) ∧ (∃ text,
        (s.storage.createToken clock claims).token = some text ∧
        (createTokenByRSA256 p clock claims (g.generate (r.keys - 1)).origin).token = some text) ∨
      ¬ (0 < r.keys ∧ Creatable claims) ∧ (s.storage.createToken clock claims).token = none := by
  rw [RSAKeyStorage.createToken, h.storage]
  by_cases hkeys : r.keys = 0
  · simp only [if_pos hkeys]
    exact .inr ⟨fun hpos => absurd hkeys (Nat.ne_of_gt hpos.1), trivial⟩
  · simp only [if_neg hkeys]
    have htoken := token_isSome_iff (g.valid_generate (r.keys - 1)) clock claims
    by_cases hcreatable : Creatable claims
    · obtain ⟨text, htext⟩ := Option.isSome_iff_exists.mp (htoken.mpr hcreatable)
      exact .inl ⟨⟨Nat.pos_of_ne_zero hkeys, hcreatable⟩, text, htext, htext⟩
    · refine .inr ⟨fun hpos => hcreatable hpos.2, ?_⟩
      rwa [← htoken, Option.not_isSome_iff_eq_none] at hcreatable

theorem createToken (h : Tells g s r) (clock : TokenClock) (claims : JwtCustomClaim) :
    Tells g (s.step g (.createToken clock claims)) (r.step (.createToken clock claims)) := by
  simp only [KeyRun.step, Rotation.step]
  rcases h.createToken_cases clock claims with ⟨hmakes, text, htext, hmade⟩ | ⟨hnot, hnone⟩
  · rw [htext, if_pos hmakes]
    exact ⟨h.storage, h.services, h.generated, h.answers,
      List.rel_append h.tokens (.cons hmade .nil)⟩
  · rw [hnone, if_neg hnot, Option.toList_none, List.append_nil]
    exact h

theorem step (h : Tells g s r) (event : KeyEvent Service) :
    Tells g (s.step g event) (r.step event) := by
  match event with
  | .changeKey none => exact h.changeKey
  | .changeKey (some e) => exact h.changeKey_failed e
  | .createToken clock claims => exact h.createToken clock claims
  | .loadStorage service n claims => exact h.loadStorage service n claims

theorem foldl (h : Tells g s r) (events : List (KeyEvent Service)) :
    Tells g (events.foldl (KeyRun.step g) s) (events.foldl Rotation.step r) := by
  induction events generalizing s r with
  | nil => exact h
  | cons event events ih => exact ih (h.step event)

end Tells

/-! ## 6. Every run -/

section Run

variable (g : KeyPairGenerator p) {Service : Type} [DecidableEq Service]

theorem tells_run (events : List (KeyEvent Service)) :
    Tells g (KeyRun.run g events) (Rotation.run events) :=
  (Tells.start g).foldl events

/-- The custom claims of the tokens asked for leave the names of the others alone. -/
def NamesFree (events : List (KeyEvent Service)) : Prop :=
  ∀ clock claims, .createToken clock claims ∈ events → CustomNamesFree claims

theorem Rotation.createToken_of_made {events : List (KeyEvent Service)} {r : Rotation Service}
    {m : MadeToken} (h : m ∈ (events.foldl Rotation.step r).made) :
    m ∈ r.made ∨ .createToken m.clock m.claims ∈ events := by
  induction events generalizing r with
  | nil => exact .inl h
  | cons event events ih =>
    rcases ih h with hmade | hmem
    · match event with
      | .changeKey none | .changeKey (some e) => exact .inl hmade
      | .loadStorage service n claims =>
        simp only [Rotation.step] at hmade
        split at hmade <;> exact .inl hmade
      | .createToken clock claims =>
        simp only [Rotation.step] at hmade
        split at hmade
        · rcases List.mem_append.mp hmade with hold | hnew
          · exact .inl hold
          · obtain rfl := List.mem_singleton.mp hnew
            exact .inr List.mem_cons_self
        · exact .inl hmade
    · exact .inr (List.mem_cons_of_mem _ hmem)

omit [DecidableEq Service] in
theorem Tells.exists_made {s : KeyRun p Service} {r : Rotation Service} (h : Tells g s r) {n : ℕ}
    {text : String} (htoken : s.tokens[n]? = some text) :
    ∃ m, r.made[n]? = some m ∧
      (createTokenByRSA256 p m.clock m.claims (g.generate m.key).origin).token = some text := by
  obtain ⟨hn, rfl⟩ := List.getElem?_eq_some_iff.mp htoken
  have hn' : n < r.made.length := h.tokens.length_eq ▸ hn
  exact ⟨r.made[n], List.getElem?_eq_getElem hn', h.tokens.get hn hn'⟩

omit [DecidableEq Service] in
theorem Tells.takes_told_iff {s : KeyRun p Service} {r : Rotation Service} (h : Tells g s r)
    (service : Service) (now : ℕ) (text : String) :
    (s.services service).Takes p now text ↔ ∃ n asked, r.told service = some (n, asked) ∧
      (verifyTokenByRSA256 p now text asked (some (g.publicKey n))).error = false := by
  rw [RSAPublicKeyStorage.Takes, h.services]
  cases r.told service with
  | none =>
    refine iff_of_false ?_ (fun ⟨_, _, htold, _⟩ => nomatch htold)
    rintro ⟨_, hverify, -⟩
    cases hverify
  | some told =>
    obtain ⟨n, claims⟩ := told
    have hverify : RSAPublicKeyStorage.verifyToken p
        ⟨some (g.generate n).publicKey, some claims⟩ now text =
          .ok (verifyTokenByRSA256 p now text claims (some (g.publicKey n))) := by
      rw [RSAPublicKeyStorage.verifyToken, g.convertToPublicKey_generate]
      rfl
    simp only [hverify, Except.ok.injEq, exists_eq_left', Option.some.injEq, Prod.mk.injEq,
      and_assoc, exists_and_left]

/-- However changes of keys, deliveries and tokens follow each other, a service takes a token exactly if
the key it was told last is the one the token was made with, and the claims and the time are right. -/
theorem takes_iff {events : List (KeyEvent Service)} (hfree : NamesFree events) {n : ℕ}
    {text : String} (htoken : (KeyRun.run g events).tokens[n]? = some text) :
    ∃ m, (Rotation.run events).made[n]? = some m ∧ ∀ service now,
      (((KeyRun.run g events).services service).Takes p now text ↔
        ∃ asked, (Rotation.run events).told service = some (m.key, asked) ∧
          m.Satisfies asked now) := by
  have htells := tells_run g events
  obtain ⟨m, hm, hmade⟩ := htells.exists_made g htoken
  have hevent := (Rotation.createToken_of_made (List.mem_of_getElem? hm)).resolve_left
    List.not_mem_nil
  refine ⟨m, hm, fun service now => ?_⟩
  simp only [htells.takes_told_iff g, verify_made_iff g (hfree _ _ hevent) hmade]
  constructor
  · rintro ⟨n, asked, htold, rfl, hsatisfies⟩
    exact ⟨asked, htold, hsatisfies⟩
  · rintro ⟨asked, htold, hsatisfies⟩
    exact ⟨m.key, asked, htold, rfl, hsatisfies⟩

/-! ## 7. Texts from elsewhere -/

/-- Two token texts with the same header and payload, whatever their signatures. -/
def SameContent (p : Platform) (text text' : String) : Prop :=
  ∃ parts parts', tokenParts p text = some parts ∧ tokenParts p text' = some parts' ∧
    parts.content = parts'.content

/-- Wherever a text comes from: where its signature verifies with a key, the center has signed what it
says with that key. -/
def Unforged (s : KeyRun p Service) (r : Rotation Service) (text : String) : Prop :=
  ∀ parts signature n, tokenParts p text = some parts →
    decodeBase64 parts.signature = .ok signature →
      p.verify (g.publicKey n) parts.content signature = true →
        ∃ (i : ℕ) (made : String) (parts' : Parts) (m : MadeToken), s.tokens[i]? = some made ∧
          r.made[i]? = some m ∧ m.key = n ∧ tokenParts p made = some parts' ∧
            parts'.content = parts.content

theorem satisfies_of_verify {m : MadeToken} (hfree : CustomNamesFree m.claims) {made text : String}
    (hmade : (createTokenByRSA256 p m.clock m.claims (g.generate m.key).origin).token = some made)
    {parts parts' : Parts} (hparts : tokenParts p text = some parts)
    (hparts' : tokenParts p made = some parts') (hcontent : parts'.content = parts.content)
    {asked : JwtCustomClaim} {now n : ℕ}
    (hverify : (verifyTokenByRSA256 p now text asked (some (g.publicKey n))).error = false) :
    m.Satisfies asked now := by
  obtain ⟨b, token, hb, ⟨s⟩, heq⟩ := signedToken_of_not_error (error_of_token hmade)
  obtain rfl : made = encodeToString token :=
    Option.some.inj (hmade.symm.trans (congrArg Token.token heq))
  obtain ⟨payload, hd, typed⟩ := typedPayload hb s hfree
  obtain ⟨decoded, hdecode, hsplit⟩ := tokenParts_eq_some_iff.mp hparts
  rw [tokenParts_signed s, Option.some.injEq] at hparts'
  have hpresents := presents_of_content_eq s hsplit (hcontent.symm.trans (congrArg _ hparts'.symm))
  change (verifiedToken text now
    (.ok (claimsVerifier (⟨some (g.publicKey n), none⟩ : Algorithm p) asked))).error = false
    at hverify
  obtain ⟨decoded', hdecode', haccepted⟩ := verifiedToken_not_error_iff.mp hverify
  obtain rfl : decoded = decoded' := Except.ok.inj (hdecode.symm.trans hdecode')
  obtain ⟨payload', -, hd', -, -, hmeets⟩ := (verify_presents_iff hpresents _ now).mp haccepted
  obtain rfl : payload = payload' := Except.ok.inj (hd.symm.trans hd')
  exact typed.accepts_iff.mp (meets_claimsVerifier_iff.mp hmeets)

theorem signature_of_verify {text : String} {asked : JwtCustomClaim} {now : ℕ} {key : p.PublicKey}
    (h : (verifyTokenByRSA256 p now text asked (some key)).error = false) :
    ∃ parts signature, tokenParts p text = some parts ∧
      decodeBase64 parts.signature = .ok signature ∧
        p.verify key parts.content signature = true := by
  change (verifiedToken text now
    (.ok (claimsVerifier (⟨some key, none⟩ : Algorithm p) asked))).error = false at h
  obtain ⟨decoded, hdecode, jwt, hjwt⟩ := verifiedToken_not_error_iff.mp h
  obtain ⟨hjwt, -, hsignature, -⟩ := verify_ok_iff.mp hjwt
  obtain ⟨signature, hsignature, hverify⟩ := verifySignature_ok_iff.mp hsignature
  rw [algorithm_claimsVerifier, Option.any_some] at hverify
  exact ⟨jwt.parts, signature,
    tokenParts_eq_some_iff.mpr ⟨decoded, hdecode, splitToken_of_decode hjwt⟩, hsignature, hverify⟩

/-- Passing a token on is no forgery. -/
theorem unforged_of_token {events : List (KeyEvent Service)} {i : ℕ} {text : String}
    (htoken : (KeyRun.run g events).tokens[i]? = some text) :
    Unforged g (KeyRun.run g events) (Rotation.run events) text := by
  obtain ⟨m, hm, hmade⟩ := (tells_run g events).exists_made g htoken
  obtain ⟨b, token, -, ⟨s⟩, heq⟩ := signedToken_of_not_error (error_of_token hmade)
  obtain rfl : text = encodeToString token :=
    Option.some.inj (hmade.symm.trans (congrArg Token.token heq))
  intro parts signature n hparts hsignature hverify
  obtain rfl : s.parts = parts := Option.some.inj ((tokenParts_signed s).symm.trans hparts)
  obtain rfl : s.signature = signature :=
    Except.ok.inj ((decodeBase64_encodeUrlSafe _).symm.trans hsignature)
  refine ⟨i, _, s.parts, m, htoken, hm, ?_, hparts, rfl⟩
  by_contra hne
  have hnot := g.unrelated m.key n hne _ _ (s.sign_of_key rfl)
  rw [show p.verify (g.publicKey n) s.parts.content s.signature = _ from hnot] at hverify
  cases hverify

/-- Whatever text a service takes says what a token says that the center made with the key the service
was told last. -/
theorem made_of_takes {events : List (KeyEvent Service)} (hfree : NamesFree events) {text : String}
    (hunforged : Unforged g (KeyRun.run g events) (Rotation.run events) text) {service : Service}
    {now : ℕ} (htakes : ((KeyRun.run g events).services service).Takes p now text) :
    ∃ (i : ℕ) (made : String) (m : MadeToken) (asked : JwtCustomClaim),
      (KeyRun.run g events).tokens[i]? = some made ∧
      (Rotation.run events).made[i]? = some m ∧ SameContent p text made ∧
        (Rotation.run events).told service = some (m.key, asked) ∧ m.Satisfies asked now := by
  have htells := tells_run g events
  obtain ⟨n, asked, htold, hverify⟩ := (htells.takes_told_iff g service now text).mp htakes
  obtain ⟨parts, signature, hparts, hsignature, hkey⟩ := signature_of_verify hverify
  obtain ⟨i, made, parts', m, htoken, hm, rfl, hparts', hcontent⟩ :=
    hunforged parts signature n hparts hsignature hkey
  obtain ⟨m', hm', hmade⟩ := htells.exists_made g htoken
  obtain rfl : m = m' := Option.some.inj (hm.symm.trans hm')
  have hevent := (Rotation.createToken_of_made (List.mem_of_getElem? hm)).resolve_left
    List.not_mem_nil
  exact ⟨i, made, m, asked, htoken, hm, ⟨parts, parts', hparts, hparts', hcontent.symm⟩, htold,
    satisfies_of_verify g (hfree _ _ hevent) hmade hparts hparts' hcontent hverify⟩

end Run

/-! ## 8. Numbers as keys -/

/-- A platform with as many keys as there are numbers; a signature is the key and the text. -/
def numberedPlatform : Platform :=
  { compactPlatform with
    PublicKey := ℕ
    PrivateKey := ℕ
    sign := fun key text => some (List.replicate key 0 ++ 1 :: getBytes text)
    verify := fun key text signature => signature = List.replicate key 0 ++ 1 :: getBytes text
    getEncoded := fun key => List.replicate key 0
    generatePublic := fun bytes => .ok bytes.length
    generatePrivate := fun bytes => .ok bytes.length
    generatePublic_getEncoded := fun key => by rw [List.length_replicate] }

def numberedKeys : KeyPairGenerator numberedPlatform where
  privateKey n := n
  publicKey n := n
  paired n text signature h := by
    obtain rfl := Option.some.inj h
    exact decide_eq_true rfl
  signs _ _ := rfl
  unrelated m n hne text signature h := by
    obtain rfl := Option.some.inj h
    refine decide_eq_false fun heq => hne ?_
    have hlength := congrArg List.length heq
    simp only [List.length_append, List.length_replicate] at hlength
    omega

-- one service is told the first key, the other the second
def aliceEvents : List (KeyEvent Bool) :=
  [.changeKey none, .createToken morning alice, .changeKey none, .loadStorage false 0 anySubject,
    .loadStorage true 1 anySubject]

theorem namesFree_aliceEvents : NamesFree aliceEvents := by
  intro clock claims h
  simp only [aliceEvents, List.mem_cons, reduceCtorEq, KeyEvent.createToken.injEq, false_or,
    List.not_mem_nil, or_false] at h
  rw [h.2]
  exact fun _ h => nomatch h

theorem rotation_aliceEvents : ∃ told, Rotation.run aliceEvents = ⟨2, told, [⟨0, morning, alice⟩]⟩ ∧
    told false = some (0, anySubject) ∧ told true = some (1, anySubject) := by
  simp [aliceEvents, Rotation.run, Rotation.step, Rotation.start, creatable_alice]

theorem satisfies_alice : (MadeToken.mk 0 morning alice).Satisfies anySubject 1700000000001 := by
  refine ⟨?_, ?_, ?_, ?_, ?_, ?_⟩
  · exact fun _ h => nomatch h
  · rintro _ ⟨⟩
    decide
  · rintro _ ⟨⟩
    decide
  · decide
  · decide
  · decide

theorem exists_token_aliceEvents :
    ∃ text, (KeyRun.run numberedKeys aliceEvents).tokens[0]? = some text := by
  obtain ⟨told, hrun, -⟩ := rotation_aliceEvents
  have hlength := (tells_run numberedKeys aliceEvents).tokens.length_eq
  rw [hrun] at hlength
  exact ⟨_, List.getElem?_eq_getElem (hlength ▸ Nat.zero_lt_one)⟩

theorem takes_iff_alice :
    ∃ text, (KeyRun.run numberedKeys aliceEvents).tokens[0]? = some text ∧
      ((KeyRun.run numberedKeys aliceEvents).services false).Takes numberedPlatform 1700000000001
        text ∧
      ¬ ((KeyRun.run numberedKeys aliceEvents).services true).Takes numberedPlatform 1700000000001
        text := by
  obtain ⟨text, htext⟩ := exists_token_aliceEvents
  obtain ⟨told, hrun, hfalse, htrue⟩ := rotation_aliceEvents
  obtain ⟨m, hm, hiff⟩ := takes_iff numberedKeys namesFree_aliceEvents htext
  rw [hrun] at hm hiff
  obtain rfl := Option.some.inj hm
  refine ⟨text, htext, (hiff _ _).mpr ⟨anySubject, hfalse, satisfies_alice⟩, fun h => ?_⟩
  -- the other service was told the second key
  obtain ⟨asked, htold, -⟩ := (hiff _ _).mp h
  cases htrue.symm.trans htold

theorem made_of_takes_alice :
    ∃ text, (KeyRun.run numberedKeys aliceEvents).tokens[0]? = some text ∧
      ∃ (i : ℕ) (made : String) (m : MadeToken) (asked : JwtCustomClaim),
        (KeyRun.run numberedKeys aliceEvents).tokens[i]? = some made ∧
        (Rotation.run aliceEvents).made[i]? = some m ∧ SameContent numberedPlatform text made ∧
          (Rotation.run aliceEvents).told false = some (m.key, asked) ∧
            m.Satisfies asked 1700000000001 := by
  obtain ⟨text, htext⟩ := exists_token_aliceEvents
  obtain ⟨told, hrun, hfalse, -⟩ := rotation_aliceEvents
  have htells := tells_run numberedKeys aliceEvents
  obtain ⟨m, hm, hmade⟩ := htells.exists_made numberedKeys htext
  have hunforged := unforged_of_token numberedKeys htext
  refine ⟨text, htext, made_of_takes numberedKeys namesFree_aliceEvents hunforged
    ((htells.takes_told_iff numberedKeys false 1700000000001 text).mpr ?_)⟩
  rw [hrun] at hm ⊢
  obtain rfl := Option.some.inj hm
  have hfree : CustomNamesFree alice := fun _ h => nomatch h
  exact ⟨0, anySubject, hfalse,
    (verify_made_iff numberedKeys hfree hmade _ _ _).mpr ⟨rfl, satisfies_alice⟩⟩

end UtilsRepo.Jwt
