import UtilsRepo.Jwt.JwtUtil
import UtilsRepo.Lib.Fallible

/-!
# Tokens that were signed here

What `sign` produced is split, decoded and parsed back into the fields it was produced from, so a
verifier sees exactly the claim map of the builder.
-/

namespace UtilsRepo.Jwt

open Builder

/-! ## 1. Splitting -/

theorem toList_signedContent (header payload : String) :
    (signedContent header payload).toList = header.toList ++ '.' :: payload.toList := by
  simp [signedContent]

theorem splitToken_join (parts : Parts) (hheader : '.' ∉ parts.header.toList)
    (hpayload : '.' ∉ parts.payload.toList) (hsignature : '.' ∉ parts.signature.toList)
    (hne : parts.payload.toList ≠ []) :
    splitToken (signedContent parts.header parts.payload ++ "." ++ parts.signature) =
      .ok parts := by
  obtain ⟨header, payload, signature⟩ := parts
  have htoken : (signedContent header payload ++ "." ++ signature).toList =
      header.toList ++ '.' :: (payload.toList ++ '.' :: signature.toList) := by
    simp [toList_signedContent]
  have hsplit : (signedContent header payload ++ "." ++ signature).toList.splitOn '.' =
      [header.toList, payload.toList] ++ [signature.toList] := by
    rw [htoken, List.splitOn_append_cons_self_of_not_mem hheader,
      List.splitOn_append_cons_self_of_not_mem hpayload, List.splitOn_eq_singleton hsignature]
    rfl
  have hmem : '.' ∈ (signedContent header payload ++ "." ++ signature).toList := by
    rw [htoken]
    simp
  unfold splitToken split
  rw [if_pos hmem, hsplit]
  -- an empty signature is dropped by `split`, and the final dot gives it back
  by_cases hs : signature.toList = []
  · have hdrop : ([header.toList, payload.toList] ++ [signature.toList]).rdropWhile (·.isEmpty) =
        [header.toList, payload.toList] := by
      rw [List.rdropWhile_concat_pos _ _ _ (by simp [hs])]
      exact List.rdropWhile_concat_neg _ [header.toList] _ (by simpa using hne)
    have hlast : (signedContent header payload ++ "." ++ signature).toList.getLast? = some '.' := by
      rw [htoken, hs, show header.toList ++ '.' :: (payload.toList ++ ['.']) =
        (header.toList ++ '.' :: payload.toList) ++ ['.'] by simp, List.getLast?_concat]
    have hempty : signature = "" := String.toList_eq_nil_iff.mp hs
    rw [hdrop]
    simp only [String.ofList_toList]
    rw [if_pos hlast, hempty]
  · rw [List.rdropWhile_concat_neg _ _ _ (by simpa using hs)]
    simp only [List.cons_append, List.nil_append, String.ofList_toList]

/-! ## 2. The parts of a signed token -/

theorem decodeBase64_encodeUrlSafe (bytes : List UInt8) :
    decodeBase64 (encodeUrlSafe bytes) = .ok bytes := by
  rw [decodeBase64, encodeUrlSafe, String.toList_ofList, Base64.decodeLenient_encodeUrlSafe]

theorem dot_not_mem_encodeUrlSafe (bytes : List UInt8) : '.' ∉ (encodeUrlSafe bytes).toList := by
  rw [encodeUrlSafe, String.toList_ofList]
  exact Base64.not_mem_encodeUrlSafe (by decide) bytes

variable {p : Platform}

theorem parseFields_writeJson {fields : List (String × Json)} (h : (Json.obj fields).DistinctKeys) :
    parseFields p (p.writeJson (.obj fields)) = .ok (some fields) := by
  rw [parseFields, p.readJson_writeJson _ h]

theorem decodeBase64_writePart (fields : List (String × Json)) :
    decodeBase64 (writePart p fields) = .ok (getBytes (p.writeJson (.obj fields))) :=
  decodeBase64_encodeUrlSafe _

theorem writePart_ne_nil (fields : List (String × Json)) : (writePart p fields).toList ≠ [] := by
  intro h
  have hempty : writePart p fields = encodeUrlSafe [] := by
    rw [String.toList_eq_nil_iff.mp h]
    rfl
  have hbytes := decodeBase64_encodeUrlSafe (getBytes (p.writeJson (.obj fields)))
  rw [show encodeUrlSafe (getBytes (p.writeJson (.obj fields))) = encodeUrlSafe [] from hempty,
    decodeBase64_encodeUrlSafe] at hbytes
  -- the empty text would be the JSON text of an object, which starts with a brace
  obtain ⟨text, htext⟩ := p.writeJson_obj fields
  have hjson : newString p [] = p.writeJson (.obj fields) := by
    rw [Except.ok.inj hbytes, newString_getBytes]
  have hnil : newString p [] = "" := newString_getBytes p ""
  rw [← hjson, hnil] at htext
  cases htext

/-- What a signed token consists of. -/
structure Signed (b : Builder) (algorithm : Algorithm p) (token : String) where
  header : List (String × Json)
  payload : List (String × Json)
  key : p.PrivateKey
  signature : List UInt8
  headerFields : b.headerFields = some header
  payloadFields : b.payloadFields = some payload
  privateKey : algorithm.privateKey = some key
  sign : p.sign key (signedContent (writePart p header) (writePart p payload)) = some signature
  token_eq : token = signedContent (writePart p header) (writePart p payload) ++ "." ++
    encodeUrlSafe signature

theorem signed_of_sign {b : Builder} {algorithm : Algorithm p} {token : String}
    (h : b.sign algorithm = .ok token) : Nonempty (Signed b algorithm token) := by
  unfold Builder.sign at h
  split at h
  · next header payload hheader hpayload =>
    unfold signParts at h
    split at h
    · next signature hsignature =>
      obtain ⟨key, hkey, hsign⟩ := Option.bind_eq_some_iff.mp hsignature
      exact ⟨header, payload, key, signature, hheader, hpayload, hkey, hsign,
        (Except.ok.inj h).symm⟩
    · cases h
  · cases h

theorem sign_of_fields {b : Builder} (algorithm : Algorithm p)
    {header payload : List (String × Json)} {key : p.PrivateKey}
    (hheader : b.headerFields = some header) (hpayload : b.payloadFields = some payload)
    (hkey : algorithm.privateKey = some key)
    (hsign : ∀ text, (p.sign key text).isSome) : ∃ token, b.sign algorithm = .ok token := by
  obtain ⟨signature, hsignature⟩ := Option.isSome_iff_exists.mp
    (hsign (signedContent (writePart p header) (writePart p payload)))
  exact ⟨signedContent (writePart p header) (writePart p payload) ++ "." ++ encodeUrlSafe signature,
    by simp only [Builder.sign, hheader, hpayload, signParts, hkey, Option.bind_some, hsignature]⟩

namespace Signed

variable {b : Builder} {algorithm : Algorithm p} {token : String}

def parts (s : Signed b algorithm token) : Parts :=
  ⟨writePart p s.header, writePart p s.payload, encodeUrlSafe s.signature⟩

theorem splitToken_eq (s : Signed b algorithm token) : splitToken token = .ok s.parts := by
  have hjoin := splitToken_join s.parts (dot_not_mem_encodeUrlSafe _)
    (dot_not_mem_encodeUrlSafe _) (dot_not_mem_encodeUrlSafe _) (writePart_ne_nil s.payload)
  exact (congrArg splitToken s.token_eq).trans hjoin

theorem header_alg (s : Signed b algorithm token) :
    getString p s.header "alg" = some "RS256" := by
  have halg : s.header.lookup "alg" = some (.str "RS256") := by
    rw [lookup_headerFields s.headerFields, lookup_signedHeader_alg]
    rfl
  rw [getString, halg]
  rfl

theorem sign_of_key (s : Signed b algorithm token) {key : p.PrivateKey}
    (h : algorithm.privateKey = some key) :
    p.sign key (signedContent (writePart p s.header) (writePart p s.payload)) =
      some s.signature := by
  have hkey : s.key = key := Option.some.inj (s.privateKey.symm.trans h)
  rw [← hkey]
  exact s.sign

theorem lookup_payload (s : Signed b algorithm token) (k : String) :
    s.payload.lookup k = (b.payloadClaims.lookup k).bind serializeClaim :=
  lookup_payloadFields s.payloadFields k

end Signed

/-! ## 3. Tokens with the same header and payload -/

/-- A text with the header and the payload of a signed token, whatever its signature. -/
structure Presents {b : Builder} {algorithm : Algorithm p} {token : String}
    (s : Signed b algorithm token) (text : String) (parts : Parts) : Prop where
  splitToken_eq : splitToken text = .ok parts
  header_eq : parts.header = writePart p s.header
  payload_eq : parts.payload = writePart p s.payload

section Presents

variable {b : Builder} {algorithm : Algorithm p} {token text : String}
  {s : Signed b algorithm token} {parts : Parts}

def tokenParts (p : Platform) (text : String) : Option Parts :=
  match decodeToString p text with
  | .ok token => (splitToken token).toOption
  | .error _ => none

def Parts.content (parts : Parts) : String := signedContent parts.header parts.payload

theorem tokenParts_eq_some_iff {text : String} {parts : Parts} :
    tokenParts p text = some parts ↔
      ∃ token, decodeToString p text = .ok token ∧ splitToken token = .ok parts := by
  unfold tokenParts
  cases decodeToString p text with
  | error e => exact iff_of_false (fun h => nomatch h) (fun ⟨_, h, _⟩ => nomatch h)
  | ok token =>
    simp only [Except.ok.injEq, exists_eq_left']
    cases splitToken token <;> simp [Except.toOption]

theorem tokenParts_signed {b : Builder} {algorithm : Algorithm p} {token : String}
    (s : Signed b algorithm token) : tokenParts p (encodeToString token) = some s.parts :=
  tokenParts_eq_some_iff.mpr ⟨token, decodeToString_encodeToString p token, s.splitToken_eq⟩

theorem Signed.presents (s : Signed b algorithm token) : Presents s token s.parts :=
  ⟨s.splitToken_eq, rfl, rfl⟩

theorem decode_of_split {header payload : List (String × Json)} (hsplit : splitToken text = .ok parts)
    (hheader : parts.header = writePart p header) (hpayload : parts.payload = writePart p payload)
    (hheaderKeys : (Json.obj header).DistinctKeys) (hpayloadKeys : (Json.obj payload).DistinctKeys) :
    decode p text = (deserialize p payload).map fun payload =>
      ⟨parts, some (getString p header "alg"), some payload⟩ := by
  have hheaderFields := parseFields_writeJson (p := p) hheaderKeys
  have hpayloadFields := parseFields_writeJson (p := p) hpayloadKeys
  unfold decode
  rw [hsplit]
  simp only [bind, Except.bind, hheader, hpayload, decodeBase64_writePart, newString_getBytes,
    hheaderFields, hpayloadFields, Option.map_some]
  cases deserialize p payload <;> rfl

theorem Presents.decode_eq (h : Presents s text parts) :
    decode p text = (deserialize p s.payload).map fun payload =>
      ⟨parts, some (some "RS256"), some payload⟩ := by
  rw [decode_of_split h.splitToken_eq h.header_eq h.payload_eq
    (headerFields_distinct s.headerFields) (payloadFields_distinct s.payloadFields), s.header_alg]

theorem Presents.parseToken_eq (h : Presents s text parts) {bearer : String}
    (hdecode : decodeToString p bearer = .ok text) :
    parseToken p bearer = (deserialize p s.payload).toOption.map fun payload =>
      ⟨parts, some (some "RS256"), some payload⟩ := by
  unfold parseToken
  simp only [hdecode, bind, Except.bind, h.decode_eq]
  cases deserialize p s.payload <;> rfl

theorem splitToken_of_decode {jwt : DecodedJWT} (h : decode p text = .ok jwt) :
    splitToken text = .ok jwt.parts := by
  unfold decode at h
  obtain ⟨parts, hsplit, h⟩ := Fallible.except_bind_ok h
  obtain ⟨_, -, h⟩ := Fallible.except_bind_ok h
  obtain ⟨_, -, h⟩ := Fallible.except_bind_ok h
  obtain ⟨_, -, h⟩ := Fallible.except_bind_ok h
  obtain ⟨_, -, h⟩ := Fallible.except_bind_ok h
  dsimp only at h
  split at h
  · cases h
    exact hsplit
  · obtain ⟨_, -, h⟩ := Fallible.except_bind_ok h
    cases h
    exact hsplit

theorem signedContent_injective {header payload header' payload' : String}
    (hheader : '.' ∉ header.toList) (hheader' : '.' ∉ header'.toList)
    (h : signedContent header payload = signedContent header' payload') :
    header = header' ∧ payload = payload' := by
  have hlists := congrArg String.toList h
  rw [toList_signedContent, toList_signedContent] at hlists
  have hpieces := congrArg (List.splitOn '.') hlists
  rw [List.splitOn_append_cons_self_of_not_mem hheader,
    List.splitOn_append_cons_self_of_not_mem hheader'] at hpieces
  have hsame : header.toList = header'.toList := (List.cons.inj hpieces).1
  rw [hsame] at hlists
  exact ⟨String.toList_inj.mp hsame,
    String.toList_inj.mp (List.cons.inj (List.append_cancel_left hlists)).2⟩

theorem dot_not_mem_head_split {chars first : List Char} {rest : List (List Char)}
    (h : split chars = first :: rest) (hrest : rest ≠ []) : '.' ∉ first := by
  unfold split at h
  split_ifs at h with hmem
  · -- the first piece ends at the first dot
    obtain ⟨before, after, hchars, hbefore⟩ := List.eq_append_cons_of_mem hmem
    have hprefix := List.rdropWhile_prefix (p := fun piece : List Char => piece.isEmpty)
      (l := chars.splitOn '.')
    rw [h, hchars, List.splitOn_append_cons_self_of_not_mem hbefore, List.cons_prefix_cons]
      at hprefix
    exact hprefix.1 ▸ hbefore
  · exact absurd (List.cons.inj h).2.symm hrest

theorem dot_not_mem_header (h : splitToken text = .ok parts) : '.' ∉ parts.header.toList := by
  unfold splitToken at h
  split at h
  · next header payload hsplit =>
    split_ifs at h
    cases h
    rw [String.toList_ofList]
    exact dot_not_mem_head_split hsplit (by simp)
  · next header payload signature hsplit =>
    cases h
    rw [String.toList_ofList]
    exact dot_not_mem_head_split hsplit (by simp)
  · cases h

theorem presents_of_content_eq (s : Signed b algorithm token) (hsplit : splitToken text = .ok parts)
    (h : signedContent parts.header parts.payload =
      signedContent (writePart p s.header) (writePart p s.payload)) : Presents s text parts := by
  obtain ⟨hheader, hpayload⟩ := signedContent_injective (dot_not_mem_header hsplit)
    (dot_not_mem_encodeUrlSafe _) h
  exact ⟨hsplit, hheader, hpayload⟩

end Presents

end UtilsRepo.Jwt
