import UtilsRepo.Jwt.WrittenClaims

/-!
# A platform to compute with

Compact JSON, and a signature scheme whose signatures are the key and the text: everything the code
relies on holds for it, so statements about all platforms can be evaluated on it.
-/

namespace UtilsRepo.Jwt

def compactPlatform : Platform where
  PublicKey := UInt8
  PrivateKey := UInt8
  sign key text := some (key :: getBytes text)
  verify key text signature := signature = key :: getBytes text
  getEncoded key := [key]
  generatePublic
    | [key] => .ok key
    | _ => .error ⟨.invalidKeySpecException, none⟩
  generatePrivate
    | [key] => .ok key
    | _ => .error ⟨.invalidKeySpecException, none⟩
  writeJson j := String.ofList j.print
  readJson text := Json.parse text.toList
  decimalText d := toString d.unscaled ++ "E" ++ toString d.exponent
  decimalLong _ := none
  dateText time := toString time
  illegalBase64 _ := "Illegal base64 character"
  malformedUtf8 _ := "\uFFFD"
  generatePublic_getEncoded _ := rfl
  readJson_writeJson j _ := by rw [String.toList_ofList, Json.parse_print]
  writeJson_obj fields := by
    obtain ⟨text, h⟩ := Json.print_obj_head fields
    exact ⟨text, by rw [String.toList_ofList, h]⟩

theorem compactPlatform_paired (key : UInt8) :
    compactPlatform.Paired (show UInt8 from key) (show UInt8 from key) := by
  intro text signature h
  obtain rfl : key :: getBytes text = signature := Option.some.inj h
  exact decide_eq_true rfl

def compactKeyPair : RSAKeyPair compactPlatform :=
  ⟨some (show UInt8 from 7), some (show UInt8 from 7)⟩

def morning : TokenClock := ⟨1700000000000, 1700000000001, by decide, by decide⟩

theorem compactPlatform_sign_isSome (key : compactPlatform.PrivateKey) (text : String) :
    (compactPlatform.sign key text).isSome := rfl

end UtilsRepo.Jwt
