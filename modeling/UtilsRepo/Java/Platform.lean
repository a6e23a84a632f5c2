import Mathlib.Data.List.DropRight
import UtilsRepo.Java.Exception
import UtilsRepo.Lib.Base64
import UtilsRepo.Lib.Json

/-!
# What the token code takes from outside

The RSA provider, Jackson's reading and writing of JSON texts, and the few texts the Java platform
leaves unspecified.  Strings are the ones that survive UTF-8.
-/

namespace UtilsRepo

/-- The RSA provider of the platform and Jackson, with what the code relies on. -/
structure Platform where
  PublicKey : Type
  PrivateKey : Type
  /-- SHA256withRSA over the UTF-8 bytes of a text; `none` when the provider refuses the key. -/
  sign : PrivateKey → String → Option (List UInt8)
  verify : PublicKey → String → List UInt8 → Bool
  getEncoded : PublicKey → List UInt8
  generatePublic : List UInt8 → Except JavaException PublicKey
  generatePrivate : List UInt8 → Except JavaException PrivateKey
  writeJson : Json → String
  readJson : String → Option Json
  /-- `asText` and `asLong` of a fraction; `none` where `canConvertToLong` says no. -/
  decimalText : Decimal → String
  decimalLong : Decimal → Option ℤ
  /-- `Date.toString`, in the server's time zone. -/
  dateText : ℤ → String
  /-- The message of `Base64.Decoder.decode` for a text it refuses. -/
  illegalBase64 : String → String
  /-- What `new String(bytes, "UTF-8")` makes of bytes that are not UTF-8. -/
  malformedUtf8 : List UInt8 → String
  generatePublic_getEncoded : ∀ key, generatePublic (getEncoded key) = .ok key
  readJson_writeJson : ∀ j, j.DistinctKeys → readJson (writeJson j) = some j
  writeJson_obj : ∀ fields, ∃ text, (writeJson (.obj fields)).toList = '{' :: text

namespace Platform

variable (p : Platform)

/-- A private key and a public key that belong together. -/
def Paired (privateKey : p.PrivateKey) (publicKey : p.PublicKey) : Prop :=
  ∀ text signature, p.sign privateKey text = some signature → p.verify publicKey text signature = true

/-! ## 1. Bytes and texts -/

end Platform

-- `getBytes("UTF-8")`
def getBytes (s : String) : List UInt8 := s.toByteArray.data.toList

-- `new String(bytes, "UTF-8")`
def newString (p : Platform) (bytes : List UInt8) : String :=
  match String.fromUTF8? ⟨bytes.toArray⟩ with
  | some s => s
  | none => p.malformedUtf8 bytes

@[simp] theorem newString_getBytes (p : Platform) (s : String) : newString p (getBytes s) = s := by
  have hvalid : String.fromUTF8? ⟨(getBytes s).toArray⟩ = some s := by
    rw [getBytes, Array.toArray_toList, String.fromUTF8?, dif_pos s.isValidUTF8]
    rfl
  rw [newString, hvalid]

-- `Base64.getEncoder().encodeToString(s.getBytes("UTF-8"))`
def encodeToString (s : String) : String := String.ofList (Base64.encode (getBytes s))

-- `new String(Base64.getDecoder().decode(s), "UTF-8")`
def decodeToString (p : Platform) (s : String) : Except JavaException String :=
  match Base64.decodeStrict s.toList with
  | some bytes => .ok (newString p bytes)
  | none => .error ⟨.illegalArgumentException, some (p.illegalBase64 s)⟩

@[simp] theorem decodeToString_encodeToString (p : Platform) (s : String) :
    decodeToString p (encodeToString s) = .ok s := by
  rw [decodeToString, encodeToString, String.toList_ofList, Base64.decodeStrict_encode]
  simp only [newString_getBytes]

/-! ## 2. Blank texts -/

/-- `String.trim`: characters up to the space go at both ends. -/
def trim (s : List Char) : List Char :=
  (s.dropWhile (· ≤ ' ')).rdropWhile (· ≤ ' ')

-- some character is beyond the space, so trimming leaves something
def HasText (s : String) : Prop := ∃ c ∈ s.toList, ¬ c ≤ ' '

instance (s : String) : Decidable (HasText s) :=
  List.decidableBEx (fun c => ¬ c ≤ ' ') s.toList

theorem trim_ne_nil_iff {s : List Char} : trim s ≠ [] ↔ ∃ c ∈ s, ¬ c ≤ ' ' := by
  have hnil : trim s = [] ↔ ∀ c ∈ s, c ≤ ' ' := by
    rw [trim, List.rdropWhile_eq_nil_iff]
    constructor
    · intro h
      -- what is left after the leading blanks starts with a character that is no blank
      have hdrop : s.dropWhile (· ≤ ' ') = [] := by
        by_contra hne
        have hhead := List.head_dropWhile_not (fun c : Char => decide (c ≤ ' ')) hne
        rw [h _ (List.head_mem hne)] at hhead
        exact absurd hhead (by decide)
      simpa using List.dropWhile_eq_nil_iff.mp hdrop
    · intro h c hc
      exact decide_eq_true (h c ((List.dropWhile_sublist _).subset hc))
  rw [Ne, hnil]
  push Not
  rfl

end UtilsRepo
