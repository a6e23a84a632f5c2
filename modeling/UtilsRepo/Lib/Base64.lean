import Mathlib.Data.List.TakeWhile
import Mathlib.Data.List.Basic
import Mathlib.Tactic.Common

/-!
# Base64

Bytes as digits below 64, the two alphabets, and the two ways of reading a text back: the strict
one, which refuses whatever an encoder does not write, and the lenient one, which skips foreign
characters.
-/

namespace Base64

def standard : List Char :=
  ['A', 'B', 'C', 'D', 'E', 'F', 'G', 'H', 'I', 'J', 'K', 'L', 'M', 'N', 'O', 'P',
    'Q', 'R', 'S', 'T', 'U', 'V', 'W', 'X', 'Y', 'Z', 'a', 'b', 'c', 'd', 'e', 'f',
    'g', 'h', 'i', 'j', 'k', 'l', 'm', 'n', 'o', 'p', 'q', 'r', 's', 't', 'u', 'v',
    'w', 'x', 'y', 'z', '0', '1', '2', '3', '4', '5', '6', '7', '8', '9', '+', '/']

def urlSafe : List Char :=
  ['A', 'B', 'C', 'D', 'E', 'F', 'G', 'H', 'I', 'J', 'K', 'L', 'M', 'N', 'O', 'P',
    'Q', 'R', 'S', 'T', 'U', 'V', 'W', 'X', 'Y', 'Z', 'a', 'b', 'c', 'd', 'e', 'f',
    'g', 'h', 'i', 'j', 'k', 'l', 'm', 'n', 'o', 'p', 'q', 'r', 's', 't', 'u', 'v',
    'w', 'x', 'y', 'z', '0', '1', '2', '3', '4', '5', '6', '7', '8', '9', '-', '_']

def digitChar (alphabet : List Char) (digit : ℕ) : Char := alphabet.getD digit 'A'

def digitValue (alphabet : List Char) (c : Char) : Option ℕ := alphabet.idxOf? c

-- a reader that takes both alphabets
def lenientValue (c : Char) : Option ℕ := (digitValue standard c).or (digitValue urlSafe c)

/-- Three bytes as four digits; one or two bytes at the end as two or three. -/
def toDigits : List UInt8 → List ℕ
  | a :: b :: c :: rest =>
      (a.toNat / 4) :: (a.toNat % 4 * 16 + b.toNat / 16) :: (b.toNat % 16 * 4 + c.toNat / 64) ::
        (c.toNat % 64) :: toDigits rest
  | [a, b] => [a.toNat / 4, a.toNat % 4 * 16 + b.toNat / 16, b.toNat % 16 * 4]
  | [a] => [a.toNat / 4, a.toNat % 4 * 16]
  | [] => []

/-- Four digits as three bytes; what the one to three digits at the end mean is `tail`'s decision. -/
def ofDigits (tail : List ℕ → Option (List UInt8)) : List ℕ → Option (List UInt8)
  | a :: b :: c :: d :: rest =>
      (ofDigits tail rest).map fun bytes =>
        UInt8.ofNat (a * 4 + b / 16) :: UInt8.ofNat (b % 16 * 16 + c / 4) ::
          UInt8.ofNat (c % 4 * 64 + d) :: bytes
  | rest => tail rest

def strictTail : List ℕ → Option (List UInt8)
  | [] => some []
  -- the surplus bits of the last digit are not looked at
  | [a, b] => some [UInt8.ofNat (a * 4 + b / 16)]
  | [a, b, c] => some [UInt8.ofNat (a * 4 + b / 16), UInt8.ofNat (b % 16 * 16 + c / 4)]
  -- a single digit left over is refused
  | _ => none

def lenientTail : List ℕ → Option (List UInt8)
  -- surplus bits have to be zero
  | [a, b] => if b % 16 = 0 then some [UInt8.ofNat (a * 4 + b / 16)] else none
  | [a, b, c] =>
      if c % 4 = 0 then some [UInt8.ofNat (a * 4 + b / 16), UInt8.ofNat (b % 16 * 16 + c / 4)]
      else none
  -- a single digit left over is dropped
  | _ => some []

def encodeWith (alphabet : List Char) (bytes : List UInt8) : List Char :=
  (toDigits bytes).map (digitChar alphabet)

-- what fills the last group up to four characters
def padding (length : ℕ) : List Char :=
  match length % 3 with
  | 1 => ['=', '=']
  | 2 => ['=']
  | _ => []

def encode (bytes : List UInt8) : List Char := encodeWith standard bytes ++ padding bytes.length

def encodeUrlSafe (bytes : List UInt8) : List Char := encodeWith urlSafe bytes

/-- Only digits and at most one final padding are accepted; a text without padding is too. -/
def decodeStrict (text : List Char) : Option (List UInt8) :=
  let body := text.takeWhile (· ≠ '=')
  let rest := text.dropWhile (· ≠ '=')
  if rest = [] ∨ (body.length % 4 = 2 ∧ rest = ['=', '=']) ∨ (body.length % 4 = 3 ∧ rest = ['='])
  then (body.mapM (digitValue standard)).bind (ofDigits strictTail)
  else none

/-- Foreign characters are skipped, the first padding character ends the text. -/
def decodeLenient (text : List Char) : Option (List UInt8) :=
  ofDigits lenientTail ((text.takeWhile (· ≠ '=')).filterMap lenientValue)

/-! ## 1. The alphabets -/

theorem digitValue_digitChar_standard :
    ∀ digit < 64, digitValue standard (digitChar standard digit) = some digit := by decide +kernel

theorem lenientValue_digitChar_urlSafe :
    ∀ digit < 64, lenientValue (digitChar urlSafe digit) = some digit := by decide +kernel

theorem digitChar_mem {alphabet : List Char} {digit : ℕ} (h : digit < alphabet.length) :
    digitChar alphabet digit ∈ alphabet := by
  rw [digitChar, List.getD_eq_getElem?_getD, List.getElem?_eq_getElem h, Option.getD_some]
  exact List.getElem_mem h

/-! ## 2. Digits of bytes -/

/-- To prove a property of every byte sequence, take the bytes three at a time. -/
theorem induct_groups {P : List UInt8 → Prop} (nil : P []) (one : ∀ a, P [a])
    (two : ∀ a b, P [a, b]) (three : ∀ a b c rest, P rest → P (a :: b :: c :: rest))
    (bytes : List UInt8) : P bytes := by
  induction bytes using toDigits.induct with
  | case1 a b c rest ih => exact three a b c rest ih
  | case2 a b => exact two a b
  | case3 a => exact one a
  | case4 => exact nil

theorem toDigits_lt (bytes : List UInt8) : ∀ digit ∈ toDigits bytes, digit < 64 := by
  have hlt := fun a : UInt8 => a.toNat_lt
  induction bytes using induct_groups with
  | nil => simp [toDigits]
  | one a =>
    have ha := hlt a
    simp only [toDigits, List.mem_cons, List.not_mem_nil, or_false, forall_eq_or_imp, forall_eq]
    omega
  | two a b =>
    have ha := hlt a
    have hb := hlt b
    simp only [toDigits, List.mem_cons, List.not_mem_nil, or_false, forall_eq_or_imp, forall_eq]
    omega
  | three a b c rest ih =>
    have ha := hlt a
    have hb := hlt b
    have hc := hlt c
    simp only [toDigits, List.mem_cons, forall_eq_or_imp]
    exact ⟨by omega, by omega, by omega, by omega, ih⟩

theorem length_toDigits (bytes : List UInt8) :
    (toDigits bytes).length % 4 =
      match bytes.length % 3 with | 1 => 2 | 2 => 3 | _ => 0 := by
  induction bytes using induct_groups with
  | nil => rfl
  | one a => rfl
  | two a b => rfl
  | three a b c rest ih =>
    simp only [toDigits, List.length_cons, Nat.add_assoc, Nat.reduceAdd, Nat.add_mod_right]
    exact ih

/-! ## 3. Reading back -/

private theorem ofNat_toNat {n : ℕ} {a : UInt8} (h : n = a.toNat) : UInt8.ofNat n = a := by
  rw [h, UInt8.ofNat_toNat]

-- `one` and `two` ask of a tail that it reads what an encoder leaves at the end
theorem ofDigits_toDigits {tail : List ℕ → Option (List UInt8)} (nil : tail [] = some [])
    (one : ∀ a b, b % 16 = 0 → tail [a, b] = some [UInt8.ofNat (a * 4 + b / 16)])
    (two : ∀ a b c, c % 4 = 0 → tail [a, b, c] =
      some [UInt8.ofNat (a * 4 + b / 16), UInt8.ofNat (b % 16 * 16 + c / 4)])
    (bytes : List UInt8) : ofDigits tail (toDigits bytes) = some bytes := by
  have hlt := fun a : UInt8 => a.toNat_lt
  induction bytes using induct_groups with
  | nil => exact nil
  | one a =>
    have ha := hlt a
    change tail _ = _
    -- the digits are below 64, so the shifts that build the byte lose nothing
    rw [one _ _ (by omega), ofNat_toNat (a := a) (by omega)]
  | two a b =>
    have ha := hlt a
    have hb := hlt b
    change tail _ = _
    rw [two _ _ _ (by omega), ofNat_toNat (a := a) (by omega), ofNat_toNat (a := b) (by omega)]
  | three a b c rest ih =>
    have ha := hlt a
    have hb := hlt b
    have hc := hlt c
    rw [toDigits, ofDigits, ih, Option.map_some, ofNat_toNat (a := a) (by omega),
      ofNat_toNat (a := b) (by omega), ofNat_toNat (a := c) (by omega)]

theorem ofDigits_strictTail (bytes : List UInt8) :
    ofDigits strictTail (toDigits bytes) = some bytes := by
  apply ofDigits_toDigits rfl
  · exact fun _ _ _ => rfl
  · exact fun _ _ _ _ => rfl

theorem ofDigits_lenientTail (bytes : List UInt8) :
    ofDigits lenientTail (toDigits bytes) = some bytes := by
  apply ofDigits_toDigits rfl
  · exact fun _ _ h => if_pos h
  · exact fun _ _ _ h => if_pos h

/-! ## 4. Texts -/

theorem mem_encodeWith {alphabet : List Char} (h : alphabet.length = 64) {bytes : List UInt8}
    {c : Char} (hc : c ∈ encodeWith alphabet bytes) : c ∈ alphabet := by
  obtain ⟨digit, hd, rfl⟩ := List.mem_map.mp hc
  exact digitChar_mem (h ▸ toDigits_lt bytes digit hd)

theorem not_mem_encodeUrlSafe {c : Char} (h : c ∉ urlSafe) (bytes : List UInt8) :
    c ∉ encodeUrlSafe bytes :=
  fun hc => h (mem_encodeWith rfl hc)

theorem not_mem_encode {c : Char} (h : c ∉ '=' :: standard) (bytes : List UInt8) :
    c ∉ encode bytes := by
  rw [List.mem_cons, not_or] at h
  intro hc
  obtain hc | hc := List.mem_append.mp hc
  · exact h.2 (mem_encodeWith rfl hc)
  · unfold padding at hc
    split at hc <;> simp_all

private theorem mapM_digitValue {digits : List ℕ} (h : ∀ digit ∈ digits, digit < 64) :
    (digits.map (digitChar standard)).mapM (digitValue standard) = some digits := by
  induction digits with
  | nil => rfl
  | cons digit digits ih =>
    have hd := digitValue_digitChar_standard digit (h _ List.mem_cons_self)
    have ih := ih fun d hd => h d (List.mem_cons_of_mem _ hd)
    simp [List.map_cons, List.mapM_cons, hd, ih]

private theorem filterMap_lenientValue {digits : List ℕ} (h : ∀ digit ∈ digits, digit < 64) :
    (digits.map (digitChar urlSafe)).filterMap lenientValue = digits := by
  induction digits with
  | nil => rfl
  | cons digit digits ih =>
    have hd := lenientValue_digitChar_urlSafe digit (h _ List.mem_cons_self)
    have ih := ih fun d hd => h d (List.mem_cons_of_mem _ hd)
    rw [List.map_cons, List.filterMap_cons_some hd, ih]

private theorem padding_takeWhile (n : ℕ) : (padding n).takeWhile (· ≠ '=') = [] := by
  unfold padding
  split <;> rfl

private theorem padding_dropWhile (n : ℕ) : (padding n).dropWhile (· ≠ '=') = padding n := by
  unfold padding
  split <;> rfl

theorem decodeStrict_encode (bytes : List UInt8) : decodeStrict (encode bytes) = some bytes := by
  have hne : ∀ c ∈ encodeWith standard bytes, decide (c ≠ '=') = true := by
    intro c hc
    have hpad : '=' ∉ standard := by decide
    exact decide_eq_true fun h => hpad (h ▸ mem_encodeWith rfl hc)
  have hbody : (encode bytes).takeWhile (· ≠ '=') = encodeWith standard bytes := by
    rw [encode, List.takeWhile_append_of_pos hne, padding_takeWhile, List.append_nil]
  have hrest : (encode bytes).dropWhile (· ≠ '=') = padding bytes.length := by
    rw [encode, List.dropWhile_append_of_pos hne, padding_dropWhile]
  have hlength := length_toDigits bytes
  unfold decodeStrict
  simp only [hbody, hrest]
  -- the padding an encoder writes is the one its last group asks for
  rw [if_pos, encodeWith, mapM_digitValue (toDigits_lt bytes)]
  · exact ofDigits_strictTail bytes
  · rw [encodeWith, List.length_map, hlength]
    unfold padding
    split <;> simp

theorem decodeLenient_encodeUrlSafe (bytes : List UInt8) :
    decodeLenient (encodeUrlSafe bytes) = some bytes := by
  have hne : ∀ c ∈ encodeUrlSafe bytes, decide (c ≠ '=') = true := by
    intro c hc
    exact decide_eq_true fun h => not_mem_encodeUrlSafe (by decide) bytes (h ▸ hc)
  have hbody : (encodeUrlSafe bytes).takeWhile (· ≠ '=') = encodeUrlSafe bytes :=
    List.takeWhile_eq_self_iff.mpr hne
  rw [decodeLenient, hbody, encodeUrlSafe, encodeWith, filterMap_lenientValue (toDigits_lt bytes)]
  exact ofDigits_lenientTail bytes

end Base64
