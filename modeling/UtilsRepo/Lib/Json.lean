import Mathlib.Data.Int.Notation
import Mathlib.Data.List.Basic
import Mathlib.Tactic.Common

/-!
# JSON

JSON trees, the compact text of a tree, and a parser for compact texts that is its left inverse.
Fractions are kept as the decimal literal they are written with.
-/

/-- The literal `unscaled · 10 ^ exponent`. -/
structure Decimal where
  unscaled : ℤ
  exponent : ℤ
  deriving DecidableEq, Repr

inductive Json where
  | null
  | bool (b : Bool)
  | int (n : ℤ)
  | decimal (d : Decimal)
  | str (s : String)
  | arr (elements : List Json)
  | obj (fields : List (String × Json))
  deriving Repr

namespace Json

/-! ## 1. Objects that are maps -/

mutual

/-- No object of the tree has a key twice. -/
def DistinctKeys : Json → Prop
  | .arr elements => DistinctElements elements
  | .obj fields => (fields.map Prod.fst).Nodup ∧ DistinctFields fields
  | _ => True

def DistinctElements : List Json → Prop
  | [] => True
  | e :: elements => e.DistinctKeys ∧ DistinctElements elements

def DistinctFields : List (String × Json) → Prop
  | [] => True
  | (_, v) :: fields => v.DistinctKeys ∧ DistinctFields fields

end

theorem distinctElements_iff {elements : List Json} :
    DistinctElements elements ↔ ∀ e ∈ elements, e.DistinctKeys := by
  induction elements with
  | nil => simp [DistinctElements]
  | cons e elements ih => simp [DistinctElements, ih]

/-! ## 2. Compact text -/

def printInt (n : ℤ) : List Char :=
  if n < 0 then '-' :: Nat.toDigits 10 n.natAbs else Nat.toDigits 10 n.natAbs

def hexDigit (n : ℕ) : Char := Nat.digitChar (n % 16)

/-- A character inside a string: quotes, backslashes and control characters are escaped. -/
def escape (c : Char) : List Char :=
  if c = '"' ∨ c = '\\' then ['\\', c]
  else if c.toNat < 32 then ['\\', 'u', '0', '0', hexDigit (c.toNat / 16), hexDigit c.toNat]
  else [c]

def printString (s : String) : List Char := '"' :: (s.toList.flatMap escape ++ ['"'])

mutual

def print : Json → List Char
  | .null => ['n', 'u', 'l', 'l']
  | .bool true => ['t', 'r', 'u', 'e']
  | .bool false => ['f', 'a', 'l', 's', 'e']
  | .int n => printInt n
  | .decimal d => printInt d.unscaled ++ 'e' :: printInt d.exponent
  | .str s => printString s
  | .arr [] => ['[', ']']
  | .arr (e :: elements) => '[' :: (print e ++ printElements elements)
  | .obj [] => ['{', '}']
  | .obj ((k, v) :: fields) => '{' :: (printString k ++ ':' :: (print v ++ printFields fields))

-- the elements after the first one, and the closing bracket
def printElements : List Json → List Char
  | [] => [']']
  | e :: elements => ',' :: (print e ++ printElements elements)

def printFields : List (String × Json) → List Char
  | [] => ['}']
  | (k, v) :: fields => ',' :: (printString k ++ ':' :: (print v ++ printFields fields))

end

/-! ## 3. Parser -/

def isNumberChar (c : Char) : Bool := c.isDigit || c = '-' || c = 'e'

def parseInt : List Char → ℤ
  | '-' :: digits => -(Nat.ofDigitChars 10 digits 0 : ℤ)
  | digits => (Nat.ofDigitChars 10 digits 0 : ℤ)

def parseNumber (text : List Char) : Option (Json × List Char) :=
  -- the longest prefix that can belong to a number; an `e` in it makes it a decimal
  let word := text.takeWhile isNumberChar
  let rest := text.dropWhile isNumberChar
  if word = [] then none
  else if 'e' ∈ word then
    some (.decimal ⟨parseInt (word.takeWhile (· ≠ 'e')),
      parseInt (word.dropWhile (· ≠ 'e')).tail⟩, rest)
  else some (.int (parseInt word), rest)

def hexValue (c : Char) : ℕ :=
  if c.isDigit then c.toNat - 48 else c.toNat - 87

-- the rest of a string behind its opening quote
def parseString : List Char → Option (List Char × List Char)
  | '"' :: rest => some ([], rest)
  | '\\' :: 'u' :: a :: b :: c :: d :: rest =>
      (parseString rest).map fun p =>
        (Char.ofNat (((hexValue a * 16 + hexValue b) * 16 + hexValue c) * 16 + hexValue d) :: p.1,
          p.2)
  | '\\' :: c :: rest =>
      if c = '"' ∨ c = '\\' then (parseString rest).map fun p => (c :: p.1, p.2) else none
  | c :: rest => (parseString rest).map fun p => (c :: p.1, p.2)
  | [] => none

-- a key and the colon behind it
def parseKey : List Char → Option (String × List Char)
  | '"' :: rest =>
      match parseString rest with
      | some (k, ':' :: rest) => some (String.ofList k, rest)
      | _ => none
  | _ => none

mutual

def parseValue : ℕ → List Char → Option (Json × List Char)
  | 0, _ => none
  | fuel + 1, text =>
      match text with
      | 'n' :: 'u' :: 'l' :: 'l' :: rest => some (.null, rest)
      | 't' :: 'r' :: 'u' :: 'e' :: rest => some (.bool true, rest)
      | 'f' :: 'a' :: 'l' :: 's' :: 'e' :: rest => some (.bool false, rest)
      | '"' :: rest => (parseString rest).map fun p => (.str (String.ofList p.1), p.2)
      | '[' :: ']' :: rest => some (.arr [], rest)
      | '[' :: rest => do
          let (e, rest) ← parseValue fuel rest
          let (elements, rest) ← parseElements fuel rest
          some (.arr (e :: elements), rest)
      | '{' :: '}' :: rest => some (.obj [], rest)
      | '{' :: rest => do
          let (k, rest) ← parseKey rest
          let (v, rest) ← parseValue fuel rest
          let (fields, rest) ← parseFields fuel rest
          some (.obj ((k, v) :: fields), rest)
      | rest => parseNumber rest

def parseElements : ℕ → List Char → Option (List Json × List Char)
  | 0, _ => none
  | fuel + 1, text =>
      match text with
      | ']' :: rest => some ([], rest)
      | ',' :: rest => do
          let (e, rest) ← parseValue fuel rest
          let (elements, rest) ← parseElements fuel rest
          some (e :: elements, rest)
      | _ => none

def parseFields : ℕ → List Char → Option (List (String × Json) × List Char)
  | 0, _ => none
  | fuel + 1, text =>
      match text with
      | '}' :: rest => some ([], rest)
      | ',' :: rest => do
          let (k, rest) ← parseKey rest
          let (v, rest) ← parseValue fuel rest
          let (fields, rest) ← parseFields fuel rest
          some ((k, v) :: fields, rest)
      | _ => none

end

-- a whole text: nothing may follow the value
def parse (text : List Char) : Option Json :=
  match parseValue text.length text with
  | some (j, []) => some j
  | _ => none

/-! ## 4. Numbers read back -/

-- what follows a number does not continue it
def EndsNumber (rest : List Char) : Prop := ∀ c ∈ rest.head?, isNumberChar c = false

theorem endsNumber_cons {c : Char} {rest : List Char} (h : isNumberChar c = false) :
    EndsNumber (c :: rest) := by
  intro c' hc'
  obtain rfl : c = c' := by simpa using hc'
  exact h

theorem parseInt_printInt (n : ℤ) : parseInt (printInt n) = n := by
  have hdigits := Nat.ofDigitChars_ten_toDigits (n := n.natAbs)
  unfold printInt
  split_ifs with h
  · rw [parseInt, hdigits]
    omega
  · -- no sign is printed, so the parser's first branch is not taken
    have hne : ∀ digits, Nat.toDigits 10 n.natAbs ≠ '-' :: digits := by
      intro digits heq
      have : '-' ∈ Nat.toDigits 10 n.natAbs := by rw [heq]; exact List.mem_cons_self
      exact absurd (Nat.isDigit_of_mem_toDigits (by decide) (by decide) this) (by decide)
    rw [parseInt.eq_2 _ hne, hdigits]
    omega

theorem printInt_ne_nil (n : ℤ) : printInt n ≠ [] := by
  unfold printInt
  split_ifs
  · exact List.cons_ne_nil _ _
  · exact Nat.toDigits_ne_nil

theorem mem_printInt {n : ℤ} {c : Char} (h : c ∈ printInt n) : c.isDigit = true ∨ c = '-' := by
  have hdigits : c ∈ Nat.toDigits 10 n.natAbs → c.isDigit = true :=
    Nat.isDigit_of_mem_toDigits (by decide) (by decide)
  unfold printInt at h
  split_ifs at h
  · obtain h | h := List.mem_cons.mp h
    · exact Or.inr h
    · exact Or.inl (hdigits h)
  · exact Or.inl (hdigits h)

theorem isNumberChar_of_mem_printInt {n : ℤ} {c : Char} (h : c ∈ printInt n) :
    isNumberChar c = true := by
  obtain h | rfl := mem_printInt h
  · simp [isNumberChar, h]
  · rfl

theorem not_mem_printInt_e (n : ℤ) : 'e' ∉ printInt n := by
  intro h
  obtain h | h := mem_printInt h
  · exact absurd h (by decide)
  · exact absurd h (by decide)

private theorem takeWhile_word {word rest : List Char} (hword : ∀ c ∈ word, isNumberChar c = true)
    (hrest : EndsNumber rest) :
    (word ++ rest).takeWhile isNumberChar = word ∧ (word ++ rest).dropWhile isNumberChar = rest := by
  rw [List.takeWhile_append_of_pos hword, List.dropWhile_append_of_pos hword]
  cases rest with
  | nil => simp
  | cons c rest => simp [hrest c rfl]

theorem parseNumber_int (n : ℤ) {rest : List Char} (h : EndsNumber rest) :
    parseNumber (printInt n ++ rest) = some (.int n, rest) := by
  obtain ⟨htake, hdrop⟩ :=
    takeWhile_word (fun _ hc => isNumberChar_of_mem_printInt (n := n) hc) h
  unfold parseNumber
  simp only [htake, hdrop]
  rw [if_neg (printInt_ne_nil n), if_neg (not_mem_printInt_e n), parseInt_printInt]

theorem parseNumber_decimal (d : Decimal) {rest : List Char} (h : EndsNumber rest) :
    parseNumber (printInt d.unscaled ++ 'e' :: printInt d.exponent ++ rest) =
      some (.decimal d, rest) := by
  have hword : ∀ c ∈ printInt d.unscaled ++ 'e' :: printInt d.exponent, isNumberChar c = true := by
    intro c hc
    obtain hc | hc := List.mem_append.mp hc
    · exact isNumberChar_of_mem_printInt hc
    · obtain rfl | hc := List.mem_cons.mp hc
      · rfl
      · exact isNumberChar_of_mem_printInt hc
  have hne : ∀ c ∈ printInt d.unscaled, decide (c ≠ 'e') = true := by
    intro c hc
    exact decide_eq_true fun he => not_mem_printInt_e _ (he ▸ hc)
  obtain ⟨htake, hdrop⟩ := takeWhile_word hword h
  unfold parseNumber
  simp only [htake, hdrop]
  rw [if_neg (by simp), if_pos (by simp), List.takeWhile_append_of_pos hne,
    List.dropWhile_append_of_pos hne]
  simp [parseInt_printInt]

/-! ## 5. Strings read back -/

private theorem hexValue_hexDigit : ∀ n < 16, hexValue (hexDigit n) = n := by decide

private theorem hexDigit_mod (n : ℕ) : hexDigit n = hexDigit (n % 16) := by
  rw [hexDigit, hexDigit, Nat.mod_mod]

theorem parseString_escape (c : Char) (rest : List Char) :
    parseString (escape c ++ rest) = (parseString rest).map fun p => (c :: p.1, p.2) := by
  unfold escape
  split_ifs with hquote hcontrol
  · -- a quote or a backslash behind the escape
    have hu : c ≠ 'u' := by rintro rfl; exact absurd hquote (by decide)
    simp only [List.cons_append, List.nil_append]
    rw [parseString.eq_3 _ _ (by rintro _ _ _ _ _ rfl; exact absurd rfl hu), if_pos hquote]
  · -- a control character: its two hexadecimal digits give its code back
    have hhigh := hexValue_hexDigit (c.toNat / 16) (by omega)
    have hlow : hexValue (hexDigit c.toNat) = c.toNat % 16 := by
      rw [hexDigit_mod, hexValue_hexDigit _ (Nat.mod_lt _ (by decide))]
    have hzero : hexValue '0' = 0 := by decide
    simp only [List.cons_append, List.nil_append]
    rw [parseString.eq_2, hhigh, hlow, hzero]
    have hchar : ((0 * 16 + 0) * 16 + c.toNat / 16) * 16 + c.toNat % 16 = c.toNat := by omega
    rw [hchar, Char.ofNat_toNat]
  · -- any other character stands for itself
    rw [not_or] at hquote
    simp only [List.cons_append, List.nil_append]
    rw [parseString.eq_4]
    · exact hquote.1
    · rintro _ _ _ _ _ rfl
      exact absurd rfl hquote.2
    · rintro _ _ rfl
      exact absurd rfl hquote.2

theorem parseString_flatMap (cs rest : List Char) :
    parseString (cs.flatMap escape ++ '"' :: rest) = some (cs, rest) := by
  induction cs with
  | nil => rw [List.flatMap_nil, List.nil_append, parseString]
  | cons c cs ih =>
    rw [List.flatMap_cons, List.append_assoc, parseString_escape, ih, Option.map_some]

theorem parseKey_printString (k : String) (rest : List Char) :
    parseKey (printString k ++ ':' :: rest) = some (k, rest) := by
  simp only [printString, List.cons_append, List.append_assoc, List.nil_append, parseKey]
  rw [parseString_flatMap]
  simp [String.ofList_toList]

/-! ## 6. Trees read back -/

theorem parseValue_number {c : Char} {text : List Char} (hc : c.isDigit = true ∨ c = '-')
    (fuel : ℕ) : parseValue (fuel + 1) (c :: text) = parseNumber (c :: text) := by
  rw [parseValue]
  -- no other kind of value starts with such a character
  all_goals
    intro _ heq
    obtain ⟨rfl, -⟩ := List.cons.inj heq
    exact absurd hc (by decide)

private theorem printInt_cons (n : ℤ) :
    ∃ c text, printInt n = c :: text ∧ (c.isDigit = true ∨ c = '-') := by
  obtain ⟨c, text, h⟩ := List.exists_cons_of_ne_nil (printInt_ne_nil n)
  exact ⟨c, text, h, mem_printInt (n := n) (by rw [h]; exact List.mem_cons_self)⟩

theorem parseValue_printInt (n : ℤ) {rest : List Char} (h : EndsNumber rest) (fuel : ℕ) :
    parseValue (fuel + 1) (printInt n ++ rest) = some (.int n, rest) := by
  obtain ⟨c, text, heq, hc⟩ := printInt_cons n
  rw [heq, List.cons_append, parseValue_number hc, ← List.cons_append, ← heq, parseNumber_int n h]

theorem parseValue_printDecimal (d : Decimal) {rest : List Char} (h : EndsNumber rest)
    (fuel : ℕ) : parseValue (fuel + 1) (print (.decimal d) ++ rest) = some (.decimal d, rest) := by
  obtain ⟨c, text, heq, hc⟩ := printInt_cons d.unscaled
  have hprint : print (.decimal d) = c :: (text ++ 'e' :: printInt d.exponent) := by
    rw [print, heq, List.cons_append]
  rw [hprint, List.cons_append, parseValue_number hc, ← List.cons_append, ← hprint, print,
    parseNumber_decimal d h]

theorem print_head (j : Json) : ∃ c text, print j = c :: text ∧ c ≠ ']' ∧ c ≠ '}' := by
  have hnumber : ∀ n : ℤ, ∀ tail, ∃ c text, printInt n ++ tail = c :: text ∧ c ≠ ']' ∧ c ≠ '}' := by
    intro n tail
    obtain ⟨c, text, heq, hc⟩ := printInt_cons n
    refine ⟨c, text ++ tail, by rw [heq, List.cons_append], ?_, ?_⟩
    · rintro rfl
      exact absurd hc (by decide)
    · rintro rfl
      exact absurd hc (by decide)
  cases j with
  | null => exact ⟨_, _, rfl, by decide, by decide⟩
  | bool b => cases b <;> exact ⟨_, _, rfl, by decide, by decide⟩
  | int n => simpa [print] using hnumber n []
  | decimal d => simpa [print] using hnumber d.unscaled ('e' :: printInt d.exponent)
  | str s => exact ⟨_, _, rfl, by decide, by decide⟩
  | arr elements => cases elements <;> exact ⟨_, _, rfl, by decide, by decide⟩
  | obj fields => rcases fields with _ | ⟨⟨k, v⟩, fields⟩ <;> exact ⟨_, _, rfl, by decide, by decide⟩

private theorem endsNumber_printElements (elements : List Json) (rest : List Char) :
    EndsNumber (printElements elements ++ rest) := by
  cases elements <;> exact endsNumber_cons (by decide)

private theorem endsNumber_printFields (fields : List (String × Json)) (rest : List Char) :
    EndsNumber (printFields fields ++ rest) := by
  rcases fields with _ | ⟨⟨k, v⟩, fields⟩ <;> exact endsNumber_cons (by decide)

-- The induction is on the tree; the length of what is still to be read bounds the fuel.
mutual

theorem parseValue_print (j : Json) (fuel : ℕ) (rest : List Char) (hf : (print j).length ≤ fuel)
    (hr : EndsNumber rest) : parseValue fuel (print j ++ rest) = some (j, rest) := by
  obtain ⟨fuel, rfl⟩ : ∃ n, fuel = n + 1 := by
    obtain ⟨c, text, h, -, -⟩ := print_head j
    rw [h, List.length_cons] at hf
    exact ⟨fuel - 1, by omega⟩
  match j with
  | .null => rfl
  | .bool true => rfl
  | .bool false => rfl
  | .int n => exact parseValue_printInt n hr fuel
  | .decimal d => exact parseValue_printDecimal d hr fuel
  | .str s =>
    simp only [print, printString, List.cons_append, List.append_assoc, List.nil_append]
    rw [parseValue, parseString_flatMap, Option.map_some, String.ofList_toList]
  | .arr [] => rfl
  | .arr (e :: elements) =>
    simp only [print, List.length_cons, List.length_append] at hf
    have he := parseValue_print e fuel (printElements elements ++ rest) (by omega)
      (endsNumber_printElements elements rest)
    have htail := parseElements_print elements fuel rest (by omega)
    obtain ⟨c, text, h, hc, -⟩ := print_head e
    simp only [print, List.cons_append, List.append_assoc]
    rw [parseValue, he]
    · simp only [Option.bind_eq_bind, Option.bind_some, htail]
    · -- the first element does not start with the bracket that ends an empty array
      intro _ heq
      rw [h, List.cons_append] at heq
      exact hc (List.cons.inj heq).1
  | .obj [] => rfl
  | .obj ((k, v) :: fields) =>
    simp only [print, List.length_cons, List.length_append] at hf
    have hv := parseValue_print v fuel (printFields fields ++ rest) (by omega)
      (endsNumber_printFields fields rest)
    have htail := parseFields_print fields fuel rest (by omega)
    have hk := parseKey_printString k (print v ++ (printFields fields ++ rest))
    simp only [print, List.cons_append, List.append_assoc]
    rw [parseValue, hk]
    · simp only [Option.bind_eq_bind, Option.bind_some, hv, htail]
    · intro _ heq
      cases heq

theorem parseElements_print (elements : List Json) (fuel : ℕ) (rest : List Char)
    (hf : (printElements elements).length ≤ fuel) :
    parseElements fuel (printElements elements ++ rest) = some (elements, rest) := by
  obtain ⟨fuel, rfl⟩ : ∃ n, fuel = n + 1 := by
    have : 0 < (printElements elements).length := by cases elements <;> exact Nat.succ_pos _
    exact ⟨fuel - 1, by omega⟩
  match elements with
  | [] => rfl
  | e :: elements =>
    simp only [printElements, List.length_cons, List.length_append] at hf
    have he := parseValue_print e fuel (printElements elements ++ rest) (by omega)
      (endsNumber_printElements elements rest)
    have htail := parseElements_print elements fuel rest (by omega)
    simp only [printElements, List.cons_append, List.append_assoc]
    rw [parseElements, he]
    simp only [Option.bind_eq_bind, Option.bind_some, htail]

theorem parseFields_print (fields : List (String × Json)) (fuel : ℕ) (rest : List Char)
    (hf : (printFields fields).length ≤ fuel) :
    parseFields fuel (printFields fields ++ rest) = some (fields, rest) := by
  obtain ⟨fuel, rfl⟩ : ∃ n, fuel = n + 1 := by
    have : 0 < (printFields fields).length := by
      rcases fields with _ | ⟨⟨k, v⟩, fields⟩ <;> exact Nat.succ_pos _
    exact ⟨fuel - 1, by omega⟩
  match fields with
  | [] => rfl
  | (k, v) :: fields =>
    simp only [printFields, List.length_cons, List.length_append] at hf
    have hk := parseKey_printString k (print v ++ (printFields fields ++ rest))
    have hv := parseValue_print v fuel (printFields fields ++ rest) (by omega)
      (endsNumber_printFields fields rest)
    have htail := parseFields_print fields fuel rest (by omega)
    simp only [printFields, List.cons_append, List.append_assoc]
    rw [parseFields, hk]
    simp only [Option.bind_eq_bind, Option.bind_some, hv, htail]

end

/-- A compact text is read back as the tree it was printed from. -/
theorem parse_print (j : Json) : parse (print j) = some j := by
  have h := parseValue_print j (print j).length [] (Nat.le_refl _) (fun _ hc => by simp at hc)
  rw [List.append_nil] at h
  rw [parse, h]

theorem print_obj_head (fields : List (String × Json)) :
    ∃ text, print (.obj fields) = '{' :: text := by
  rcases fields with _ | ⟨⟨k, v⟩, fields⟩
  · exact ⟨_, rfl⟩
  · exact ⟨_, rfl⟩

end Json
