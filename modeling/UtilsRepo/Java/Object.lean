import Mathlib.Data.List.Nodup
import UtilsRepo.Java.Platform

/-!
# Objects inside claims

The kinds of objects that callers put into claim maps and role lists, how Jackson writes each of
them, and which of them java-jwt accepts inside a list claim.
-/

namespace UtilsRepo

/-- An object as java-jwt and Jackson tell it apart. -/
inductive JavaObject where
  | null
  | bool (b : Bool)
  | integer (n : Int32)
  | long (n : Int64)
  /-- A finite `Double`, by its decimal literal. -/
  | double (d : Decimal)
  /-- `NaN` and the infinities, which Jackson writes as texts. -/
  | nonFinite (name : String)
  | string (s : String)
  /-- A `Date`, in milliseconds. -/
  | date (time : ℤ)
  | integerArray (elements : List (Option Int32))
  | longArray (elements : List (Option Int64))
  | stringArray (elements : List (Option String))
  | list (elements : List JavaObject)
  | map (entries : List (Option String × JavaObject))
  /-- Any other class, by what Jackson writes for it; `none` when writing it throws. -/
  | other (written : Option Json)

namespace JavaObject

def isNull : JavaObject → Bool
  | .null => true
  | _ => false

/-! ## 1. Writing -/

def orNull {α : Type} (toJson : α → Json) : Option α → Json
  | none => .null
  | some a => toJson a

mutual

/-- What Jackson writes for the object; `none` when it throws. -/
def toJson : JavaObject → Option Json
  | .null => some .null
  | .bool b => some (.bool b)
  | .integer n => some (.int n.toInt)
  | .long n => some (.int n.toInt)
  | .double d => some (.decimal d)
  | .nonFinite name => some (.str name)
  | .string s => some (.str s)
  | .date time => some (.int time)
  | .integerArray elements => some (.arr (elements.map (orNull fun n => .int n.toInt)))
  | .longArray elements => some (.arr (elements.map (orNull fun n => .int n.toInt)))
  | .stringArray elements => some (.arr (elements.map (orNull .str)))
  | .list elements => (elementsToJson elements).map .arr
  | .map entries => (entriesToJson entries).map .obj
  | .other written => written

def elementsToJson : List JavaObject → Option (List Json)
  | [] => some []
  | o :: elements => do some ((← o.toJson) :: (← elementsToJson elements))

def entriesToJson : List (Option String × JavaObject) → Option (List (String × Json))
  | [] => some []
  -- Jackson has no text for a `null` key
  | (none, _) :: _ => none
  | (some k, o) :: entries => do some ((k, ← o.toJson) :: (← entriesToJson entries))

end

/-! ## 2. What a list claim accepts -/

mutual

-- `JWTCreator.Builder.isSupportedType`
def isSupportedType : JavaObject → Bool
  | .list elements => validateElements elements
  | .map entries => validateEntries entries
  | .null => false
  | .other _ => false
  | _ => true

-- `validateClaim(List)`: a `null` element is accepted
def validateElements : List JavaObject → Bool
  | [] => true
  | o :: elements => (o.isNull || o.isSupportedType) && validateElements elements

-- `validateClaim(Map)`: a `null` value is not, nor is a `null` key
def validateEntries : List (Option String × JavaObject) → Bool
  | [] => true
  | (k, o) :: entries => o.isSupportedType && k.isSome && validateEntries entries

end

mutual

theorem toJson_isSome (o : JavaObject) (h : o.isNull || o.isSupportedType) : o.toJson.isSome := by
  match o with
  | .null | .bool _ | .integer _ | .long _ | .double _ | .nonFinite _ | .string _ | .date _
  | .integerArray _ | .longArray _ | .stringArray _ => rfl
  | .list elements =>
    rw [toJson, Option.isSome_map]
    exact elementsToJson_isSome elements h
  | .map entries =>
    rw [toJson, Option.isSome_map]
    exact entriesToJson_isSome entries h

theorem elementsToJson_isSome (elements : List JavaObject) (h : validateElements elements) :
    (elementsToJson elements).isSome := by
  match elements with
  | [] => rfl
  | o :: elements =>
    obtain ⟨ho, hes⟩ := Bool.and_eq_true_iff.mp h
    obtain ⟨j, hj⟩ := Option.isSome_iff_exists.mp (toJson_isSome o ho)
    obtain ⟨js, hjs⟩ := Option.isSome_iff_exists.mp (elementsToJson_isSome elements hes)
    rw [elementsToJson, hj, hjs]
    rfl

theorem entriesToJson_isSome (entries : List (Option String × JavaObject))
    (h : validateEntries entries) : (entriesToJson entries).isSome := by
  match entries with
  | [] => rfl
  | (none, o) :: entries => simp [validateEntries] at h
  | (some k, o) :: entries =>
    simp only [validateEntries, Option.isSome_some, Bool.and_true, Bool.and_eq_true] at h
    obtain ⟨j, hj⟩ := Option.isSome_iff_exists.mp (toJson_isSome o (by rw [h.1, Bool.or_true]))
    obtain ⟨js, hjs⟩ := Option.isSome_iff_exists.mp (entriesToJson_isSome entries h.2)
    rw [entriesToJson, hj, hjs]
    rfl

end

/-! ## 3. Maps inside objects -/

mutual

/-- No map inside the object has a key twice. -/
def DistinctKeys : JavaObject → Prop
  | .list elements => DistinctElements elements
  | .map entries => (entries.map Prod.fst).Nodup ∧ DistinctEntries entries
  | .other (some j) => j.DistinctKeys
  | _ => True

def DistinctElements : List JavaObject → Prop
  | [] => True
  | o :: elements => o.DistinctKeys ∧ DistinctElements elements

def DistinctEntries : List (Option String × JavaObject) → Prop
  | [] => True
  | (_, o) :: entries => o.DistinctKeys ∧ DistinctEntries entries

end

theorem distinctElements_map {α : Type} {f : α → JavaObject} {l : List α}
    (h : ∀ a ∈ l, (f a).DistinctKeys) : DistinctElements (l.map f) := by
  induction l with
  | nil => exact True.intro
  | cons a l ih =>
    exact ⟨h a List.mem_cons_self, ih fun b hb => h b (List.mem_cons_of_mem a hb)⟩

theorem entriesToJson_keys {entries : List (Option String × JavaObject)}
    {fields : List (String × Json)} (h : entriesToJson entries = some fields) :
    entries.map Prod.fst = fields.map (some ∘ Prod.fst) := by
  induction entries generalizing fields with
  | nil => simp_all [entriesToJson]
  | cons entry entries ih =>
    obtain ⟨_ | k, o⟩ := entry
    · cases h
    · simp only [entriesToJson, Option.bind_eq_bind, Option.bind_eq_some_iff,
        Option.some.injEq] at h
      obtain ⟨j, -, fields, hfields, rfl⟩ := h
      simp [ih hfields]

private theorem distinctElements_orNull {α : Type} {f : α → Json} (hf : ∀ a, (f a).DistinctKeys)
    (elements : List (Option α)) : Json.DistinctElements (elements.map (orNull f)) := by
  rw [Json.distinctElements_iff]
  intro j hj
  obtain ⟨_ | a, -, rfl⟩ := List.mem_map.mp hj
  · exact True.intro
  · exact hf a

mutual

theorem toJson_distinctKeys (o : JavaObject) {j : Json} (ho : o.DistinctKeys)
    (h : o.toJson = some j) : j.DistinctKeys := by
  match o with
  | .null | .bool _ | .integer _ | .long _ | .double _ | .nonFinite _ | .string _ | .date _ =>
    cases h
    exact True.intro
  | .integerArray elements =>
    cases h
    exact distinctElements_orNull (f := fun n => .int n.toInt) (fun _ => True.intro) elements
  | .longArray elements =>
    cases h
    exact distinctElements_orNull (f := fun n => .int n.toInt) (fun _ => True.intro) elements
  | .stringArray elements =>
    cases h
    exact distinctElements_orNull (f := .str) (fun _ => True.intro) elements
  | .list elements =>
    obtain ⟨js, hjs, rfl⟩ := Option.map_eq_some_iff.mp h
    exact elementsToJson_distinct elements ho hjs
  | .map entries =>
    obtain ⟨fields, hfields, rfl⟩ := Option.map_eq_some_iff.mp h
    refine ⟨?_, entriesToJson_distinct entries ho.2 hfields⟩
    have hkeys := ho.1
    rw [entriesToJson_keys hfields, ← List.map_map] at hkeys
    exact List.Nodup.of_map _ hkeys
  | .other written =>
    cases h
    exact ho

theorem elementsToJson_distinct (elements : List JavaObject) {js : List Json}
    (he : DistinctElements elements) (h : elementsToJson elements = some js) :
    Json.DistinctElements js := by
  match elements with
  | [] =>
    cases h
    exact True.intro
  | o :: elements =>
    simp only [elementsToJson, Option.bind_eq_bind, Option.bind_eq_some_iff,
      Option.some.injEq] at h
    obtain ⟨j, hj, js, hjs, rfl⟩ := h
    exact ⟨toJson_distinctKeys o he.1 hj, elementsToJson_distinct elements he.2 hjs⟩

theorem entriesToJson_distinct (entries : List (Option String × JavaObject))
    {fields : List (String × Json)} (he : DistinctEntries entries)
    (h : entriesToJson entries = some fields) : Json.DistinctFields fields := by
  match entries with
  | [] =>
    cases h
    exact True.intro
  | (none, o) :: entries => cases h
  | (some k, o) :: entries =>
    simp only [entriesToJson, Option.bind_eq_bind, Option.bind_eq_some_iff,
      Option.some.injEq] at h
    obtain ⟨j, hj, fields, hfields, rfl⟩ := h
    exact ⟨toJson_distinctKeys o he.1 hj, entriesToJson_distinct entries he.2 hfields⟩

end

end JavaObject

/-- An object all of whose maps are maps. -/
def JavaValue : Type := {o : JavaObject // o.DistinctKeys}

namespace JavaValue

def string (s : String) : JavaValue := ⟨.string s, True.intro⟩

def date (time : ℤ) : JavaValue := ⟨.date time, True.intro⟩

def list (elements : List JavaValue) : JavaValue :=
  ⟨.list (elements.map Subtype.val), JavaObject.distinctElements_map fun o _ => o.2⟩

end JavaValue

end UtilsRepo
