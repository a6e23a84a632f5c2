import Mathlib.Data.List.AList
import Mathlib.Logic.Function.Basic
import UtilsRepo.Java.Exception

/-!
# The Redis keyspace

Keys, their data and their times to live, as the commands behind `RedisTemplate<String, Object>` see
them.  A value is the Java object the template's JSON serializer stores.
-/

namespace UtilsRepo.Redis

/-- A Java object handed to the template: `null`, an integral number, a list of objects, or any
other object `a`. -/
inductive Value (α : Type) where
  | null
  | number (n : ℤ)
  | object (a : α)
  | list (vs : List (Value α))

namespace Value

variable {α : Type}

mutual

def decEq [DecidableEq α] : (v w : Value α) → Decidable (v = w)
  | .null, .null => isTrue rfl
  | .number n, .number m => decidable_of_iff (n = m) (by simp)
  | .object a, .object b => decidable_of_iff (a = b) (by simp)
  | .list vs, .list ws =>
      match decEqList vs ws with
      | isTrue h => isTrue (by rw [h])
      | isFalse h => isFalse (by simpa using h)
  | .null, .number _ | .null, .object _ | .null, .list _ => isFalse (by simp)
  | .number _, .null | .number _, .object _ | .number _, .list _ => isFalse (by simp)
  | .object _, .null | .object _, .number _ | .object _, .list _ => isFalse (by simp)
  | .list _, .null | .list _, .number _ | .list _, .object _ => isFalse (by simp)

def decEqList [DecidableEq α] : (vs ws : List (Value α)) → Decidable (vs = ws)
  | [], [] => isTrue rfl
  | [], _ :: _ | _ :: _, [] => isFalse (by simp)
  | v :: vs, w :: ws =>
      match decEq v w, decEqList vs ws with
      | isTrue h, isTrue hs => isTrue (by rw [h, hs])
      | isFalse h, _ => isFalse (by simp [h])
      | _, isFalse hs => isFalse (by simp [hs])

end

instance [DecidableEq α] : DecidableEq (Value α) := decEq

theorem list_not_mem (vs : List (Value α)) : .list vs ∉ vs := by
  intro h
  have := List.sizeOf_lt_of_mem h
  simp only [list.sizeOf_spec] at this
  omega

end Value

abbrev Fields (α : Type) := AList fun _ : String => Value α

/-- The data a key holds.  Sorted sets and streams are never written by the code modelled here. -/
inductive Data (α : Type) where
  | string (value : Value α)
  | hash (fields : Fields α)
  | set (members : List (Value α))
  | list (elements : List (Value α))
  | zset (members : List (Value α))
  | stream (entries : List (Value α))

namespace Data

variable {α : Type}

def asString : Data α → Option (Value α)
  | .string value => some value
  | _ => none

def asHash : Data α → Option (Fields α)
  | .hash fields => some fields
  | _ => none

def asSet : Data α → Option (List (Value α))
  | .set members => some members
  | _ => none

def asList : Data α → Option (List (Value α))
  | .list elements => some elements
  | _ => none

end Data

/-- A key's data, and its remaining time to live in milliseconds (`none`: it does not expire). -/
structure Entry (α : Type) where
  data : Data α
  ttl : Option ℕ

abbrev Store (α : Type) := String → Option (Entry α)

namespace Store

variable {α β : Type}

-- the reply of a command applied to a key of another type
def wrongType : JavaException where
  exceptionClass := .dataAccessException
  message := some "WRONGTYPE Operation against a key holding the wrong kind of value"

def set (store : Store α) (key : String) (entry : Entry α) : Store α :=
  Function.update store key (some entry)

def erase (store : Store α) (key : String) : Store α :=
  Function.update store key none

def ttl (store : Store α) (key : String) : Option ℕ :=
  (store key).bind Entry.ttl

/-- Replace the data of a key, which keeps its time to live; a new key has none. -/
def put (store : Store α) (key : String) (data : Data α) : Store α :=
  store.set key { data := data, ttl := store.ttl key }

/-- The data of a key read at one type. -/
def fetch (store : Store α) (key : String) (view : Data α → Option β) (empty : β) :
    Except JavaException β :=
  match store key with
  -- a missing key reads as an empty aggregate
  | none => .ok empty
  | some entry => ((view entry.data).map Except.ok).getD (.error wrongType)

@[simp] theorem set_self (store : Store α) (key : String) (entry : Entry α) :
    store.set key entry key = some entry :=
  Function.update_self ..

@[simp] theorem set_of_ne (store : Store α) {key key' : String} (entry : Entry α)
    (h : key' ≠ key) : store.set key entry key' = store key' :=
  Function.update_of_ne h ..

theorem put_self (store : Store α) (key : String) (data : Data α) :
    store.put key data key = some { data := data, ttl := store.ttl key } :=
  set_self ..

@[simp] theorem ttl_put (store : Store α) (key : String) (data : Data α) :
    (store.put key data).ttl key = store.ttl key := by
  rw [ttl, put_self, Option.bind_some]

end Store

end UtilsRepo.Redis
