import Mathlib.Algebra.Group.Int.Defs
import Mathlib.Algebra.Group.Nat.Defs
import UtilsRepo.Redis.Store

/-!
# `RedisTemplate<String, Object>`

The template calls `RedisUtil` makes, what each answers, and what each does to the keyspace when
nothing fails: the documented behaviour of the Redis command behind it, with the template's own null
checks.  `Server` adds the failures: any call may throw without effect, and a call with a Boolean
answer may answer `false` without effect.
-/

namespace UtilsRepo.Redis

/-- The keyspace's data types, as `TYPE` names them. -/
inductive DataType where
  | none | string | list | set | zset | hash | stream
  deriving DecidableEq, Repr

-- `DataType.code()`
def DataType.code : DataType → String
  | .none => "none"
  | .string => "string"
  | .list => "list"
  | .set => "set"
  | .zset => "zset"
  | .hash => "hash"
  | .stream => "stream"

def Data.type {α : Type} : Data α → DataType
  | .string _ => .string
  | .hash _ => .hash
  | .set _ => .set
  | .list _ => .list
  | .zset _ => .zset
  | .stream _ => .stream

/-- A call on the template.  `none` is Java's `null`, for keys, hash keys, maps and arrays; times are
in seconds (`TimeUnit.SECONDS`). -/
inductive Command (α : Type) where
  | valueSet (key : Option String) (value : Value α)
  | valueSetTimeout (key : Option String) (value : Value α) (timeout : ℤ)
  | valueGet (key : Option String)
  | valueIncrement (key : Option String) (delta : ℤ)
  | delete (keys : List (Option String))
  | hasKey (key : Option String)
  | type (key : Option String)
  | getExpire (key : Option String)
  | expire (key : Option String) (timeout : ℤ)
  | hashPutAll (key : Option String) (m : Option (AList fun _ : Option String => Value α))
  | hashPut (key hashKey : Option String) (value : Value α)
  | hashGet (key hashKey : Option String)
  | hashDelete (key : Option String) (hashKeys : List (Option String))
  | hashHasKey (key hashKey : Option String)
  | hashIncrement (key hashKey : Option String) (delta : ℤ)
  | hashEntries (key : Option String)
  | setAdd (key : Option String) (values : Option (List (Value α)))
  | setRemove (key : Option String) (values : Option (List (Value α)))
  | setMembers (key : Option String)
  | setIsMember (key : Option String) (value : Value α)
  | setSize (key : Option String)
  | listRightPush (key : Option String) (value : Value α)
  | listRightPushAll (key : Option String) (values : List (Value α))
  | listSet (key : Option String) (index : ℤ) (value : Value α)
  | listRemove (key : Option String) (count : ℤ) (value : Value α)
  | listRange (key : Option String) (start stop : ℤ)
  | listSize (key : Option String)
  | listIndex (key : Option String) (index : ℤ)

namespace Command

variable {α : Type}

abbrev Reply : Command α → Type
  | .valueSet .. | .valueSetTimeout .. | .hashPutAll .. | .hashPut .. | .listSet .. => Unit
  | .valueGet .. | .hashGet .. | .listIndex .. => Value α
  | .hasKey .. | .hashHasKey .. | .setIsMember .. | .expire .. => Bool
  | .type .. => DataType
  | .hashEntries .. => Fields α
  | .setMembers .. | .listRange .. => List (Value α)
  | .valueIncrement .. | .delete .. | .getExpire .. | .hashDelete .. | .hashIncrement ..
  | .setAdd .. | .setRemove .. | .setSize .. | .listRightPush .. | .listRightPushAll ..
  | .listRemove .. | .listSize .. => ℤ

/-- The answer `false`, where the call has a Boolean answer. -/
def answerFalse : (c : Command α) → Option c.Reply
  | .hasKey .. | .hashHasKey .. | .setIsMember .. | .expire .. => some false
  | _ => none

end Command

/-! ## 1. Arguments -/

def illegalArgument (message : String) : JavaException where
  exceptionClass := .illegalArgumentException
  message := some message

def nullPointer : JavaException where
  exceptionClass := .nullPointerException
  message := none

def errorReply (message : String) : JavaException where
  exceptionClass := .dataAccessException
  message := some message

-- `AbstractOperations.rawKey`
def rawKey : Option String → Except JavaException String
  | some key => .ok key
  | none => .error (illegalArgument "non null key required")

-- `AbstractOperations.rawHashKey`
def rawHashKey : Option String → Except JavaException String
  | some hashKey => .ok hashKey
  | none => .error (illegalArgument "non null hash key required")

-- `AbstractOperations.rawValues` on a varargs array
def rawValues {α : Type} : Option (List (Value α)) → Except JavaException (List (Value α))
  | none => .error nullPointer
  -- sent as it is, and refused by the server
  | some [] => .error (errorReply "ERR wrong number of arguments")
  | some values => .ok values

-- `INCRBY` on a stored value
def incremented {α : Type} (value : Value α) (delta : ℤ) : Except JavaException ℤ :=
  match value with
  | .number n =>
      if -2 ^ 63 ≤ n + delta ∧ n + delta < 2 ^ 63 then .ok (n + delta)
      else .error (errorReply "ERR increment or decrement would overflow")
  | _ => .error (errorReply "ERR value is not an integer or out of range")

def listPosition {β : Type} (elements : List β) (index : ℤ) : ℤ :=
  -- a negative index counts from the end
  if index < 0 then elements.length + index else index

/-- `LRANGE`: both ends are clamped to the list. -/
def listSlice {β : Type} (elements : List β) (start stop : ℤ) : List β :=
  let first := (listPosition elements start).toNat
  let last := listPosition elements stop
  (elements.take (last + 1).toNat).drop first

/-- `LREM`: the first `count` occurrences, counted from the end when `count` is negative, or all. -/
def listRemoved {β : Type} [DecidableEq β] (elements : List β) (count : ℤ) (value : β) : List β :=
  if 0 < count then count.toNat.repeat (fun vs => vs.erase value) elements
  else if count < 0 then
    ((-count).toNat.repeat (fun vs => vs.erase value) elements.reverse).reverse
  else elements.filter (· ≠ value)

/-! ## 2. Times to live -/

/-- The server's clock in milliseconds: after 1970, and far from the end of the `long long` it is
kept in. -/
structure Clock where
  millis : ℕ
  pos : 0 < millis
  inRange : millis < 2 ^ 62

-- a reading of September 2020
def Clock.september : Clock := ⟨1600000000000, by decide, by decide⟩

/-- `TimeoutUtils.toMillis(timeout, TimeUnit.SECONDS)`, which stops at either end of `long`. -/
def toMillis (timeout : ℤ) : ℤ := max (-2 ^ 63) (min (1000 * timeout) (2 ^ 63 - 1))

/-- The moment a key expires, as the server reckons it: a sum of `long long`s, which wraps around. -/
def Clock.moment (now : Clock) (millis : ℤ) : ℤ := (millis + now.millis).bmod (2 ^ 64)

/-- `PEXPIRE` of Redis 6.0.7, which is what the template sends: a moment that has passed deletes the
key. -/
def Store.expire {α : Type} (now : Clock) (store : Store α) (key : String) (timeout : ℤ) :
    Bool × Store α :=
  match store key with
  | none => (false, store)
  | some entry =>
      let moment := now.moment (toMillis timeout)
      if moment ≤ now.millis then (true, store.erase key)
      else (true, store.set key { entry with ttl := some (moment - now.millis).toNat })

/-- The moment asked for is one of the server's. -/
def Clock.Fits (now : Clock) (timeout : ℤ) : Prop := 1000 * timeout + now.millis < 2 ^ 63

section Expire

variable {α : Type} {now : Clock} {timeout : ℤ}

theorem moment_of_fits (hpos : 0 < timeout) (h : now.Fits timeout) :
    now.moment (toMillis timeout) = 1000 * timeout + now.millis := by
  have hmillis : toMillis timeout = 1000 * timeout := by
    unfold toMillis Clock.Fits at *
    omega
  rw [Clock.moment, hmillis]
  unfold Clock.Fits at h
  apply Int.bmod_eq_of_le <;> omega

/-- A moment beyond the server's last one comes out before its first. -/
theorem moment_of_not_fits (h : ¬ now.Fits timeout) :
    now.moment (toMillis timeout) ≤ now.millis := by
  have hpos := now.pos
  have hrange := now.inRange
  unfold Clock.Fits at h
  have hmillis : 2 ^ 63 - now.millis ≤ toMillis timeout ∧ toMillis timeout < 2 ^ 63 := by
    unfold toMillis
    omega
  have hwrap : now.moment (toMillis timeout) = toMillis timeout + now.millis - 2 ^ 64 := by
    rw [Clock.moment, ← Int.sub_bmod_right]
    apply Int.bmod_eq_of_le <;> omega
  omega

theorem Store.expire_missing {store : Store α} {key : String} (hkey : store key = none) :
    store.expire now key timeout = (false, store) := by
  rw [expire, hkey]

theorem Store.expire_of_fits {store : Store α} {key : String} {entry : Entry α}
    (hkey : store key = some entry) (hpos : 0 < timeout) (h : now.Fits timeout) :
    store.expire now key timeout =
      (true, store.set key { entry with ttl := some (1000 * timeout).toNat }) := by
  simp only [expire, hkey, moment_of_fits hpos h]
  rw [if_neg (by omega), Int.add_sub_cancel]

theorem Store.expire_of_not_fits {store : Store α} {key : String} {entry : Entry α}
    (hkey : store key = some entry) (h : ¬ now.Fits timeout) :
    store.expire now key timeout = (true, store.erase key) := by
  simp only [expire, hkey, if_pos (moment_of_not_fits h)]

end Expire

/-! ## 3. Effects -/

section Run

variable {α : Type} [DecidableEq α]

-- a key left without elements is removed
def Store.putOrErase (store : Store α) (key : String) (data : Data α) (empty : Bool) : Store α :=
  if empty then store.erase key else store.put key data

/-- What a call answers and leaves behind when nothing fails; an error leaves the keyspace alone. -/
def Command.run (now : Clock) :
    (c : Command α) → Store α → Except JavaException (c.Reply × Store α)
  | .valueSet key value, store => do
      let key ← rawKey key
      return ((), store.set key { data := .string value, ttl := none })
  | .valueSetTimeout key value timeout, store => do
      let key ← rawKey key
      -- Jedis takes the seconds as an `int`
      if 2 ^ 31 - 1 < timeout then
        throw (illegalArgument "Time must be less than Integer.MAX_VALUE for setEx in Jedis.")
      if timeout ≤ 0 then throw (errorReply "ERR invalid expire time in setex")
      return ((), store.set key { data := .string value, ttl := some (1000 * timeout).toNat })
  | .valueGet key, store => do
      let key ← rawKey key
      let value ← store.fetch key Data.asString .null
      return (value, store)
  | .valueIncrement key delta, store => do
      let key ← rawKey key
      let value ← store.fetch key Data.asString (.number 0)
      let n ← incremented value delta
      return (n, store.put key (.string (.number n)))
  | .delete keys, store => do
      let keys ← keys.mapM rawKey
      return ((keys.dedup.filter fun key => (store key).isSome).length, keys.foldl Store.erase store)
  | .hasKey key, store => do
      let key ← rawKey key
      return ((store key).isSome, store)
  | .type key, store => do
      let key ← rawKey key
      return ((store key).elim .none fun entry => entry.data.type, store)
  | .getExpire key, store => do
      let key ← rawKey key
      -- `PTTL`, in whole seconds
      return ((store key).elim (-2) fun entry => entry.ttl.elim (-1) fun ms => (ms / 1000 : ℕ), store)
  | .expire key timeout, store => do
      let key ← rawKey key
      return store.expire now key timeout
  | .hashPutAll key m, store => do
      match m with
      | none => throw nullPointer
      | some m =>
          if m.entries.isEmpty then return ((), store)
          let key ← rawKey key
          let hashes ← m.entries.mapM fun entry => do return (← rawHashKey entry.1, entry.2)
          let fields ← store.fetch key Data.asHash ∅
          return ((), store.put key
            (.hash (hashes.foldl (fun fields entry => fields.insert entry.1 entry.2) fields)))
  | .hashPut key hashKey value, store => do
      let key ← rawKey key
      let hashKey ← rawHashKey hashKey
      let fields ← store.fetch key Data.asHash ∅
      return ((), store.put key (.hash (fields.insert hashKey value)))
  | .hashGet key hashKey, store => do
      let key ← rawKey key
      let hashKey ← rawHashKey hashKey
      let fields ← store.fetch key Data.asHash ∅
      return ((fields.lookup hashKey).getD .null, store)
  | .hashDelete key hashKeys, store => do
      let key ← rawKey key
      let hashKeys ← hashKeys.mapM rawHashKey
      if hashKeys.isEmpty then throw (errorReply "ERR wrong number of arguments")
      let fields ← store.fetch key Data.asHash ∅
      let rest := hashKeys.foldl (fun fields hashKey => fields.erase hashKey) fields
      return (fields.entries.length - rest.entries.length,
        store.putOrErase key (.hash rest) rest.entries.isEmpty)
  | .hashHasKey key hashKey, store => do
      let key ← rawKey key
      let hashKey ← rawHashKey hashKey
      let fields ← store.fetch key Data.asHash ∅
      return ((fields.lookup hashKey).isSome, store)
  | .hashIncrement key hashKey delta, store => do
      let key ← rawKey key
      let hashKey ← rawHashKey hashKey
      let fields ← store.fetch key Data.asHash ∅
      let n ← incremented ((fields.lookup hashKey).getD (.number 0)) delta
      return (n, store.put key (.hash (fields.insert hashKey (.number n))))
  | .hashEntries key, store => do
      let key ← rawKey key
      let fields ← store.fetch key Data.asHash ∅
      return (fields, store)
  | .setAdd key values, store => do
      let key ← rawKey key
      let values ← rawValues values
      let members ← store.fetch key Data.asSet []
      let union := values.foldl (fun members value => members.insert value) members
      return (union.length - members.length, store.put key (.set union))
  | .setRemove key values, store => do
      let key ← rawKey key
      let values ← rawValues values
      let members ← store.fetch key Data.asSet []
      let rest := members.filter (· ∉ values)
      return (members.length - rest.length, store.putOrErase key (.set rest) rest.isEmpty)
  | .setMembers key, store => do
      let key ← rawKey key
      let members ← store.fetch key Data.asSet []
      return (members, store)
  | .setIsMember key value, store => do
      let key ← rawKey key
      let members ← store.fetch key Data.asSet []
      return (decide (value ∈ members), store)
  | .setSize key, store => do
      let key ← rawKey key
      let members ← store.fetch key Data.asSet []
      return (members.length, store)
  | .listRightPush key value, store => do
      let key ← rawKey key
      let elements ← store.fetch key Data.asList []
      return (elements.length + 1, store.put key (.list (elements ++ [value])))
  | .listRightPushAll key values, store => do
      let key ← rawKey key
      let values ← rawValues (some values)
      let elements ← store.fetch key Data.asList []
      return (elements.length + values.length, store.put key (.list (elements ++ values)))
  | .listSet key index value, store => do
      let key ← rawKey key
      if (store key).isNone then throw (errorReply "ERR no such key")
      let elements ← store.fetch key Data.asList []
      let position := listPosition elements index
      if position < 0 ∨ elements.length ≤ position then throw (errorReply "ERR index out of range")
      return ((), store.put key (.list (elements.set position.toNat value)))
  | .listRemove key count value, store => do
      let key ← rawKey key
      let elements ← store.fetch key Data.asList []
      let rest := listRemoved elements count value
      return (elements.length - rest.length, store.putOrErase key (.list rest) rest.isEmpty)
  | .listRange key start stop, store => do
      let key ← rawKey key
      let elements ← store.fetch key Data.asList []
      return (listSlice elements start stop, store)
  | .listSize key, store => do
      let key ← rawKey key
      let elements ← store.fetch key Data.asList []
      return (elements.length, store)
  | .listIndex key index, store => do
      let key ← rawKey key
      let elements ← store.fetch key Data.asList []
      let position := listPosition elements index
      return (if position < 0 then .null else (elements[position.toNat]?).getD .null, store)

end Run

/-! ## 4. A server whose calls may fail -/

inductive Fault where
  | none
  | throws (e : JavaException)
  | answersFalse

/-- The keyspace, the time, and what will happen to the calls to come (nothing, past the end). -/
structure Server (α : Type) where
  store : Store α
  now : Clock
  faults : List Fault

namespace Server

variable {α : Type}

def fault (s : Server α) : Fault :=
  s.faults.headD .none

variable [DecidableEq α]

/-- One call on the server. -/
def exec (c : Command α) (s : Server α) : Except JavaException (Option c.Reply) × Server α :=
  match s.fault, c.run s.now s.store, c.answerFalse with
  | .throws e, _, _ | _, .error e, _ => (.error e, { s with faults := s.faults.tail })
  | .answersFalse, .ok _, some reply => (.ok (some reply), { s with faults := s.faults.tail })
  | _, .ok (reply, store), _ =>
      (.ok (some reply), { s with store := store, faults := s.faults.tail })

theorem exec_error_store {c : Command α} {s s' : Server α} {e : JavaException}
    (h : exec c s = (.error e, s')) : s'.store = s.store := by
  unfold exec at h
  split at h <;> cases h <;> rfl

end Server

end UtilsRepo.Redis
