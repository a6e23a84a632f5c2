import UtilsRepo.Lib.Fallible
import UtilsRepo.Redis.RedisTemplate

/-!
# `RedisUtil`

Every operation of `RedisUtil`, over any session `exec` that answers template calls: the answer is
`none` where the template returns `null`, as it does for the commands queued by a transaction.
`catch _` is the source's `catch (Exception e)`, which logs and answers a default.

The source's overloads carry the arguments they add in their names: `setExpired` is
`set(key, value, expired)`, `setListRListExpire` is `setListR(key, values, expire)`.
-/

namespace UtilsRepo.Redis

-- `RedisDataType`
inductive RedisDataType where
  | string | none | set | zset | list | stream | hash
  deriving DecidableEq, Repr

namespace RedisDataType

-- `RedisDataType.getValue()`
def value : RedisDataType → String
  | .string => "string"
  | .none => "none"
  | .set => "set"
  | .zset => "zset"
  | .list => "list"
  | .stream => "stream"
  | .hash => "hash"

/-- `RedisDataType.convertType`: the constant whose value is the type's code, or `null`. -/
def convertType (type : DataType) : Option RedisDataType :=
  [.string, .none, .set, .zset, .list, .stream, .hash].find? fun t => t.value = type.code

theorem convertType_value (type : DataType) :
    (convertType type).map value = some type.code := by
  cases type <;> rfl

end RedisDataType

namespace RedisUtil

variable {α σ : Type} (exec : (c : Command α) → σ → Except JavaException (Option c.Reply) × σ)

def call (c : Command α) : Fallible JavaException σ (Option c.Reply) :=
  Fallible.ofStep (exec c)

-- Java's unboxing of an answer
def unbox {β : Type} : Option β → Fallible JavaException σ β
  | some b => pure b
  | none => throw nullPointer

/-- `try { call; return true; } catch (Exception e) { return false; }` -/
def flag (c : Command α) : Fallible JavaException σ Bool := do
  try
    let _ ← call exec c
    pure true
  catch _ => pure false

/-- `try { return call; } catch (Exception e) { return null; }` -/
def answer (c : Command α) : Fallible JavaException σ (Option c.Reply) := do
  try call exec c
  catch _ => pure none

-- an answer that is an object already has Java's one `null`
def orNull (reply : Option (Value α)) : Value α := reply.getD .null

/-! ## 1. Times to live -/

-- `getExpire(String key)`
def getExpire (key : Option String) : Fallible JavaException σ (Option ℤ) :=
  answer exec (.getExpire key)

-- `setExpire(String key, long expire)`
def setExpire (key : Option String) (expire : ℤ) : Fallible JavaException σ Bool := do
  try
    if 0 < expire then
      -- the template's answer (`false` for a missing key) is dropped
      let _ ← call exec (.expire key expire)
    pure true
  catch _ => pure false

/-- `try { call; if (expire > 0) { this.setExpire(key, expire); } return true; }
catch (Exception e) { return false; }` -/
def flagExpire (c : Command α) (key : Option String) (expire : ℤ) :
    Fallible JavaException σ Bool := do
  try
    let _ ← call exec c
    if 0 < expire then
      -- `setExpire` has its own catch, and its answer is dropped
      let _ ← setExpire exec key expire
    pure true
  catch _ => pure false

/-! ## 2. Values and keys -/

-- `set(String key, Object value)`
def set (key : Option String) (value : Value α) : Fallible JavaException σ Bool :=
  flag exec (.valueSet key value)

-- `set(String key, Object value, long expired)`
def setExpired (key : Option String) (value : Value α) (expired : ℤ) :
    Fallible JavaException σ Bool := do
  try
    if expired ≤ 0 then
      -- the inner `set` has its own catch, and its answer is dropped
      let _ ← set exec key value
    else
      let _ ← call exec (.valueSetTimeout key value expired)
    pure true
  catch _ => pure false

-- `get(String key)`
def get (key : Option String) : Fallible JavaException σ (Value α) := do
  return orNull (← answer exec (.valueGet key))

-- `delete(String... key)`
def delete (key : Option (List (Option String))) : Fallible JavaException σ Unit := do
  match key with
  | some (k :: ks) =>
      let _ ← call exec (.delete (k :: ks))
  | _ => pure ()

-- `cal(String key, long delta)`
def cal (key : Option String) (delta : ℤ) : Fallible JavaException σ ℤ := do
  unbox (← call exec (.valueIncrement key delta))

-- `hasKey(String key)`
def hasKey (key : Option String) : Fallible JavaException σ Bool := do
  try unbox (← call exec (.hasKey key))
  catch _ => pure false

/-! ## 3. Hashes -/

-- `setHashMap(String key, Map<String, Object> hash)`
def setHashMap (key : Option String) (hash : Option (AList fun _ : Option String => Value α)) :
    Fallible JavaException σ Bool :=
  flag exec (.hashPutAll key hash)

-- `setHashMap(String key, Map<String, Object> hash, long expire)`
def setHashMapExpire (key : Option String)
    (hash : Option (AList fun _ : Option String => Value α)) (expire : ℤ) :
    Fallible JavaException σ Bool :=
  flagExpire exec (.hashPutAll key hash) key expire

-- `setHashValue(String key, String hashKey, Object value)`
def setHashValue (key hashKey : Option String) (value : Value α) :
    Fallible JavaException σ Bool :=
  flag exec (.hashPut key hashKey value)

-- `setHashValue(String key, String hashKey, Object value, long expire)`
def setHashValueExpire (key hashKey : Option String) (value : Value α) (expire : ℤ) :
    Fallible JavaException σ Bool :=
  flagExpire exec (.hashPut key hashKey value) key expire

-- `getHashValue(String key, String hashKey)`
def getHashValue (key hashKey : Option String) : Fallible JavaException σ (Value α) := do
  return orNull (← answer exec (.hashGet key hashKey))

-- `deleteHash(String key, Object... hashKeys)`
def deleteHash (key : Option String) (hashKeys : Option (List (Option String))) :
    Fallible JavaException σ Unit := do
  match hashKeys with
  | some (k :: ks) =>
      let _ ← call exec (.hashDelete key (k :: ks))
  | _ => pure ()

-- `hasHashKey(String key, String hashKey)`
def hasHashKey (key hashKey : Option String) : Fallible JavaException σ Bool := do
  unbox (← call exec (.hashHasKey key hashKey))

-- `hashCal(String key, String hashKey, long delta)`
def hashCal (key hashKey : Option String) (delta : ℤ) : Fallible JavaException σ (Option ℤ) :=
  call exec (.hashIncrement key hashKey delta)

-- `getHashMap(String key)`
def getHashMap (key : Option String) : Fallible JavaException σ (Option (Fields α)) :=
  answer exec (.hashEntries key)

/-! ## 4. Sets -/

-- `setSet(String key, Object... values)`
def setSet (key : Option String) (values : Option (List (Value α))) :
    Fallible JavaException σ (Option ℤ) :=
  answer exec (.setAdd key values)

-- `setSet(String key, long expire, Object... values)`
def setSetExpire (key : Option String) (expire : ℤ) (values : Option (List (Value α))) :
    Fallible JavaException σ (Option ℤ) := do
  try
    let result ← call exec (.setAdd key values)
    if 0 < expire then
      let _ ← setExpire exec key expire
    pure result
  catch _ => pure none

-- `getSet(String key)`
def getSet (key : Option String) : Fallible JavaException σ (Option (List (Value α))) :=
  answer exec (.setMembers key)

-- `hasSetKeyValue(String key, Object value)`
def hasSetKeyValue (key : Option String) (value : Value α) : Fallible JavaException σ Bool := do
  try unbox (← call exec (.setIsMember key value))
  catch _ => pure false

-- `getSetSize(String key)`
def getSetSize (key : Option String) : Fallible JavaException σ (Option ℤ) :=
  answer exec (.setSize key)

-- `deleteSet(String key, Object... values)`
def deleteSet (key : Option String) (values : Option (List (Value α))) :
    Fallible JavaException σ (Option ℤ) :=
  answer exec (.setRemove key values)

/-! ## 5. Lists -/

-- `setListR(String key, Object value)`
def setListR (key : Option String) (value : Value α) : Fallible JavaException σ Bool :=
  flag exec (.listRightPush key value)

-- `setListR(String key, Object value, long expire)`
def setListRExpire (key : Option String) (value : Value α) (expire : ℤ) :
    Fallible JavaException σ Bool := do
  try
    let _ ← call exec (.listRightPush key value)
    if 0 < expire then setExpire exec key expire else pure true
  catch _ => pure false

/-- The object a `List<? extends Object>` argument is; `null` stays `null`. -/
def listArgument (values : Option (List (Value α))) : Value α :=
  values.elim .null .list

-- `setListRAll(String key, List<? extends Object> values)`
def setListRAll (key : Option String) (values : Option (List (Value α))) :
    Fallible JavaException σ Bool :=
  -- a `List<? extends Object>` is no `Collection<Object>`: the call is
  -- `rightPushAll(K, V...)`, whose one varargs element is the whole list
  flag exec (.listRightPushAll key [listArgument values])

-- `setListR(String key, List<? extends Object> values, long expire)`
def setListRListExpire (key : Option String) (values : Option (List (Value α))) (expire : ℤ) :
    Fallible JavaException σ Bool :=
  flagExpire exec (.listRightPushAll key [listArgument values]) key expire

-- `updateList(String key, long index, Object value)`
def updateList (key : Option String) (index : ℤ) (value : Value α) :
    Fallible JavaException σ Bool :=
  flag exec (.listSet key index value)

-- `getList(String key, long start, long end)`
def getList (key : Option String) (start stop : ℤ) :
    Fallible JavaException σ (Option (List (Value α))) :=
  answer exec (.listRange key start stop)

-- `getListSize(String key)`
def getListSize (key : Option String) : Fallible JavaException σ (Option ℤ) :=
  answer exec (.listSize key)

-- `getListByIndex(String key, long index)`
def getListByIndex (key : Option String) (index : ℤ) : Fallible JavaException σ (Value α) := do
  return orNull (← answer exec (.listIndex key index))

-- `deleteList(String key, long count, Object value)`
def deleteList (key : Option String) (count : ℤ) (value : Value α) :
    Fallible JavaException σ (Option ℤ) :=
  answer exec (.listRemove key count value)

/-! ## 6. Bound operations and types -/

/-- `getListBound(String key)`, `getValueBound(String key)` and `getHashBound(String key)`: the bound
operations are those of the key answered, and `null` for a missing key. -/
def getBound (key : Option String) : Fallible JavaException σ (Option String) := do
  if ← hasKey exec key then pure key else pure none

-- `getDataType(String key)`
def getDataType (key : Option String) : Fallible JavaException σ (Option RedisDataType) := do
  return RedisDataType.convertType (← unbox (← call exec (.type key)))

end RedisUtil

end UtilsRepo.Redis
