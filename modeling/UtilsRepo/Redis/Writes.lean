import UtilsRepo.Redis.ServerCalls

/-!
# The writes of `RedisUtil`

Every operation that changes the keyspace and reports failure by `false` or `null`, as one type each,
with what it is meant to leave behind.
-/

namespace UtilsRepo.Redis

open Fallible RedisUtil

/-- The writes that answer `true` or `false`. -/
inductive FlagWrite (α : Type) where
  | set (key : Option String) (value : Value α)
  | setExpired (key : Option String) (value : Value α) (expired : ℤ)
  | setHashMap (key : Option String) (hash : Option (AList fun _ : Option String => Value α))
  | setHashMapExpire (key : Option String)
      (hash : Option (AList fun _ : Option String => Value α)) (expire : ℤ)
  | setHashValue (key hashKey : Option String) (value : Value α)
  | setHashValueExpire (key hashKey : Option String) (value : Value α) (expire : ℤ)
  | setListR (key : Option String) (value : Value α)
  | setListRExpire (key : Option String) (value : Value α) (expire : ℤ)
  | setListRAll (key : Option String) (values : Option (List (Value α)))
  | setListRListExpire (key : Option String) (values : Option (List (Value α))) (expire : ℤ)
  | updateList (key : Option String) (index : ℤ) (value : Value α)
  | setExpire (key : Option String) (expire : ℤ)

/-- The writes that answer a count, or `null`. -/
inductive CountWrite (α : Type) where
  | setSet (key : Option String) (values : Option (List (Value α)))
  | setSetExpire (key : Option String) (expire : ℤ) (values : Option (List (Value α)))
  | deleteSet (key : Option String) (values : Option (List (Value α)))
  | deleteList (key : Option String) (count : ℤ) (value : Value α)

variable {α σ : Type}

section Run

variable (exec : (c : Command α) → σ → Except JavaException (Option c.Reply) × σ)

def FlagWrite.run : FlagWrite α → Fallible JavaException σ Bool
  | .set key value => RedisUtil.set exec key value
  | .setExpired key value expired => RedisUtil.setExpired exec key value expired
  | .setHashMap key hash => RedisUtil.setHashMap exec key hash
  | .setHashMapExpire key hash expire => RedisUtil.setHashMapExpire exec key hash expire
  | .setHashValue key hashKey value => RedisUtil.setHashValue exec key hashKey value
  | .setHashValueExpire key hashKey value expire =>
      RedisUtil.setHashValueExpire exec key hashKey value expire
  | .setListR key value => RedisUtil.setListR exec key value
  | .setListRExpire key value expire => RedisUtil.setListRExpire exec key value expire
  | .setListRAll key values => RedisUtil.setListRAll exec key values
  | .setListRListExpire key values expire => RedisUtil.setListRListExpire exec key values expire
  | .updateList key index value => RedisUtil.updateList exec key index value
  | .setExpire key expire => RedisUtil.setExpire exec key expire

def CountWrite.run : CountWrite α → Fallible JavaException σ (Option ℤ)
  | .setSet key values => RedisUtil.setSet exec key values
  | .setSetExpire key expire values => RedisUtil.setSetExpire exec key expire values
  | .deleteSet key values => RedisUtil.deleteSet exec key values
  | .deleteList key count value => RedisUtil.deleteList exec key count value

end Run

namespace FlagWrite

def key : FlagWrite α → Option String
  | .set key _ | .setExpired key _ _ | .setHashMap key _ | .setHashMapExpire key _ _
  | .setHashValue key _ _ | .setHashValueExpire key _ _ _ | .setListR key _
  | .setListRExpire key _ _ | .setListRAll key _ | .setListRListExpire key _ _
  | .updateList key _ _ | .setExpire key _ => key

/-- The expiry requested in seconds; nothing is requested by a value that is not positive. -/
def expire : FlagWrite α → ℤ
  | .setExpired _ _ expire | .setHashMapExpire _ _ expire | .setHashValueExpire _ _ _ expire
  | .setListRExpire _ _ expire | .setListRListExpire _ _ expire | .setExpire _ expire => expire
  | .set .. | .setHashMap .. | .setHashValue .. | .setListR .. | .setListRAll ..
  | .updateList .. => 0

end FlagWrite

def Store.HasField (store : Store α) (key hashKey : Option String) (value : Value α) : Prop :=
  ∃ fields hk, store.data key = some (.hash fields) ∧ hashKey = some hk ∧
    fields.lookup hk = some value

/-- Between the two keyspaces, the values of the write came to be held in full. -/
def FlagWrite.Wrote (before after : Store α) : FlagWrite α → Prop
  | .set key value | .setExpired key value _ => after.data key = some (.string value)
  | .setHashMap key hash | .setHashMapExpire key hash _ =>
      ∀ m, hash = some m → ∀ entry ∈ m.entries, after.HasField key entry.1 entry.2
  | .setHashValue key hashKey value | .setHashValueExpire key hashKey value _ =>
      after.HasField key hashKey value
  | .setListR key value | .setListRExpire key value _ =>
      after.elements key = before.elements key ++ [value]
  | .setListRAll key values | .setListRListExpire key values _ =>
      after.elements key = before.elements key ++ values.getD []
  | .updateList key index value =>
      0 ≤ listPosition (before.elements key) index ∧
        listPosition (before.elements key) index < (before.elements key).length ∧
        after.elements key =
          (before.elements key).set (listPosition (before.elements key) index).toNat value
  | .setExpire .. => True

/-- The write did what was asked: its values are held, and a positive expiry is the key's time to
live. -/
def FlagWrite.Achieved (before after : Store α) (w : FlagWrite α) : Prop :=
  w.Wrote before after ∧ (0 < w.expire → after.Expires w.key w.expire)

/-! ## 1. The operations with a body of their own -/

section Bodies

variable [DecidableEq α]

theorem eval_setExpired_nonpos (s : Server α) (key : Option String) (value : Value α)
    {expired : ℤ} (h : expired ≤ 0) :
    ∃ reported s', eval (RedisUtil.set Server.exec key value) s = (.ok reported, s') ∧
      eval (RedisUtil.setExpired Server.exec key value expired) s = (.ok true, s') := by
  simp only [RedisUtil.setExpired, h, if_true]
  rcases eval_flag s (c := .valueSet key value) rfl with ⟨-, hs⟩ | ⟨-, _, _, -, hs⟩ <;>
    exact ⟨_, _, hs, eval_tryCatch_ok _ (eval_bind_ok _ hs)⟩

theorem eval_setExpired_pos (s : Server α) (key : Option String) (value : Value α)
    {expired : ℤ} (h : 0 < expired) :
    eval (RedisUtil.setExpired Server.exec key value expired) s =
      eval (flag Server.exec (.valueSetTimeout key value expired)) s := by
  simp only [RedisUtil.setExpired, Int.not_le.mpr h, if_false, flag]

-- the one write that passes on what `setExpire` answers
theorem eval_setListRExpire (s : Server α) (key : Option String) (value : Value α) (expire : ℤ) :
    s.Throws (.listRightPush key value) ∧
        eval (RedisUtil.setListRExpire Server.exec key value expire) s = (.ok false, s.next) ∨
      ¬ s.Throws (.listRightPush key value) ∧ ∃ reply store,
        (Command.listRightPush key value).run s.now s.store = .ok (reply, store) ∧
        ∃ reported s',
          eval (RedisUtil.setListRExpire Server.exec key value expire) s = (.ok reported, s') ∧
          (expire ≤ 0 ∧ reported = true ∧ s' = { s with store := store, faults := s.faults.tail } ∨
            0 < expire ∧
              ExpireOutcome { s with store := store, faults := s.faults.tail } s' key expire reported) := by
  by_cases h : s.Throws (.listRightPush key value)
  · obtain ⟨e, he⟩ := Server.call_of_throws h
    refine .inl ⟨h, ?_⟩
    rw [RedisUtil.setListRExpire, eval_tryCatch_error _ (eval_bind_error _ he), eval_pure]
  · obtain ⟨reply, store, hrun, hexec⟩ := Server.call_of_not_throws h rfl
    refine .inr ⟨h, reply, store, hrun, ?_⟩
    rw [RedisUtil.setListRExpire]
    by_cases hpos : 0 < expire
    · obtain ⟨reported, s', hs', hout⟩ :=
        eval_setExpire { s with store := store, faults := s.faults.tail } key hpos
      simp only [hpos, if_true]
      exact ⟨reported, s', eval_tryCatch_ok _ ((eval_bind_ok _ hexec).trans hs'),
        .inr ⟨trivial, hout⟩⟩
    · simp only [hpos, if_false]
      exact ⟨true, _, eval_tryCatch_ok _ (eval_bind_ok _ hexec), .inl ⟨by omega, rfl, rfl⟩⟩

theorem eval_setSetExpire (s : Server α) (key : Option String) (expire : ℤ)
    (values : Option (List (Value α))) :
    eval (RedisUtil.setSetExpire Server.exec key expire values) s = (.ok none, s.next) ∨
      ∃ n s', eval (RedisUtil.setSetExpire Server.exec key expire values) s = (.ok (some n), s') := by
  rw [RedisUtil.setSetExpire]
  by_cases h : s.Throws (.setAdd key values)
  · obtain ⟨e, he⟩ := Server.call_of_throws h
    left
    rw [eval_tryCatch_error _ (eval_bind_error _ he), eval_pure]
  · obtain ⟨reply, store, -, hexec⟩ := Server.call_of_not_throws h rfl
    refine .inr ⟨reply, ?_⟩
    by_cases hpos : 0 < expire
    · obtain ⟨reported, s', hs', -⟩ :=
        eval_setExpire { s with store := store, faults := s.faults.tail } key hpos
      simp only [hpos, if_true]
      exact ⟨s', eval_tryCatch_ok _ ((eval_bind_ok _ hexec).trans (eval_bind_ok _ hs'))⟩
    · simp only [hpos, if_false]
      exact ⟨_, eval_tryCatch_ok _ (eval_bind_ok _ hexec)⟩

end Bodies

end UtilsRepo.Redis
