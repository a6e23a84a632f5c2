import UtilsRepo.Redis.Writes

/-!
# `RedisUtil` in a transaction

Between `multi()` and `exec()` the template checks its arguments as ever, queues the command and answers
`null`.  Three operations take a number or a Boolean out of that `null` outside any `try` block.
-/

namespace UtilsRepo.Redis

open Fallible RedisUtil

variable {α : Type}

/-! ## 1. Queued commands -/

/-- What the template checks before it sends a command. -/
def Command.check : Command α → Except JavaException Unit
  | .valueSet key _ | .valueGet key | .valueIncrement key _ | .hasKey key | .type key
  | .getExpire key | .expire key _ | .hashEntries key | .setMembers key | .setIsMember key _
  | .setSize key | .listRightPush key _ | .listRightPushAll key _ | .listSet key _ _
  | .listRemove key _ _ | .listRange key _ _ | .listSize key | .listIndex key _ => do
      let _ ← rawKey key
  | .valueSetTimeout key _ timeout => do
      let _ ← rawKey key
      if 2 ^ 31 - 1 < timeout then
        throw (illegalArgument "Time must be less than Integer.MAX_VALUE for setEx in Jedis.")
  | .delete keys => do
      let _ ← keys.mapM rawKey
  | .hashPut key hashKey _ | .hashGet key hashKey | .hashHasKey key hashKey
  | .hashIncrement key hashKey _ => do
      let _ ← rawKey key
      let _ ← rawHashKey hashKey
  | .hashDelete key hashKeys => do
      let _ ← rawKey key
      let _ ← hashKeys.mapM rawHashKey
  | .hashPutAll key m => do
      match m with
      | none => throw nullPointer
      | some m =>
          -- an empty map is not sent at all
          if m.entries.isEmpty then return ()
          let _ ← rawKey key
          let _ ← m.entries.mapM fun entry => do return (← rawHashKey entry.1, entry.2)
  | .setAdd key values | .setRemove key values => do
      let _ ← rawKey key
      if values.isNone then throw nullPointer

theorem error_of_check {β : Type} {m : Except JavaException β} {e : JavaException}
    (h : (do let _ ← m) = .error e) : m = .error e := by
  cases m with
  | error e' => cases h; rfl
  | ok b => cases h

-- an argument the template refuses never reaches the server
theorem Command.run_of_check_error [DecidableEq α] {c : Command α} {e : JavaException}
    (h : c.check = .error e) (now : Clock) (store : Store α) : c.run now store = .error e := by
  cases c with
  | valueSet key | valueGet key | valueIncrement key | hasKey key | type key | getExpire key
  | expire key | hashEntries key | setMembers key | setIsMember key | setSize key
  | listRightPush key | listRightPushAll key | listSet key | listRemove key | listRange key
  | listSize key | listIndex key =>
    cases key with
    | none => cases h; rfl
    | some k => cases h
  | hashPut key hashKey | hashGet key hashKey | hashHasKey key hashKey | hashIncrement key hashKey =>
    cases key <;> cases hashKey <;> cases h <;> rfl
  | setAdd key values | setRemove key values => cases key <;> cases values <;> cases h <;> rfl
  | valueSetTimeout key value timeout =>
    cases key with
    | none => cases h; rfl
    | some k =>
      by_cases htimeout : 2 ^ 31 - 1 < timeout
      · simp only [check, run, htimeout, if_true] at h ⊢
        cases h
        rfl
      · simp only [check, htimeout, if_false] at h
        cases h
  | delete keys =>
    simp only [run, error_of_check h]
    rfl
  | hashDelete key hashKeys =>
    cases key with
    | none => cases h; rfl
    | some k =>
      have hkeys : hashKeys.mapM rawHashKey = .error e := error_of_check h
      simp only [run, hkeys]
      rfl
  | hashPutAll key m =>
    cases m with
    | none => cases h; rfl
    | some m =>
      cases hempty : m.entries.isEmpty with
      | true => simp only [check, hempty, if_true] at h; cases h
      | false =>
        simp only [check, run, hempty] at h ⊢
        cases key with
        | none => cases h; rfl
        | some k =>
          have hentries : (m.entries.mapM fun entry => do
              return (← rawHashKey entry.1, entry.2)) = .error e := error_of_check h
          rw [hentries]
          rfl

/-- The server does not queue a command without the values it needs. -/
def Command.refused : Command α → Bool
  | .setAdd _ values | .setRemove _ values => values.any List.isEmpty
  | .hashDelete _ hashKeys => hashKeys.isEmpty
  | .listRightPushAll _ values => values.isEmpty
  | _ => false

/-- One call on a session that queues.  (A `putAll` of an empty map, which has no effect, is queued as
well.) -/
def queue (c : Command α) (queued : List (Command α)) :
    Except JavaException (Option c.Reply) × List (Command α) :=
  match c.check with
  | .error e => (.error e, queued)
  | .ok () => (.ok none, queued ++ [c])

section Exec

variable [DecidableEq α] (now : Clock)

-- a queued command that fails has no effect
def Command.apply (store : Store α) (c : Command α) : Store α :=
  match c.run now store with
  | .ok (_, store') => store'
  | .error _ => store

def execAbort : JavaException :=
  errorReply "EXECABORT Transaction discarded because of previous errors."

/-- `exec()`: all that was queued, in order, or nothing after a refusal. -/
def commit (store : Store α) (queued : List (Command α)) : Except JavaException (Store α) :=
  if queued.any Command.refused then .error execAbort
  else .ok (queued.foldl (Command.apply now) store)

end Exec

/-! ## 2. The operations -/

/-- Every operation of `RedisUtil`; the three bound operations are one. -/
inductive UtilCall (α : Type) where
  | flagWrite (w : FlagWrite α)
  | countWrite (w : CountWrite α)
  | get (key : Option String)
  | delete (key : Option (List (Option String)))
  | cal (key : Option String) (delta : ℤ)
  | hasKey (key : Option String)
  | getHashValue (key hashKey : Option String)
  | deleteHash (key : Option String) (hashKeys : Option (List (Option String)))
  | hasHashKey (key hashKey : Option String)
  | hashCal (key hashKey : Option String) (delta : ℤ)
  | getHashMap (key : Option String)
  | getSet (key : Option String)
  | hasSetKeyValue (key : Option String) (value : Value α)
  | getSetSize (key : Option String)
  | getList (key : Option String) (start stop : ℤ)
  | getListSize (key : Option String)
  | getListByIndex (key : Option String) (index : ℤ)
  | getExpire (key : Option String)
  | getBound (key : Option String)
  | getDataType (key : Option String)

/-- The call on a session, its answer left aside. -/
def UtilCall.run {σ : Type}
    (exec : (c : Command α) → σ → Except JavaException (Option c.Reply) × σ) :
    UtilCall α → Fallible JavaException σ Unit
  | .flagWrite w => do let _ ← w.run exec
  | .countWrite w => do let _ ← w.run exec
  | .get key => do let _ ← RedisUtil.get exec key
  | .delete key => RedisUtil.delete exec key
  | .cal key delta => do let _ ← RedisUtil.cal exec key delta
  | .hasKey key => do let _ ← RedisUtil.hasKey exec key
  | .getHashValue key hashKey => do let _ ← RedisUtil.getHashValue exec key hashKey
  | .deleteHash key hashKeys => RedisUtil.deleteHash exec key hashKeys
  | .hasHashKey key hashKey => do let _ ← RedisUtil.hasHashKey exec key hashKey
  | .hashCal key hashKey delta => do let _ ← RedisUtil.hashCal exec key hashKey delta
  | .getHashMap key => do let _ ← RedisUtil.getHashMap exec key
  | .getSet key => do let _ ← RedisUtil.getSet exec key
  | .hasSetKeyValue key value => do let _ ← RedisUtil.hasSetKeyValue exec key value
  | .getSetSize key => do let _ ← RedisUtil.getSetSize exec key
  | .getList key start stop => do let _ ← RedisUtil.getList exec key start stop
  | .getListSize key => do let _ ← RedisUtil.getListSize exec key
  | .getListByIndex key index => do let _ ← RedisUtil.getListByIndex exec key index
  | .getExpire key => do let _ ← RedisUtil.getExpire exec key
  | .getBound key => do let _ ← RedisUtil.getBound exec key
  | .getDataType key => do let _ ← RedisUtil.getDataType exec key

def expireCommands (key : Option String) (expire : ℤ) : List (Command α) :=
  if 0 < expire then [.expire key expire] else []

def FlagWrite.commands : FlagWrite α → List (Command α)
  | .set key value => [.valueSet key value]
  | .setExpired key value expired =>
      if expired ≤ 0 then [.valueSet key value] else [.valueSetTimeout key value expired]
  | .setHashMap key hash => [.hashPutAll key hash]
  | .setHashMapExpire key hash expire => .hashPutAll key hash :: expireCommands key expire
  | .setHashValue key hashKey value => [.hashPut key hashKey value]
  | .setHashValueExpire key hashKey value expire =>
      .hashPut key hashKey value :: expireCommands key expire
  | .setListR key value => [.listRightPush key value]
  | .setListRExpire key value expire => .listRightPush key value :: expireCommands key expire
  | .setListRAll key values => [.listRightPushAll key [listArgument values]]
  | .setListRListExpire key values expire =>
      .listRightPushAll key [listArgument values] :: expireCommands key expire
  | .updateList key index value => [.listSet key index value]
  | .setExpire key expire => expireCommands key expire

def CountWrite.commands : CountWrite α → List (Command α)
  | .setSet key values => [.setAdd key values]
  | .setSetExpire key expire values => .setAdd key values :: expireCommands key expire
  | .deleteSet key values => [.setRemove key values]
  | .deleteList key count value => [.listRemove key count value]

/-- The template commands a call makes, in order. -/
def UtilCall.commands : UtilCall α → List (Command α)
  | .flagWrite w => w.commands
  | .countWrite w => w.commands
  | .get key => [.valueGet key]
  | .delete (some (k :: ks)) => [.delete (k :: ks)]
  | .delete _ => []
  | .cal key delta => [.valueIncrement key delta]
  | .hasKey key | .getBound key => [.hasKey key]
  | .getHashValue key hashKey => [.hashGet key hashKey]
  | .deleteHash key (some (k :: ks)) => [.hashDelete key (k :: ks)]
  | .deleteHash _ _ => []
  | .hasHashKey key hashKey => [.hashHasKey key hashKey]
  | .hashCal key hashKey delta => [.hashIncrement key hashKey delta]
  | .getHashMap key => [.hashEntries key]
  | .getSet key => [.setMembers key]
  | .hasSetKeyValue key value => [.setIsMember key value]
  | .getSetSize key => [.setSize key]
  | .getList key start stop => [.listRange key start stop]
  | .getListSize key => [.listSize key]
  | .getListByIndex key index => [.listIndex key index]
  | .getExpire key => [.getExpire key]
  | .getDataType key => [.type key]

/-- The call takes its answer out of the reply outside any `try` block. -/
def UtilCall.unboxes : UtilCall α → Bool
  | .cal .. | .hasHashKey .. | .getDataType .. => true
  | _ => false

/-- One of its commands cannot be queued: a set operation without values. -/
def UtilCall.refused (call : UtilCall α) : Bool :=
  call.commands.any Command.refused

/-- The template accepts the arguments. -/
def UtilCall.Admitted (call : UtilCall α) : Prop :=
  ∀ c ∈ call.commands, c.check = .ok ()

/-! ## 3. What a call queues -/

/-- On a session that queues, code that makes these calls answers `b`. -/
def Queues {β : Type} (m : Fallible JavaException (List (Command α)) β) (b : β)
    (cs : List (Command α)) : Prop :=
  (∀ c ∈ cs, c.check = .ok ()) → ∀ queued, eval m queued = (.ok b, queued ++ cs)

section Queues

variable {β γ : Type} {m : Fallible JavaException (List (Command α)) β} {b : β} {d : γ}
  {cs cs' : List (Command α)}

theorem eval_call_queue {c : Command α} (h : c.check = .ok ()) (queued : List (Command α)) :
    eval (call queue c) queued = (.ok none, queued ++ [c]) := by
  rw [call, eval_ofStep, queue, h]

theorem Queues.call (c : Command α) : Queues (RedisUtil.call queue c) none [c] :=
  fun h => eval_call_queue (h c List.mem_cons_self)

theorem Queues.pure (b : β) : Queues (Pure.pure b) b ([] : List (Command α)) := by
  intro _ queued
  rw [List.append_nil, eval_pure]

theorem Queues.bind {f : β → Fallible JavaException (List (Command α)) γ} (hm : Queues m b cs)
    (hf : Queues (f b) d cs') : Queues (m >>= f) d (cs ++ cs') := by
  intro h queued
  rw [List.forall_mem_append] at h
  rw [eval_bind_ok _ (hm h.1 queued), hf h.2, List.append_assoc]

theorem Queues.bind_pure {f : β → Fallible JavaException (List (Command α)) γ} (hm : Queues m b cs)
    (hf : f b = Pure.pure d) : Queues (m >>= f) d cs := by
  have h := hm.bind (hf ▸ Queues.pure d)
  rwa [List.append_nil] at h

theorem Queues.tryCatch (hm : Queues m b cs)
    (handler : JavaException → Fallible JavaException (List (Command α)) β) :
    Queues (MonadExcept.tryCatch m handler) b cs :=
  fun h queued => eval_tryCatch_ok _ (hm h queued)

theorem Queues.flag (c : Command α) : Queues (RedisUtil.flag queue c) true [c] := by
  apply Queues.tryCatch
  exact (Queues.call c).bind_pure rfl

theorem Queues.answer (c : Command α) : Queues (RedisUtil.answer queue c) none [c] :=
  (Queues.call c).tryCatch _

theorem Queues.setExpire (key : Option String) (expire : ℤ) :
    Queues (RedisUtil.setExpire queue key expire) true
      (expireCommands key expire : List (Command α)) := by
  unfold RedisUtil.setExpire expireCommands
  apply Queues.tryCatch
  split
  · exact (Queues.call _).bind_pure rfl
  · exact Queues.pure true

/-- The end of the blocks that set an expiry when one is asked for. -/
theorem Queues.expire (key : Option String) (expire : ℤ) (b : β) :
    Queues (do
      if 0 < expire then
        let _ ← RedisUtil.setExpire queue key expire
      Pure.pure b) b (expireCommands key expire : List (Command α)) := by
  by_cases h : 0 < expire
  · simp only [h, if_true]
    exact (Queues.setExpire key expire).bind_pure rfl
  · simp only [h, if_false, expireCommands]
    exact Queues.pure b

theorem Queues.flagExpire (c : Command α) (key : Option String) (expire : ℤ) :
    Queues (RedisUtil.flagExpire queue c key expire) true (c :: expireCommands key expire) := by
  apply Queues.tryCatch
  exact (Queues.call c).bind (Queues.expire key expire true)

theorem queues_flagWrite (w : FlagWrite α) : Queues (w.run queue) true w.commands := by
  cases w with
  | set key value => exact Queues.flag _
  | setExpired key value expired =>
    by_cases h : expired ≤ 0
    · simp only [FlagWrite.run, RedisUtil.setExpired, FlagWrite.commands, h, if_true]
      apply Queues.tryCatch
      exact (Queues.flag _).bind_pure rfl
    · simp only [FlagWrite.run, RedisUtil.setExpired, FlagWrite.commands, h, if_false]
      apply Queues.tryCatch
      exact (Queues.call _).bind_pure rfl
  | setHashMap key hash => exact Queues.flag _
  | setHashMapExpire key hash expire => exact Queues.flagExpire _ key expire
  | setHashValue key hashKey value => exact Queues.flag _
  | setHashValueExpire key hashKey value expire => exact Queues.flagExpire _ key expire
  | setListR key value => exact Queues.flag _
  | setListRExpire key value expire =>
    apply Queues.tryCatch
    show Queues _ true ([.listRightPush key value] ++ expireCommands key expire)
    apply (Queues.call _).bind
    -- here the answer of `setExpire` is passed on
    by_cases h : 0 < expire
    · simp only [h, if_true]
      exact Queues.setExpire key expire
    · simp only [h, if_false, expireCommands]
      exact Queues.pure true
  | setListRAll key values => exact Queues.flag _
  | setListRListExpire key values expire => exact Queues.flagExpire _ key expire
  | updateList key index value => exact Queues.flag _
  | setExpire key expire => exact Queues.setExpire key expire

theorem queues_countWrite (w : CountWrite α) : Queues (w.run queue) none w.commands := by
  cases w with
  | setSet key values => exact Queues.answer _
  | setSetExpire key expire values =>
    unfold CountWrite.run RedisUtil.setSetExpire
    apply Queues.tryCatch
    exact (Queues.call _).bind (Queues.expire key expire none)
  | deleteSet key values => exact Queues.answer _
  | deleteList key count value => exact Queues.answer _

/-- A `null` that is unboxed throws, and the block catches it. -/
theorem eval_unboxed {c : Command α} {f : Option c.Reply → Fallible JavaException (List (Command α)) β}
    (hf : f none = throw nullPointer) (h : c.check = .ok ()) (queued : List (Command α)) :
    eval (RedisUtil.call queue c >>= f) queued = (.error nullPointer, queued ++ [c]) := by
  rw [eval_bind_ok _ (eval_call_queue h queued), hf, eval_throw]

theorem Queues.caught {c : Command α} {f : Option c.Reply → Fallible JavaException (List (Command α)) β}
    (hf : f none = throw nullPointer) (b : β) :
    Queues (MonadExcept.tryCatch (RedisUtil.call queue c >>= f) fun _ => Pure.pure b) b [c] := by
  intro h queued
  rw [eval_tryCatch_error _ (eval_unboxed hf (h c List.mem_cons_self) queued), eval_pure]

theorem Queues.hasKey (key : Option String) :
    Queues (RedisUtil.hasKey queue key) false ([.hasKey key] : List (Command α)) :=
  Queues.caught rfl false

theorem queues_of_not_unboxes {call : UtilCall α} (h : call.unboxes = false) :
    Queues (call.run queue) () call.commands := by
  cases call with
  | flagWrite w => exact (queues_flagWrite w).bind_pure rfl
  | countWrite w => exact (queues_countWrite w).bind_pure rfl
  | delete key =>
    match key with
    | none | some [] => exact Queues.pure ()
    | some (k :: ks) => exact (Queues.call _).bind_pure rfl
  | deleteHash key hashKeys =>
    match hashKeys with
    | none | some [] => exact Queues.pure ()
    | some (k :: ks) => exact (Queues.call _).bind_pure rfl
  | cal | hasHashKey | getDataType => cases h
  | hasKey key => exact (Queues.hasKey key).bind_pure rfl
  | getBound key =>
    have hbound : Queues (RedisUtil.getBound queue key) none ([.hasKey key] : List (Command α)) :=
      (Queues.hasKey key).bind_pure rfl
    exact hbound.bind_pure rfl
  | hasSetKeyValue key value =>
    have hmember : Queues (RedisUtil.hasSetKeyValue queue key value) false [.setIsMember key value] :=
      Queues.caught rfl false
    exact hmember.bind_pure rfl
  | hashCal key hashKey delta => exact (Queues.call _).bind_pure rfl
  | get | getHashValue | getListByIndex =>
    exact Queues.bind_pure (b := Value.null) ((Queues.answer _).bind_pure rfl) rfl
  | getHashMap | getSet | getSetSize | getList | getListSize | getExpire =>
    exact (Queues.answer _).bind_pure rfl

end Queues

theorem eval_of_unboxes {call : UtilCall α} (h : call.unboxes = true) (hadm : call.Admitted)
    (queued : List (Command α)) :
    eval (call.run queue) queued = (.error nullPointer, queued ++ call.commands) := by
  cases call with
  | cal key delta =>
    exact eval_bind_error _ (eval_unboxed rfl (hadm _ List.mem_cons_self) queued)
  | hasHashKey key hashKey =>
    exact eval_bind_error _ (eval_unboxed rfl (hadm _ List.mem_cons_self) queued)
  | getDataType key =>
    exact eval_bind_error _ (eval_unboxed rfl (hadm _ List.mem_cons_self) queued)
  | _ => cases h

/-! ## 4. Whole transactions -/

section Transaction

/-- The calls between `multi()` and `exec()`: the keyspace after `exec()`, which a call that throws
keeps from being reached. -/
def transaction [DecidableEq α] (now : Clock) (calls : List (UtilCall α)) (store : Store α) :
    Except JavaException (Store α) :=
  match eval (calls.forM fun call => call.run queue) [] with
  | (.ok (), queued) => commit now store queued
  | (.error e, _) => .error e

def Command.isWrite : Command α → Bool
  | .valueSet .. | .valueSetTimeout .. | .valueIncrement .. | .delete .. | .expire ..
  | .hashPutAll .. | .hashPut .. | .hashDelete .. | .hashIncrement .. | .setAdd ..
  | .setRemove .. | .listRightPush .. | .listRightPushAll .. | .listSet .. | .listRemove .. => true
  | _ => false

def writeCommands (calls : List (UtilCall α)) : List (Command α) :=
  (calls.flatMap UtilCall.commands).filter Command.isWrite

theorem eval_calls {calls : List (UtilCall α)} (hadm : ∀ call ∈ calls, call.Admitted)
    (h : ∀ call ∈ calls, call.unboxes = false) (queued : List (Command α)) :
    eval (calls.forM fun call => call.run queue) queued =
      (.ok (), queued ++ calls.flatMap UtilCall.commands) := by
  induction calls generalizing queued with
  | nil => simp
  | cons call calls ih =>
    rw [List.forall_mem_cons] at hadm h
    have hcall := queues_of_not_unboxes h.1 hadm.1 queued
    change eval (call.run queue >>= fun _ => calls.forM fun call => call.run queue) queued = _
    rw [eval_bind_ok _ hcall, ih hadm.2 h.2, List.flatMap_cons, List.append_assoc]

theorem eval_calls_of_unboxes {calls : List (UtilCall α)} (hadm : ∀ call ∈ calls, call.Admitted)
    (h : ∃ call ∈ calls, call.unboxes = true) (queued : List (Command α)) :
    ∃ queued', eval (calls.forM fun call => call.run queue) queued =
      (.error nullPointer, queued') := by
  induction calls generalizing queued with
  | nil =>
    obtain ⟨_, hmem, -⟩ := h
    cases hmem
  | cons call calls ih =>
    rw [List.forall_mem_cons] at hadm
    change ∃ queued', eval (call.run queue >>= fun _ =>
      calls.forM fun call => call.run queue) queued = _
    cases hcall : call.unboxes with
    | true => exact ⟨_, eval_bind_error _ (eval_of_unboxes hcall hadm.1 queued)⟩
    | false =>
      -- the first one that throws comes later
      obtain ⟨call', hmem, hcall'⟩ := h
      have htail : call' ∈ calls := by
        rcases List.mem_cons.mp hmem with rfl | hmem
        · rw [hcall] at hcall'
          cases hcall'
        · exact hmem
      rw [eval_bind_ok _ (queues_of_not_unboxes hcall hadm.1 queued)]
      exact ih hadm.2 ⟨call', htail, hcall'⟩ _

-- a computation that can only leave the keyspace it was given
def Unchanging {β : Type} (store : Store α) (m : Except JavaException (β × Store α)) : Prop :=
  ∀ r store', m = .ok (r, store') → store' = store

theorem Unchanging.pure {β : Type} {store : Store α} (b : β) :
    Unchanging store (Pure.pure (b, store)) := by
  intro r store' h
  cases h
  rfl

theorem Unchanging.bind {β γ : Type} {store : Store α} {m : Except JavaException γ}
    {f : γ → Except JavaException (β × Store α)} (hf : ∀ c, Unchanging store (f c)) :
    Unchanging store (m >>= f) := by
  intro r store' h
  obtain ⟨c, -, h⟩ := except_bind_ok h
  exact hf c r store' h

variable [DecidableEq α]

theorem unchanging_of_read {c : Command α} (h : c.isWrite = false) (now : Clock) (store : Store α) :
    Unchanging store (c.run now store) := by
  cases c with
  | hasKey | type | getExpire => exact Unchanging.bind fun _ => Unchanging.pure _
  | valueGet | hashEntries | setMembers | setIsMember | setSize | listRange | listSize | listIndex =>
    exact Unchanging.bind fun _ => Unchanging.bind fun _ => Unchanging.pure _
  | hashGet | hashHasKey =>
    exact Unchanging.bind fun _ => Unchanging.bind fun _ => Unchanging.bind fun _ => Unchanging.pure _
  | _ => cases h

theorem apply_of_read {c : Command α} (h : c.isWrite = false) (now : Clock) (store : Store α) :
    c.apply now store = store := by
  unfold Command.apply
  split
  case h_1 r store' hrun => exact unchanging_of_read h now store r store' hrun
  case h_2 => rfl

theorem foldl_apply_filter (now : Clock) (cs : List (Command α)) (store : Store α) :
    (cs.filter Command.isWrite).foldl (Command.apply now) store =
      cs.foldl (Command.apply now) store := by
  induction cs generalizing store with
  | nil => rfl
  | cons c cs ih =>
    cases h : c.isWrite with
    | true => rw [List.filter_cons_of_pos h, List.foldl_cons, List.foldl_cons, ih]
    | false =>
      rw [List.filter_cons_of_neg (by rw [h]; exact Bool.noConfusion), List.foldl_cons, ih,
        apply_of_read h]

/-- A transaction applies the writes of its calls exactly when no call takes a number or a Boolean out
of the `null` it gets, and none adds to a set, or removes from one, no values. -/
theorem transaction_iff {calls : List (UtilCall α)} (hadm : ∀ call ∈ calls, call.Admitted)
    (now : Clock) (store : Store α) :
    transaction now calls store = .ok ((writeCommands calls).foldl (Command.apply now) store) ↔
      ∀ call ∈ calls, call.unboxes = false ∧ call.refused = false := by
  rw [writeCommands, foldl_apply_filter]
  by_cases hunboxes : ∃ call ∈ calls, call.unboxes = true
  · obtain ⟨queued', heval⟩ := eval_calls_of_unboxes hadm hunboxes []
    apply iff_of_false
    · rw [transaction, heval]
      exact fun h => nomatch h
    · intro h
      obtain ⟨call, hmem, hcall⟩ := hunboxes
      rw [(h call hmem).1] at hcall
      cases hcall
  · have hnot : ∀ call ∈ calls, call.unboxes = false := by
      intro call hmem
      rw [← Bool.not_eq_true]
      exact fun hcall => hunboxes ⟨call, hmem, hcall⟩
    have hrefused : (calls.flatMap UtilCall.commands).any Command.refused =
        calls.any UtilCall.refused := List.any_flatMap
    have hcond : (∀ call ∈ calls, call.unboxes = false ∧ call.refused = false) ↔
        calls.any UtilCall.refused = false := by
      rw [List.any_eq_false]
      constructor
      · intro h call hmem
        rw [(h call hmem).2]
        exact Bool.noConfusion
      · intro h call hmem
        exact ⟨hnot call hmem, Bool.eq_false_iff.mpr (h call hmem)⟩
    rw [transaction, eval_calls hadm hnot [], List.nil_append, hcond]
    change commit now store (calls.flatMap UtilCall.commands) = _ ↔ _
    rw [commit, hrefused]
    cases calls.any UtilCall.refused with
    | true => exact iff_of_false (fun h => nomatch h) Bool.noConfusion
    | false => exact iff_of_true rfl rfl

-- `Test.testTranscation`
def testTranscation : List (UtilCall String) :=
  [.flagWrite (.set (some "transcation") (.number 9)), .cal (some "transcation") (-1)]

-- the same with the counter in a hash, and two reads
def hashTranscation : List (UtilCall String) :=
  [.flagWrite (.set (some "transcation") (.number 9)), .get (some "transcation"),
    .hashCal (some "hash") (some "transcation") (-1), .hasKey (some "hash")]

theorem transaction_hashTranscation :
    transaction .september hashTranscation (fun _ => none) =
        .ok ((writeCommands hashTranscation).foldl (Command.apply .september) fun _ => none) ↔
      ∀ call ∈ hashTranscation, call.unboxes = false ∧ call.refused = false := by
  apply transaction_iff
  simp only [hashTranscation, List.forall_mem_cons]
  refine ⟨?_, ?_, ?_, ?_, by simp⟩ <;>
    · intro c hc
      cases List.mem_singleton.mp hc
      rfl

/-- The source's own example of a transaction ends in `cal`, which throws. -/
theorem testTranscation_throws :
    ¬ transaction .september testTranscation (fun _ => none) =
      .ok ((writeCommands testTranscation).foldl (Command.apply .september) fun _ => none) := by
  have hthrows : transaction .september testTranscation (fun _ => none) = .error nullPointer := rfl
  rw [hthrows]
  exact fun h => nomatch h

end Transaction

end UtilsRepo.Redis
