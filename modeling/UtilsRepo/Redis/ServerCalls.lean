import UtilsRepo.Lib.MapWrites
import UtilsRepo.Redis.RedisUtil

/-!
# `RedisUtil` on a server whose calls may fail

One lemma for each call `RedisUtil` makes when it writes, then one for each shape of `try`/`catch`
block, so that the results about the operations never unfold a call.
-/

namespace UtilsRepo.Redis

open Fallible RedisUtil

variable {α : Type}

/-! ## 1. Reading the keyspace -/

def Store.data (store : Store α) (key : Option String) : Option (Data α) :=
  key.bind fun k => (store k).map Entry.data

def Store.elements (store : Store α) (key : Option String) : List (Value α) :=
  ((store.data key).bind Data.asList).getD []

/-- The key exists with this time to live, in seconds. -/
def Store.Expires (store : Store α) (key : Option String) (expire : ℤ) : Prop :=
  ∃ k, key = some k ∧ store.ttl k = some (1000 * expire).toNat

@[simp] theorem Store.data_some (store : Store α) (k : String) :
    store.data (some k) = (store k).map Entry.data := rfl

theorem Store.fetch_ok {β : Type} {store : Store α} {key : String} {view : Data α → Option β}
    {empty b : β} (h : store.fetch key view empty = .ok b) :
    b = ((store.data (some key)).bind view).getD empty := by
  unfold fetch at h
  split at h
  case h_1 hk => simp_all
  case h_2 entry hk =>
    cases hv : view entry.data with
    | none => simp [hv] at h
    | some b' => simp_all

/-! ## 2. Outcomes of a call -/

namespace Server

-- after a call without effect
def next (s : Server α) : Server α :=
  { s with faults := s.faults.tail }

@[simp] theorem next_store (s : Server α) : s.next.store = s.store := rfl

/-- An expiry comes to be the key's time to live: it takes effect on a key that exists, at a moment the
server can reckon with, or has no effect where it already was. -/
def ExpireLands (s : Server α) (key : Option String) (expire : ℤ) : Prop :=
  s.fault = .none ∧ (s.store.data key).isSome ∧ s.now.Fits expire ∨
    s.fault ≠ .none ∧ s.store.Expires key expire

theorem expireLands_of_fault {s : Server α} (h : s.fault ≠ .none) (key : Option String)
    (expire : ℤ) : s.ExpireLands key expire ↔ s.store.Expires key expire := by
  unfold ExpireLands
  simp [h]

theorem expireLands_of_none {s : Server α} (h : s.fault = .none) (key : Option String)
    (expire : ℤ) :
    s.ExpireLands key expire ↔ (s.store.data key).isSome ∧ s.now.Fits expire := by
  unfold ExpireLands
  simp [h]

variable [DecidableEq α]

def Throws (s : Server α) (c : Command α) : Prop :=
  -- the server makes it throw, or its arguments or the keyspace do
  (∃ e, s.fault = .throws e) ∨ ∃ e, c.run s.now s.store = .error e

theorem call_of_throws {s : Server α} {c : Command α} (h : s.Throws c) :
    ∃ e, eval (call exec c) s = (.error e, s.next) := by
  rw [call, eval_ofStep]
  unfold exec
  rcases h with ⟨e, he⟩ | ⟨e, he⟩
  · exact ⟨e, by rw [he]; rfl⟩
  · rw [he]
    cases s.fault with
    | throws e' => exact ⟨e', rfl⟩
    | none | answersFalse => exact ⟨e, rfl⟩

theorem call_of_not_throws {s : Server α} {c : Command α} (h : ¬ s.Throws c)
    (hc : c.answerFalse = none) :
    ∃ reply store, c.run s.now s.store = .ok (reply, store) ∧
      eval (call exec c) s =
        (.ok (some reply), { s with store := store, faults := s.faults.tail }) := by
  rw [call, eval_ofStep]
  simp only [Throws, not_or, not_exists] at h
  cases hrun : c.run s.now s.store with
  | error e => exact absurd hrun (h.2 e)
  | ok r =>
    refine ⟨r.1, r.2, rfl, ?_⟩
    unfold exec
    rw [hrun, hc]
    cases hf : s.fault with
    | throws e => exact absurd hf (h.1 e)
    | none | answersFalse => rfl

end Server

/-! ## 3. The fields `putAll` writes -/

theorem lookup_foldl_insert_of_mem {fields : Fields α} {hashes : List (String × Value α)}
    (hnodup : (hashes.map Prod.fst).Nodup) {entry : String × Value α} (h : entry ∈ hashes) :
    (hashes.foldl (fun fields entry => fields.insert entry.1 entry.2) fields).lookup entry.1 =
      some entry.2 :=
  MapWrites.lookup_foldl_write_of_mem Prod.fst (fun entry => some entry.2) hnodup h

theorem rawHashKeys_ok {entries : List (Sigma fun _ : Option String => Value α)}
    {hashes : List (String × Value α)}
    (h : (entries.mapM fun entry => do return (← rawHashKey entry.1, entry.2)) = .ok hashes) :
    entries = hashes.map fun entry => ⟨some entry.1, entry.2⟩ := by
  induction entries generalizing hashes with
  | nil => cases h; rfl
  | cons entry entries ih =>
    rw [List.mapM_cons] at h
    obtain ⟨head, hhead, h⟩ := except_bind_ok h
    obtain ⟨tail, htail, h⟩ := except_bind_ok h
    obtain ⟨hk, hhk, hhead⟩ := except_bind_ok hhead
    cases h
    cases hhead
    rw [ih htail, List.map_cons]
    obtain ⟨_ | k, v⟩ := entry <;> cases hhk
    rfl

/-! ## 4. Effects of the writing calls -/

section Effects

variable [DecidableEq α] {now : Clock} {store store' : Store α} {key : Option String} {value : Value α}

theorem rawKey_bind_ok {β : Type} {f : String → Except JavaException β} {b : β}
    (h : (rawKey key >>= f) = .ok b) : ∃ k, key = some k ∧ f k = .ok b := by
  cases key with
  | none => cases h
  | some k => exact ⟨k, rfl, h⟩

theorem valueSet_effect {r : Unit} (h : (Command.valueSet key value).run now store = .ok (r, store')) :
    ∃ k, key = some k ∧ store' = store.set k { data := .string value, ttl := none } := by
  obtain ⟨k, rfl, h⟩ := rawKey_bind_ok h
  cases h
  exact ⟨k, rfl, rfl⟩

theorem valueSetTimeout_effect {timeout : ℤ} {r : Unit}
    (h : (Command.valueSetTimeout key value timeout).run now store = .ok (r, store')) :
    ∃ k, key = some k ∧
      store' = store.set k { data := .string value, ttl := some (1000 * timeout).toNat } := by
  obtain ⟨k, rfl, h⟩ := rawKey_bind_ok h
  refine ⟨k, rfl, ?_⟩
  by_cases h1 : 2 ^ 31 - 1 < timeout <;> by_cases h2 : timeout ≤ 0 <;>
    simp only [h1, h2, if_true, if_false] at h <;> cases h
  rfl

theorem hashPut_effect {hashKey : Option String} {r : Unit}
    (h : (Command.hashPut key hashKey value).run now store = .ok (r, store')) :
    ∃ k hk fields, key = some k ∧ hashKey = some hk ∧ fields.lookup hk = some value ∧
      store' = store.put k (.hash fields) := by
  obtain ⟨k, rfl, h⟩ := rawKey_bind_ok h
  obtain ⟨hk, hhk, h⟩ := except_bind_ok h
  obtain ⟨fields, -, h⟩ := except_bind_ok h
  cases hashKey with
  | none => cases hhk
  | some _ =>
    cases hhk
    cases h
    exact ⟨k, hk, fields.insert hk value, rfl, rfl, AList.lookup_insert fields, rfl⟩

theorem listRightPush_effect {r : ℤ}
    (h : (Command.listRightPush key value).run now store = .ok (r, store')) :
    ∃ k, key = some k ∧ store' = store.put k (.list (store.elements key ++ [value])) := by
  obtain ⟨k, rfl, h⟩ := rawKey_bind_ok h
  obtain ⟨elements, he, h⟩ := except_bind_ok h
  cases h
  exact ⟨k, rfl, by rw [Store.fetch_ok he]; rfl⟩

theorem listRightPushAll_effect {r : ℤ}
    (h : (Command.listRightPushAll key [value]).run now store = .ok (r, store')) :
    ∃ k, key = some k ∧ store' = store.put k (.list (store.elements key ++ [value])) := by
  obtain ⟨k, rfl, h⟩ := rawKey_bind_ok h
  obtain ⟨values, hv, h⟩ := except_bind_ok h
  obtain ⟨elements, he, h⟩ := except_bind_ok h
  cases hv
  cases h
  exact ⟨k, rfl, by rw [Store.fetch_ok he]; rfl⟩

theorem listSet_effect {index : ℤ} {r : Unit}
    (h : (Command.listSet key index value).run now store = .ok (r, store')) :
    ∃ k, key = some k ∧ 0 ≤ listPosition (store.elements key) index ∧
      listPosition (store.elements key) index < (store.elements key).length ∧
      store' = store.put k
        (.list ((store.elements key).set (listPosition (store.elements key) index).toNat value)) := by
  obtain ⟨k, rfl, h⟩ := rawKey_bind_ok h
  refine ⟨k, rfl, ?_⟩
  by_cases hk : (store k).isNone
  · simp only [hk, if_true] at h
    cases h
  simp only [hk] at h
  obtain ⟨elements, he, h⟩ := except_bind_ok h
  have hel : elements = store.elements (some k) := Store.fetch_ok he
  subst hel
  by_cases hp : listPosition (store.elements (some k)) index < 0 ∨
      (store.elements (some k)).length ≤ listPosition (store.elements (some k)) index
  · simp only [hp, if_true] at h
    cases h
  simp only [hp] at h
  cases h
  exact ⟨by omega, by omega, rfl⟩

theorem hashPutAll_effect {m : Option (AList fun _ : Option String => Value α)} {r : Unit}
    (h : (Command.hashPutAll key m).run now store = .ok (r, store')) :
    ∃ hash, m = some hash ∧
      (hash.entries = [] ∧ store' = store ∨
        ∃ k fields, key = some k ∧ hash.entries ≠ [] ∧ store' = store.put k (.hash fields) ∧
          ∀ entry ∈ hash.entries, ∃ hk, entry.1 = some hk ∧ fields.lookup hk = some entry.2) := by
  cases m with
  | none => cases h
  | some hash =>
    refine ⟨hash, rfl, ?_⟩
    by_cases he : hash.entries = []
    · simp only [Command.run, he, List.isEmpty_nil, if_true] at h
      cases h
      exact .inl ⟨he, rfl⟩
    have hne : hash.entries.isEmpty = false := by simpa using he
    simp only [Command.run, hne] at h
    obtain ⟨k, rfl, h⟩ := rawKey_bind_ok h
    obtain ⟨hashes, hh, h⟩ := except_bind_ok h
    obtain ⟨fields, -, h⟩ := except_bind_ok h
    cases h
    have hentries := rawHashKeys_ok hh
    -- a map has each key once, so no later entry overwrites an earlier one
    have hnd : (hashes.map Prod.fst).Nodup := by
      have hkeys := hash.nodupKeys
      rw [List.NodupKeys, List.keys, hentries, List.map_map] at hkeys
      exact List.Nodup.of_map some (by simpa [Function.comp_def] using hkeys)
    refine .inr ⟨k, _, rfl, he, rfl, fun entry hentry => ?_⟩
    rw [hentries, List.mem_map] at hentry
    obtain ⟨p, hp, rfl⟩ := hentry
    exact ⟨p.1, rfl, lookup_foldl_insert_of_mem hnd hp⟩

end Effects

/-! ## 5. `try`/`catch` blocks -/

namespace RedisUtil

variable [DecidableEq α] {s : Server α} {c : Command α}

/-- A block with one call: either it threw and nothing changed, or it took effect. -/
theorem eval_flag (s : Server α) (hc : c.answerFalse = none) :
    s.Throws c ∧ eval (flag Server.exec c) s = (.ok false, s.next) ∨
      ¬ s.Throws c ∧ ∃ reply store, c.run s.now s.store = .ok (reply, store) ∧
        eval (flag Server.exec c) s = (.ok true, { s with store := store, faults := s.faults.tail }) := by
  by_cases h : s.Throws c
  · obtain ⟨e, he⟩ := Server.call_of_throws h
    refine .inl ⟨h, ?_⟩
    rw [flag, eval_tryCatch_error _ (eval_bind_error _ he), eval_pure]
  · obtain ⟨reply, store, hrun, hexec⟩ := Server.call_of_not_throws h hc
    refine .inr ⟨h, reply, store, hrun, ?_⟩
    exact eval_tryCatch_ok _ (eval_bind_ok _ hexec)

theorem eval_answer (s : Server α) (hc : c.answerFalse = none) :
    s.Throws c ∧ eval (answer Server.exec c) s = (.ok none, s.next) ∨
      ¬ s.Throws c ∧ ∃ reply store, c.run s.now s.store = .ok (reply, store) ∧
        eval (answer Server.exec c) s =
          (.ok (some reply), { s with store := store, faults := s.faults.tail }) := by
  by_cases h : s.Throws c
  · obtain ⟨e, he⟩ := Server.call_of_throws h
    refine .inl ⟨h, ?_⟩
    rw [answer, eval_tryCatch_error _ he, eval_pure]
  · obtain ⟨reply, store, hrun, hexec⟩ := Server.call_of_not_throws h hc
    refine .inr ⟨h, reply, store, hrun, ?_⟩
    rw [answer, eval_tryCatch_ok _ hexec]

/-- What `setExpire` with a positive expiry reports and leaves behind. -/
structure ExpireOutcome (s s' : Server α) (key : Option String) (expire : ℤ) (reported : Bool) :
    Prop where
  -- a moment beyond the clock deletes the key
  data : s.fault ≠ .none ∨ s.now.Fits expire → ∀ k, s'.store.data k = s.store.data k
  failed : reported = false ↔ key = none ∨ ∃ e, s.fault = .throws e
  unchanged : reported = false → s'.store = s.store
  expires : s'.store.Expires key expire ↔ s.ExpireLands key expire

theorem eval_setExpire_of_call {s s' : Server α} {key : Option String} {expire : ℤ}
    {r : Except JavaException (Option Bool)} (h : 0 < expire)
    (hcall : Server.exec (.expire key expire) s = (r, s')) :
    eval (setExpire Server.exec key expire) s = (.ok r.toBool, s') := by
  have hcall' : eval (call Server.exec (.expire key expire)) s = (r, s') := hcall
  simp only [setExpire, h, if_true]
  cases r with
  | ok a => exact eval_tryCatch_ok _ (eval_bind_ok _ hcall')
  | error e => rw [eval_tryCatch_error _ (eval_bind_error _ hcall'), eval_pure]; rfl

omit [DecidableEq α] in
/-- The call threw or answered `false`. -/
theorem ExpireOutcome.of_next {s : Server α} {key : Option String} {expire : ℤ} {reported : Bool}
    (hlands : s.ExpireLands key expire ↔ s.store.Expires key expire)
    (hfailed : reported = false ↔ key = none ∨ ∃ e, s.fault = .throws e) :
    ExpireOutcome s s.next key expire reported where
  data _ _ := rfl
  failed := hfailed
  unchanged _ := rfl
  expires := hlands.symm

omit [DecidableEq α] in
theorem data_set_ttl {store : Store α} {k : String} {entry : Entry α} (hk : store k = some entry)
    (ttl : Option ℕ) (key : Option String) :
    (store.set k { entry with ttl := ttl }).data key = store.data key := by
  cases key with
  | none => rfl
  | some k' =>
    by_cases hkk : k' = k
    · subst hkk
      simp [hk]
    · simp [hkk]

theorem eval_setExpire (s : Server α) (key : Option String) {expire : ℤ} (h : 0 < expire) :
    ∃ reported s', eval (setExpire Server.exec key expire) s = (.ok reported, s') ∧
      ExpireOutcome s s' key expire reported := by
  cases key with
  | none =>
    obtain ⟨e, he⟩ := Server.call_of_throws (s := s) (c := .expire none expire) (.inr ⟨_, rfl⟩)
    refine ⟨false, s.next, eval_setExpire_of_call h he, .of_next ?_ (by simp)⟩
    simp [Server.ExpireLands, Store.Expires, Store.data]
  | some k =>
    cases hf : s.fault with
    | throws e =>
      refine ⟨false, s.next, eval_setExpire_of_call (r := .error e) h ?_, .of_next ?_ ?_⟩
      · simp only [Server.exec, hf]; rfl
      · exact Server.expireLands_of_fault (by simp [hf]) _ _
      · simp [hf]
    | answersFalse =>
      -- the template's `false` is dropped
      refine ⟨true, s.next, eval_setExpire_of_call (r := .ok (some false)) h ?_, .of_next ?_ ?_⟩
      · simp only [Server.exec, hf]; rfl
      · exact Server.expireLands_of_fault (by simp [hf]) _ _
      · simp [hf]
    | none =>
      have hexec : Server.exec (.expire (some k) expire) s =
          (.ok (some (s.store.expire s.now k expire).1),
            { s with store := (s.store.expire s.now k expire).2, faults := s.faults.tail }) := by
        simp only [Server.exec, hf]; rfl
      have hlands := Server.expireLands_of_none hf (some k) expire
      have hfailed : true = false ↔ some k = none ∨ ∃ e, s.fault = .throws e := by simp [hf]
      refine ⟨true, _, eval_setExpire_of_call h hexec, ?_⟩
      cases hk : s.store k with
      | none =>
        rw [Store.expire_missing hk]
        refine ⟨fun _ _ => rfl, hfailed, fun _ => rfl, ?_⟩
        simp [hlands, Store.Expires, Store.ttl, hk]
      | some entry =>
        by_cases hfits : s.now.Fits expire
        · rw [Store.expire_of_fits hk h hfits]
          refine ⟨fun _ => data_set_ttl hk _, hfailed, by simp, iff_of_true ⟨k, rfl, ?_⟩ ?_⟩
          · simp [Store.ttl]
          · simp [hlands, hk, hfits]
        · rw [Store.expire_of_not_fits hk hfits]
          refine ⟨fun hdata => absurd hdata (by simp [hf, hfits]), hfailed, by simp, ?_⟩
          simp [hlands, hfits, Store.Expires, Store.ttl, Store.erase]

theorem eval_flagExpire (s : Server α) (hc : c.answerFalse = none) (key : Option String)
    (expire : ℤ) :
    s.Throws c ∧ eval (flagExpire Server.exec c key expire) s = (.ok false, s.next) ∨
      ¬ s.Throws c ∧ ∃ reply store, c.run s.now s.store = .ok (reply, store) ∧
        ∃ s', eval (flagExpire Server.exec c key expire) s = (.ok true, s') ∧
          (expire ≤ 0 ∧ s' = { s with store := store, faults := s.faults.tail } ∨
            0 < expire ∧ ∃ reported,
              ExpireOutcome { s with store := store, faults := s.faults.tail } s' key expire reported) := by
  by_cases h : s.Throws c
  · obtain ⟨e, he⟩ := Server.call_of_throws h
    refine .inl ⟨h, ?_⟩
    rw [flagExpire, eval_tryCatch_error _ (eval_bind_error _ he), eval_pure]
  · obtain ⟨reply, store, hrun, hexec⟩ := Server.call_of_not_throws h hc
    refine .inr ⟨h, reply, store, hrun, ?_⟩
    rw [flagExpire]
    by_cases hpos : 0 < expire
    · obtain ⟨reported, s', hs', hout⟩ :=
        eval_setExpire { s with store := store, faults := s.faults.tail } key hpos
      simp only [hpos, if_true]
      exact ⟨s', eval_tryCatch_ok _ ((eval_bind_ok _ hexec).trans (eval_bind_ok _ hs')),
        .inr ⟨trivial, reported, hout⟩⟩
    · simp only [hpos, if_false]
      exact ⟨_, eval_tryCatch_ok _ (eval_bind_ok _ hexec), .inl ⟨by omega, rfl⟩⟩

end RedisUtil

end UtilsRepo.Redis
