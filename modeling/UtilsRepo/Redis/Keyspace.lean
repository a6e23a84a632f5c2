import Mathlib.Data.List.Nodup
import UtilsRepo.Redis.Transaction

/-!
# What commands do to the keyspace

Each command changes only the keys it names, and leaves none of them empty: a hash, set or list without
elements does not exist.  Time to live is never zero, and passes.
-/

namespace UtilsRepo.Redis

open Fallible

variable {α : Type}

/-! ## 1. Proper keyspaces -/

/-- Redis keeps no empty aggregate, and a set has each member once. -/
def Data.Proper : Data α → Prop
  | .hash fields => fields.entries ≠ []
  | .set members => members ≠ [] ∧ members.Nodup
  | .list elements => elements ≠ []
  | .string _ | .zset _ | .stream _ => True

structure Entry.Proper (entry : Entry α) : Prop where
  data : entry.data.Proper
  ttl : ∀ t, entry.ttl = some t → 0 < t

def Store.Proper (store : Store α) : Prop := ∀ k entry, store k = some entry → entry.Proper

/-- The keys a command names. -/
def Command.keys : Command α → List (Option String)
  | .valueSet key _ | .valueSetTimeout key _ _ | .valueGet key | .valueIncrement key _ | .hasKey key
  | .type key | .getExpire key | .expire key _ | .hashPutAll key _ | .hashPut key _ _
  | .hashGet key _ | .hashDelete key _ | .hashHasKey key _ | .hashIncrement key _ _
  | .hashEntries key | .setAdd key _ | .setRemove key _ | .setMembers key | .setIsMember key _
  | .setSize key | .listRightPush key _ | .listRightPushAll key _ | .listSet key _ _
  | .listRemove key _ _ | .listRange key _ _ | .listSize key | .listIndex key _ => [key]
  | .delete keys => keys

/-! ## 2. What a command writes -/

/-- Writes to single keys, which keep a proper keyspace proper. -/
inductive Writes (keys : List (Option String)) : Store α → Store α → Prop where
  | nothing (store : Store α) : Writes keys store store
  | set {store : Store α} {k : String} {entry : Entry α} (mem : some k ∈ keys)
      (proper : store.Proper → entry.Proper) : Writes keys store (store.set k entry)
  | erase {store store' : Store α} {k : String} (mem : some k ∈ keys)
      (rest : Writes keys (store.erase k) store') : Writes keys store store'

section Writes

variable {keys : List (Option String)} {store store' : Store α}

theorem Writes.frame (h : Writes keys store store') {k : String} (hk : some k ∉ keys) :
    store' k = store k := by
  induction h with
  | nothing store => rfl
  | set mem proper =>
    apply Store.set_of_ne
    rintro rfl
    exact hk mem
  | erase mem rest ih =>
    rw [ih, Store.erase, Function.update_of_ne]
    rintro rfl
    exact hk mem

theorem Store.Proper.set (h : store.Proper) {k : String} {entry : Entry α} (hentry : entry.Proper) :
    (store.set k entry).Proper := by
  intro k' entry' hk'
  by_cases hkk : k' = k
  · rw [hkk, Store.set_self] at hk'
    cases hk'
    exact hentry
  · rw [Store.set_of_ne _ _ hkk] at hk'
    exact h k' entry' hk'

theorem Store.Proper.erase (h : store.Proper) (k : String) : (store.erase k).Proper := by
  intro k' entry' hk'
  by_cases hkk : k' = k
  · rw [hkk, Store.erase, Function.update_self] at hk'
    cases hk'
  · rw [Store.erase, Function.update_of_ne hkk] at hk'
    exact h k' entry' hk'

theorem Writes.proper (h : Writes keys store store') (hstore : store.Proper) : store'.Proper := by
  induction h with
  | nothing store => exact hstore
  | set mem proper => exact hstore.set (proper hstore)
  | erase mem rest ih => exact ih (hstore.erase _)

theorem Store.Proper.ttl (h : store.Proper) {k : String} {t : ℕ} (ht : store.ttl k = some t) :
    0 < t := by
  obtain ⟨entry, hentry, httl⟩ := Option.bind_eq_some_iff.mp ht
  exact (h k entry hentry).ttl t httl

theorem writes_put {k : String} {data : Data α} (mem : some k ∈ keys)
    (proper : store.Proper → data.Proper) : Writes keys store (store.put k data) :=
  .set mem fun hstore => ⟨proper hstore, fun _ ht => hstore.ttl ht⟩

theorem writes_putOrErase {k : String} {data : Data α} {empty : Bool} (mem : some k ∈ keys)
    (proper : empty = false → store.Proper → data.Proper) :
    Writes keys store (store.putOrErase k data empty) := by
  unfold Store.putOrErase
  split
  · exact .erase mem (.nothing _)
  · rename_i hempty
    exact writes_put mem (proper (Bool.eq_false_iff.mpr hempty))

theorem writes_expire {now : Clock} {k : String} {timeout : ℤ} (mem : some k ∈ keys) :
    Writes keys store (store.expire now k timeout).2 := by
  unfold Store.expire
  split
  · exact .nothing _
  · rename_i entry hentry
    dsimp only
    split
    · exact .erase mem (.nothing _)
    · refine .set mem fun hstore => ⟨(hstore k entry hentry).data, fun t ht => ?_⟩
      cases ht
      omega

theorem writes_erases (ks : List String) (mem : ∀ k ∈ ks, some k ∈ keys) :
    Writes keys store (ks.foldl Store.erase store) := by
  induction ks generalizing store with
  | nil => exact .nothing _
  | cons k ks ih =>
    rw [List.forall_mem_cons] at mem
    exact .erase mem.1 (ih mem.2)

end Writes

/-! ## 3. The commands -/

section Commands

variable {now : Clock} {store store' : Store α} {key : Option String}

theorem insert_proper (fields : Fields α) (hashKey : String) (value : Value α) :
    (Data.hash (fields.insert hashKey value)).Proper := by
  rw [Data.Proper, AList.entries_insert]
  exact List.cons_ne_nil _ _

theorem foldl_insert_proper {hashes : List (String × Value α)} (hne : hashes ≠ [])
    (fields : Fields α) :
    (Data.hash (hashes.foldl (fun fields entry => fields.insert entry.1 entry.2) fields)).Proper := by
  obtain ⟨hashes', entry, rfl⟩ := (List.eq_nil_or_concat hashes).resolve_left hne
  rw [List.concat_eq_append, List.foldl_append]
  exact insert_proper _ _ _

theorem Store.Proper.nodup_of_fetch (h : store.Proper) {k : String} {members : List (Value α)}
    (hfetch : store.fetch k Data.asSet [] = .ok members) : members.Nodup := by
  have hmembers := Store.fetch_ok hfetch
  cases hk : store k with
  | none =>
    rw [Store.data_some, hk] at hmembers
    rw [hmembers]
    exact List.nodup_nil
  | some entry =>
    rw [Store.data_some, hk] at hmembers
    cases hdata : entry.data with
    | set members' =>
      have hproper := (h k entry hk).data
      rw [hdata] at hproper
      rw [hmembers, Option.map_some, hdata]
      exact hproper.2
    | string | hash | list | zset | stream =>
      rw [hmembers, Option.map_some, hdata]
      exact List.nodup_nil

theorem rawValues_ok {values : Option (List (Value α))} {values' : List (Value α)}
    (h : rawValues values = .ok values') : values' ≠ [] := by
  match values, h with
  | some (value :: values), h =>
    cases h
    exact List.cons_ne_nil _ _

variable [DecidableEq α]

theorem nodup_foldl_insert {members values : List (Value α)} (h : members.Nodup) :
    (values.foldl (fun members value => members.insert value) members).Nodup := by
  induction values generalizing members with
  | nil => exact h
  | cons value values ih => exact ih h.insert

theorem foldl_insert_ne_nil {members values : List (Value α)} (h : values ≠ []) :
    values.foldl (fun members value => members.insert value) members ≠ [] := by
  obtain ⟨values', value, rfl⟩ := (List.eq_nil_or_concat values).resolve_left h
  rw [List.concat_eq_append, List.foldl_append]
  exact List.ne_nil_of_mem List.mem_insert_self

theorem mem_of_mapM_rawKey {keys : List (Option String)} {ks : List String}
    (h : keys.mapM rawKey = .ok ks) {k : String} (hk : k ∈ ks) : some k ∈ keys := by
  induction keys generalizing ks with
  | nil =>
    cases h
    cases hk
  | cons key keys ih =>
    rw [List.mapM_cons] at h
    obtain ⟨k', rfl, hrest⟩ := rawKey_bind_ok h
    obtain ⟨ks', hks', hcons⟩ := except_bind_ok hrest
    cases hcons
    rcases List.mem_cons.mp hk with rfl | hk
    · exact List.mem_cons_self
    · exact List.mem_cons_of_mem _ (ih hks' hk)

/-- A command writes to the keys it names, and leaves a proper keyspace proper. -/
theorem Command.writes {c : Command α} {r : c.Reply} (h : c.run now store = .ok (r, store')) :
    Writes c.keys store store' := by
  by_cases hread : c.isWrite = false
  · rw [unchanging_of_read hread now store r store' h]
    exact .nothing store
  cases c with
  | valueSet key value =>
    obtain ⟨k, rfl, rfl⟩ := valueSet_effect h
    exact .set List.mem_cons_self fun _ => ⟨True.intro, fun _ ht => nomatch ht⟩
  | valueSetTimeout key value timeout =>
    obtain ⟨k, rfl, h⟩ := rawKey_bind_ok h
    by_cases hlarge : 2 ^ 31 - 1 < timeout
    · simp only [hlarge, if_true] at h
      cases h
    by_cases hsmall : timeout ≤ 0
    · simp only [hlarge, hsmall, if_true, if_false] at h
      cases h
    simp only [hlarge, hsmall, if_false] at h
    cases h
    refine .set List.mem_cons_self fun _ => ⟨True.intro, fun t ht => ?_⟩
    cases ht
    omega
  | valueIncrement key delta =>
    obtain ⟨k, rfl, h⟩ := rawKey_bind_ok h
    obtain ⟨value, -, h⟩ := except_bind_ok h
    obtain ⟨n, -, h⟩ := except_bind_ok h
    cases h
    exact writes_put List.mem_cons_self fun _ => True.intro
  | delete keys => 
    obtain ⟨ks, hks, h⟩ := except_bind_ok h
    cases h
    apply writes_erases
    intro k hk
    exact mem_of_mapM_rawKey hks hk
  | expire key timeout =>
    obtain ⟨k, rfl, h⟩ := rawKey_bind_ok h
    have hstore' : store' = (store.expire now k timeout).2 :=
      (congrArg Prod.snd (Except.ok.inj h)).symm
    rw [hstore']
    exact writes_expire List.mem_cons_self
  | hashPutAll key m =>
    cases m with
    | none => cases h
    | some m =>
      by_cases hempty : m.entries.isEmpty
      · simp only [Command.run, hempty, if_true] at h
        cases h
        exact .nothing store
      simp only [Command.run, hempty] at h
      obtain ⟨k, rfl, h⟩ := rawKey_bind_ok h
      obtain ⟨hashes, hhashes, h⟩ := except_bind_ok h
      obtain ⟨fields, -, h⟩ := except_bind_ok h
      cases h
      have hne : hashes ≠ [] := by
        rintro rfl
        rw [rawHashKeys_ok hhashes] at hempty
        exact hempty rfl
      exact writes_put List.mem_cons_self fun _ => foldl_insert_proper hne _
  | hashPut key hashKey value =>
    obtain ⟨k, rfl, h⟩ := rawKey_bind_ok h
    obtain ⟨hk, -, h⟩ := except_bind_ok h
    obtain ⟨fields, -, h⟩ := except_bind_ok h
    cases h
    exact writes_put List.mem_cons_self fun _ => insert_proper _ _ _
  | hashDelete key hashKeys =>
    obtain ⟨k, rfl, h⟩ := rawKey_bind_ok h
    obtain ⟨hks, -, h⟩ := except_bind_ok h
    by_cases hempty : hks.isEmpty
    · simp only [hempty, if_true] at h
      cases h
    simp only [hempty] at h
    obtain ⟨fields, -, h⟩ := except_bind_ok h
    cases h
    refine writes_putOrErase List.mem_cons_self fun hrest _ => ?_
    rwa [Data.Proper, ne_eq, ← List.isEmpty_iff, Bool.not_eq_true]
  | hashIncrement key hashKey delta =>
    obtain ⟨k, rfl, h⟩ := rawKey_bind_ok h
    obtain ⟨hk, -, h⟩ := except_bind_ok h
    obtain ⟨fields, -, h⟩ := except_bind_ok h
    obtain ⟨n, -, h⟩ := except_bind_ok h
    cases h
    exact writes_put List.mem_cons_self fun _ => insert_proper _ _ _
  | setAdd key values =>
    obtain ⟨k, rfl, h⟩ := rawKey_bind_ok h
    obtain ⟨values', hvalues, h⟩ := except_bind_ok h
    obtain ⟨members, hmembers, h⟩ := except_bind_ok h
    cases h
    refine writes_put List.mem_cons_self fun hstore => ⟨?_, ?_⟩
    · exact foldl_insert_ne_nil (rawValues_ok hvalues)
    · exact nodup_foldl_insert (hstore.nodup_of_fetch hmembers)
  | setRemove key values =>
    obtain ⟨k, rfl, h⟩ := rawKey_bind_ok h
    obtain ⟨values', -, h⟩ := except_bind_ok h
    obtain ⟨members, hmembers, h⟩ := except_bind_ok h
    cases h
    refine writes_putOrErase List.mem_cons_self fun hempty hstore => ⟨?_, ?_⟩
    · simpa using hempty
    · exact (hstore.nodup_of_fetch hmembers).filter _
  | listRightPush key value =>
    obtain ⟨k, rfl, rfl⟩ := listRightPush_effect h
    exact writes_put List.mem_cons_self fun _ => by simp [Data.Proper]
  | listRightPushAll key values =>
    obtain ⟨k, rfl, h⟩ := rawKey_bind_ok h
    obtain ⟨values', hvalues, h⟩ := except_bind_ok h
    obtain ⟨elements, -, h⟩ := except_bind_ok h
    cases h
    exact writes_put List.mem_cons_self fun _ => by simp [Data.Proper, rawValues_ok hvalues]
  | listSet key index value =>
    obtain ⟨k, rfl, hnonneg, hlt, rfl⟩ := listSet_effect h
    refine writes_put List.mem_cons_self fun _ => ?_
    have hlength : (store.elements (some k)).length ≠ 0 := by
      omega
    rw [Data.Proper, ne_eq, ← List.length_eq_zero_iff, List.length_set]
    exact hlength
  | listRemove key count value =>
    obtain ⟨k, rfl, h⟩ := rawKey_bind_ok h
    obtain ⟨elements, -, h⟩ := except_bind_ok h
    cases h
    refine writes_putOrErase List.mem_cons_self fun hempty hstore => ?_
    simpa [Data.Proper] using hempty
  | _ => exact absurd rfl hread

end Commands

end UtilsRepo.Redis
