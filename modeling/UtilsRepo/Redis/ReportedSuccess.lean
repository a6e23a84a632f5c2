import UtilsRepo.Redis.Writes

/-!
# What a write that reports success left behind

For every write that answers `true` or `false`, the states and failing calls under which `true` means
that the values are held and the requested time to live is set.  Three things go wrong: the expiry
overloads drop what `setExpire` and the inner `set` report, `setExpire` drops the template's `false`,
and the overloads that take a list push it as one element.
-/

namespace UtilsRepo.Redis

open Fallible RedisUtil

variable {α : Type}

/-! ## 1. Reading the keyspace after a write -/

section Reading

variable {store store' : Store α} {key : Option String}

theorem Store.elements_congr (h : store'.data key = store.data key) :
    store'.elements key = store.elements key := by
  rw [elements, elements, h]

theorem Store.hasField_congr (h : store'.data key = store.data key) {hashKey : Option String}
    {value : Value α} : store'.HasField key hashKey value ↔ store.HasField key hashKey value := by
  rw [HasField, HasField, h]

theorem Store.data_put (store : Store α) (k : String) (data : Data α) :
    (store.put k data).data (some k) = some data := by
  rw [data_some, put_self]
  rfl

theorem Store.elements_put (store : Store α) (k : String) (vs : List (Value α)) :
    (store.put k (.list vs)).elements (some k) = vs := by
  rw [elements, data_put]
  rfl

theorem Store.expires_put (store : Store α) (k : String) (data : Data α) (expire : ℤ) :
    (store.put k data).Expires (some k) expire ↔ store.Expires (some k) expire := by
  simp [Expires]

theorem append_listArgument_ne (vs : List (Value α)) (values : Option (List (Value α))) :
    vs ++ [listArgument values] ≠ vs ++ values.getD [] := by
  rw [ne_eq, List.append_cancel_left_eq]
  intro h
  cases values with
  | none => cases h
  | some values =>
    have hmem : Value.list values ∈ [Value.list values] := List.mem_singleton_self _
    exact Value.list_not_mem values ((congrArg (Value.list values ∈ ·) h).mp hmem)

end Reading

variable [DecidableEq α]

/-! ## 2. When `true` can be believed -/

/-- The expiry tried after a successful first call is the key's time to live in the end: none is
asked for, or the second call takes effect on a key that exists (`created`: the first call makes it
exist) at a moment the server can reckon with, or it has no effect where the key had that time to
live already. -/
def Server.ExpiryLands (s : Server α) (key : Option String) (expire : ℤ) (created : Prop) : Prop :=
  expire ≤ 0 ∨
    s.next.fault = .none ∧ ((s.store.data key).isSome ∨ created) ∧ s.now.Fits expire ∨
      s.next.fault ≠ .none ∧ s.store.Expires key expire

/-- The condition on the keyspace and the calls to come under which `true` is not a false report. -/
def FlagWrite.ReportsSuccessSoundly (s : Server α) : FlagWrite α → Prop
  | .set .. | .setHashMap .. | .setHashValue .. | .setListR .. | .updateList .. => True
  | .setExpired key value expired =>
      0 < expired ∨ ¬ s.Throws (.valueSet key value) ∨ s.store.data key = some (.string value)
  | .setHashMapExpire key hash expire =>
      s.Throws (.hashPutAll key hash) ∨
        s.ExpiryLands key expire (∃ m, hash = some m ∧ m.entries ≠ [])
  | .setHashValueExpire key hashKey value expire =>
      s.Throws (.hashPut key hashKey value) ∨ s.ExpiryLands key expire True
  | .setListRExpire key value expire =>
      s.Throws (.listRightPush key value) ∨ (∃ e, s.next.fault = .throws e) ∨
        s.ExpiryLands key expire True
  | .setListRAll key values | .setListRListExpire key values _ =>
      s.Throws (.listRightPushAll key [listArgument values])
  | .setExpire key expire =>
      key = none ∨ (∃ e, s.fault = .throws e) ∨ expire ≤ 0 ∨ s.ExpireLands key expire

/-! ## 3. One call -/

section Shapes

variable {s : Server α} {c : Command α} {Achieved : Store α → Prop}

theorem flag_true_achieved (hc : c.answerFalse = none)
    (heffect : ∀ reply store, c.run s.now s.store = .ok (reply, store) → Achieved store) (s' : Server α)
    (h : eval (flag Server.exec c) s = (.ok true, s')) : Achieved s'.store := by
  rcases eval_flag s hc with ⟨-, hs⟩ | ⟨-, reply, store, hrun, hs⟩ <;> rw [hs] at h <;> cases h
  exact heffect reply store hrun

theorem flag_true_achieved_iff_throws (hc : c.answerFalse = none)
    (heffect : ∀ reply store, c.run s.now s.store = .ok (reply, store) → ¬ Achieved store) :
    (∀ s', eval (flag Server.exec c) s = (.ok true, s') → Achieved s'.store) ↔ s.Throws c := by
  rcases eval_flag s hc with ⟨ht, hs⟩ | ⟨ht, reply, store, hrun, hs⟩
  · refine iff_of_true (fun s' h => ?_) ht
    rw [hs] at h
    cases h
  · exact iff_of_false (fun h => heffect reply store hrun (h _ hs)) ht

/-! ## 4. A call and an expiry -/

omit [DecidableEq α] in
-- the second call finds the keyspace that the first one left
theorem expireLands_iff {s : Server α} {store : Store α} {key : Option String} {expire : ℤ}
    {created : Prop} (hpos : 0 < expire)
    (hexp : store.Expires key expire ↔ s.store.Expires key expire)
    (hex : (store.data key).isSome ↔ (s.store.data key).isSome ∨ created) :
    Server.ExpireLands { s with store := store, faults := s.faults.tail } key expire ↔
      s.ExpiryLands key expire created := by
  rw [Server.ExpireLands, hexp, hex]
  exact (or_iff_right (Int.not_le.mpr hpos)).symm

omit [DecidableEq α] in
/-- An expiry that lands does not delete the key. -/
theorem Server.ExpireLands.keeps {s : Server α} {key : Option String} {expire : ℤ}
    (h : s.ExpireLands key expire) : s.fault ≠ .none ∨ s.now.Fits expire :=
  h.elim (fun h => .inr h.2.2) fun h => .inl h.1

-- `hcongr` says that the effect is on the data only, which an expiry that lands leaves alone
theorem flagExpire_true_achieved_iff (hc : c.answerFalse = none) {key : Option String} {expire : ℤ}
    {created : Prop}
    (hcongr : ∀ store store' : Store α, store'.data key = store.data key →
      Achieved store → Achieved store')
    (heffect : ∀ reply store, c.run s.now s.store = .ok (reply, store) → Achieved store ∧
      (store.Expires key expire ↔ s.store.Expires key expire) ∧
      ((store.data key).isSome ↔ (s.store.data key).isSome ∨ created)) :
    (∀ s', eval (flagExpire Server.exec c key expire) s = (.ok true, s') →
        Achieved s'.store ∧ (0 < expire → s'.store.Expires key expire)) ↔
      s.Throws c ∨ s.ExpiryLands key expire created := by
  rcases eval_flagExpire s hc key expire with ⟨ht, hs⟩ | ⟨ht, reply, store, hrun, s', hs, hout⟩
  · refine iff_of_true (fun s' h => ?_) (.inl ht)
    rw [hs] at h
    cases h
  obtain ⟨hach, hexp, hex⟩ := heffect reply store hrun
  rw [or_iff_right ht]
  rcases hout with ⟨hle, rfl⟩ | ⟨hpos, reported, hout⟩
  · refine iff_of_true (fun s' h => ?_) (.inl hle)
    rw [hs] at h
    cases h
    exact ⟨hach, fun hpos => absurd hpos (Int.not_lt.mpr hle)⟩
  rw [← expireLands_iff hpos hexp hex]
  constructor
  · exact fun h => hout.expires.mp ((h s' hs).2 hpos)
  · intro h s'' hs''
    rw [hs] at hs''
    cases hs''
    exact ⟨hcongr store _ (hout.data h.keeps key) hach, fun _ => hout.expires.mpr h⟩

-- with an expiry that is not positive the answer is `true` whatever the inner `set` reports
theorem setExpired_nonpos_true_iff (s : Server α) (key : Option String) (value : Value α)
    {expired : ℤ} (h : expired ≤ 0) :
    (∀ s', eval (RedisUtil.setExpired Server.exec key value expired) s = (.ok true, s') →
        s'.store.data key = some (.string value)) ↔
      ¬ s.Throws (.valueSet key value) ∨ s.store.data key = some (.string value) := by
  obtain ⟨reported, s', hset, hs⟩ := eval_setExpired_nonpos s key value h
  have hiff : (∀ s', eval (RedisUtil.setExpired Server.exec key value expired) s = (.ok true, s') →
      s'.store.data key = some (.string value)) ↔ s'.store.data key = some (.string value) := by
    rw [hs]
    constructor
    · exact fun h => h s' rfl
    · rintro h s'' hs''
      cases hs''
      exact h
  rw [hiff]
  rcases eval_flag s (c := .valueSet key value) rfl with ⟨ht, hflag⟩ | ⟨ht, _, store, hrun, hflag⟩
  · have hs' : s' = s.next := congrArg Prod.snd (hset.symm.trans hflag)
    rw [hs', or_iff_right (not_not.mpr ht), Server.next_store]
  · obtain ⟨k, rfl, rfl⟩ := valueSet_effect hrun
    have hs' := congrArg Prod.snd (hset.symm.trans hflag)
    refine iff_of_true ?_ (.inl ht)
    simp only at hs'
    rw [hs']
    simp

theorem setListRExpire_true_iff (s : Server α) (key : Option String) (value : Value α)
    (expire : ℤ) :
    (∀ s', eval (RedisUtil.setListRExpire Server.exec key value expire) s = (.ok true, s') →
        s'.store.elements key = s.store.elements key ++ [value] ∧
          (0 < expire → s'.store.Expires key expire)) ↔
      s.Throws (.listRightPush key value) ∨ (∃ e, s.next.fault = .throws e) ∨
        s.ExpiryLands key expire True := by
  rcases eval_setListRExpire s key value expire with
    ⟨ht, hs⟩ | ⟨ht, _, store, hrun, reported, s', hs, hout⟩
  · refine iff_of_true (fun s' h => ?_) (.inl ht)
    rw [hs] at h
    cases h
  obtain ⟨k, rfl, rfl⟩ := listRightPush_effect hrun
  rcases hout with ⟨hle, rfl, rfl⟩ | ⟨hpos, hout⟩
  · refine iff_of_true (fun s' h => ?_) (.inr (.inr (.inl hle)))
    rw [hs] at h
    cases h
    exact ⟨Store.elements_put .., fun hpos => absurd hpos (Int.not_lt.mpr hle)⟩
  have hfailed : reported = false ↔ ∃ e, s.next.fault = .throws e :=
    hout.failed.trans (or_iff_right (by simp))
  let pushed := s.store.put k (.list (s.store.elements (some k) ++ [value]))
  have hexists : (pushed.data (some k)).isSome ↔ (s.store.data (some k)).isSome ∨ True := by
    rw [Store.data_put]
    exact iff_of_true rfl (.inr trivial)
  have hlands := expireLands_iff hpos (Store.expires_put s.store k _ expire) hexists
  rw [or_iff_right ht, ← hfailed, ← hlands]
  -- only a `false` of the template, or a moment beyond the clock, passes for success
  cases reported with
  | false =>
    refine iff_of_true (fun s'' h => ?_) (.inl rfl)
    rw [hs] at h
    cases h
  | true =>
    rw [or_iff_right Bool.noConfusion]
    constructor
    · exact fun h => hout.expires.mp ((h s' hs).2 hpos)
    · intro h s'' hs''
      rw [hs] at hs''
      cases hs''
      have hdata := hout.data h.keeps (some k)
      exact ⟨(Store.elements_congr hdata).trans (Store.elements_put ..),
        fun _ => hout.expires.mpr h⟩

theorem setExpire_true_iff (s : Server α) (key : Option String) (expire : ℤ) :
    (∀ s', eval (RedisUtil.setExpire Server.exec key expire) s = (.ok true, s') →
        0 < expire → s'.store.Expires key expire) ↔
      key = none ∨ (∃ e, s.fault = .throws e) ∨ expire ≤ 0 ∨ s.ExpireLands key expire := by
  by_cases hpos : 0 < expire
  · obtain ⟨reported, s', hs, hout⟩ := eval_setExpire s key hpos
    rw [or_iff_right (Int.not_le.mpr hpos), ← or_assoc, ← hout.failed, ← hout.expires]
    rw [hs]
    cases reported with
    | false => exact iff_of_true (fun s'' h => by cases h) (.inl rfl)
    | true =>
      rw [or_iff_right Bool.noConfusion]
      constructor
      · exact fun h => h s' rfl hpos
      · rintro h s'' hs'' -
        cases hs''
        exact h
  · exact iff_of_true (fun _ _ h => absurd h hpos) (.inr (.inr (.inl (Int.not_lt.mp hpos))))

end Shapes

/-! ## 5. Every write -/

-- the writes that are one call and ask for no expiry
theorem FlagWrite.true_achieved_of_flag {s : Server α} {w : FlagWrite α} {c : Command α}
    (hrun : w.run Server.exec = flag Server.exec c) (hc : c.answerFalse = none)
    (hexpire : w.expire = 0)
    (heffect : ∀ reply store, c.run s.now s.store = .ok (reply, store) → w.Wrote s.store store) :
    ∀ s', eval (w.run Server.exec) s = (.ok true, s') → w.Achieved s.store s'.store := by
  rw [hrun]
  have hachieved : ∀ reply store, c.run s.now s.store = .ok (reply, store) →
      w.Achieved s.store store := by
    intro reply store h
    exact ⟨heffect reply store h, fun hpos => absurd hexpire (by omega)⟩
  exact flag_true_achieved hc hachieved

theorem hashPutAll_achieved {s : Server α} {key : Option String}
    {hash : Option (AList fun _ : Option String => Value α)} (expire : ℤ) {r : Unit}
    {store : Store α} (h : (Command.hashPutAll key hash).run s.now s.store = .ok (r, store)) :
    (∀ m, hash = some m → ∀ entry ∈ m.entries, store.HasField key entry.1 entry.2) ∧
      (store.Expires key expire ↔ s.store.Expires key expire) ∧
      ((store.data key).isSome ↔
        (s.store.data key).isSome ∨ ∃ m, hash = some m ∧ m.entries ≠ []) := by
  obtain ⟨m, rfl, ⟨hnil, rfl⟩ | ⟨k, fields, rfl, hne, rfl, hfields⟩⟩ := hashPutAll_effect h
  · refine ⟨fun m' hm' entry hentry => ?_, Iff.rfl, by simp [hnil]⟩
    cases hm'
    rw [hnil] at hentry
    cases hentry
  · refine ⟨fun m' hm' entry hentry => ?_, Store.expires_put .., ?_⟩
    · cases hm'
      obtain ⟨hk, hhk, hlookup⟩ := hfields entry hentry
      exact ⟨fields, hk, Store.data_put .., hhk, hlookup⟩
    · rw [Store.data_put]
      exact iff_of_true rfl (.inr ⟨m, rfl, hne⟩)

theorem hashPut_achieved {s : Server α} {key hashKey : Option String} {value : Value α}
    (expire : ℤ) {r : Unit} {store : Store α}
    (h : (Command.hashPut key hashKey value).run s.now s.store = .ok (r, store)) :
    store.HasField key hashKey value ∧
      (store.Expires key expire ↔ s.store.Expires key expire) ∧
      ((store.data key).isSome ↔ (s.store.data key).isSome ∨ True) := by
  obtain ⟨k, hk, fields, rfl, rfl, hlookup, rfl⟩ := hashPut_effect h
  refine ⟨⟨fields, hk, Store.data_put .., rfl, hlookup⟩, Store.expires_put .., ?_⟩
  rw [Store.data_put]
  exact iff_of_true rfl (.inr trivial)

theorem setExpired_pos_achieved {s s' : Server α} {key : Option String} {value : Value α}
    {expired : ℤ} (hpos : 0 < expired)
    (h : eval (RedisUtil.setExpired Server.exec key value expired) s = (.ok true, s')) :
    (FlagWrite.setExpired key value expired).Achieved s.store s'.store := by
  -- a positive expiry goes into the one call that sets the value
  have heffect : ∀ r store,
      (Command.valueSetTimeout key value expired).run s.now s.store = .ok (r, store) →
      (FlagWrite.setExpired key value expired).Achieved s.store store := by
    intro r store h
    obtain ⟨k, rfl, rfl⟩ := valueSetTimeout_effect h
    exact ⟨by simp [FlagWrite.Wrote], fun _ => ⟨k, rfl, by simp [Store.ttl, FlagWrite.expire]⟩⟩
  exact flag_true_achieved rfl heffect s' ((eval_setExpired_pos s key value hpos).symm.trans h)

theorem setHashMapExpire_achieved_iff (s : Server α) (key : Option String)
    (hash : Option (AList fun _ : Option String => Value α)) (expire : ℤ) :
    (∀ s', eval ((FlagWrite.setHashMapExpire key hash expire).run Server.exec) s = (.ok true, s') →
        (FlagWrite.setHashMapExpire key hash expire).Achieved s.store s'.store) ↔
      (FlagWrite.setHashMapExpire key hash expire).ReportsSuccessSoundly s := by
  refine flagExpire_true_achieved_iff rfl ?_ fun r store h => hashPutAll_achieved expire h
  exact fun store store' hdata h m hm entry hentry =>
    (Store.hasField_congr hdata).mpr (h m hm entry hentry)

theorem setHashValueExpire_achieved_iff (s : Server α) (key hashKey : Option String)
    (value : Value α) (expire : ℤ) :
    (∀ s', eval ((FlagWrite.setHashValueExpire key hashKey value expire).run Server.exec) s =
          (.ok true, s') →
        (FlagWrite.setHashValueExpire key hashKey value expire).Achieved s.store s'.store) ↔
      (FlagWrite.setHashValueExpire key hashKey value expire).ReportsSuccessSoundly s := by
  refine flagExpire_true_achieved_iff rfl ?_ fun r store h => hashPut_achieved expire h
  exact fun store store' hdata h => (Store.hasField_congr hdata).mpr h

theorem listRightPushAll_not_achieved {s : Server α} {key : Option String}
    {values : Option (List (Value α))} {r : ℤ} {store store' : Store α}
    (h : (Command.listRightPushAll key [listArgument values]).run s.now s.store = .ok (r, store))
    (hdata : store'.data key = store.data key) :
    store'.elements key ≠ s.store.elements key ++ values.getD [] := by
  obtain ⟨k, rfl, rfl⟩ := listRightPushAll_effect h
  rw [Store.elements_congr hdata, Store.elements_put]
  exact append_listArgument_ne _ _

/-- A write that reports success achieved it, the values held and the time to live set, exactly when
`ReportsSuccessSoundly` holds of the keyspace and the calls to come. -/
theorem write_success_achieved_iff (w : FlagWrite α) (s : Server α) :
    (∀ s', eval (w.run Server.exec) s = (.ok true, s') → w.Achieved s.store s'.store) ↔
      w.ReportsSuccessSoundly s := by
  cases w with
  | set key value =>
    apply iff_of_true _ trivial
    apply FlagWrite.true_achieved_of_flag (c := .valueSet key value) rfl rfl rfl
    intro r store h
    obtain ⟨k, rfl, rfl⟩ := valueSet_effect h
    simp [FlagWrite.Wrote]
  | setExpired key value expired =>
    by_cases hpos : 0 < expired
    · exact iff_of_true (fun s' => setExpired_pos_achieved hpos) (.inl hpos)
    · refine Iff.trans ?_ ((setExpired_nonpos_true_iff s key value (Int.not_lt.mp hpos)).trans ?_)
      · exact forall₂_congr fun s' _ => and_iff_left fun h => absurd h hpos
      · exact (or_iff_right hpos).symm
  | setHashMap key hash =>
    apply iff_of_true _ trivial
    apply FlagWrite.true_achieved_of_flag (c := .hashPutAll key hash) rfl rfl rfl
    exact fun r store h => (hashPutAll_achieved 0 h).1
  | setHashMapExpire key hash expire => exact setHashMapExpire_achieved_iff s key hash expire
  | setHashValue key hashKey value =>
    apply iff_of_true _ trivial
    apply FlagWrite.true_achieved_of_flag (c := .hashPut key hashKey value) rfl rfl rfl
    exact fun r store h => (hashPut_achieved 0 h).1
  | setHashValueExpire key hashKey value expire =>
    exact setHashValueExpire_achieved_iff s key hashKey value expire
  | setListR key value =>
    apply iff_of_true _ trivial
    apply FlagWrite.true_achieved_of_flag (c := .listRightPush key value) rfl rfl rfl
    intro r store h
    obtain ⟨k, rfl, rfl⟩ := listRightPush_effect h
    exact Store.elements_put ..
  | setListRExpire key value expire => exact setListRExpire_true_iff s key value expire
  | setListRAll key values =>
    -- the list arrives as one element, so no push appends its elements
    have heffect : ∀ r store,
        (Command.listRightPushAll key [listArgument values]).run s.now s.store = .ok (r, store) →
        ¬ (FlagWrite.setListRAll key values).Achieved s.store store :=
      fun r store h hach => listRightPushAll_not_achieved h rfl hach.1
    exact flag_true_achieved_iff_throws rfl heffect
  | setListRListExpire key values expire =>
    rcases eval_flagExpire s (c := .listRightPushAll key [listArgument values]) rfl key expire with
      ⟨ht, hs⟩ | ⟨ht, r, store, hrun, s', hs, hout⟩
    · refine iff_of_true (fun s' h => ?_) ht
      cases hs.symm.trans h
    · refine iff_of_false (fun h => ?_) ht
      obtain ⟨hwrote, hexpires⟩ := h s' hs
      refine listRightPushAll_not_achieved hrun ?_ hwrote
      rcases hout with ⟨-, rfl⟩ | ⟨hpos, _, hout⟩
      · rfl
      · exact hout.data (hout.expires.mp (hexpires hpos)).keeps key
  | updateList key index value =>
    apply iff_of_true _ trivial
    apply FlagWrite.true_achieved_of_flag (c := .listSet key index value) rfl rfl rfl
    intro r store h
    obtain ⟨k, rfl, hnonneg, hlt, rfl⟩ := listSet_effect h
    exact ⟨hnonneg, hlt, Store.elements_put ..⟩
  | setExpire key expire =>
    refine Iff.trans ?_ (setExpire_true_iff s key expire)
    exact forall₂_congr fun s' _ => and_iff_right trivial

/-- The inner `set` failed, and the caller is told the value is stored. -/
theorem set_reports_unachieved_success :
    ¬ ∀ s', eval ((FlagWrite.setExpired (some "token") (.object "t1") 0).run Server.exec)
        ⟨fun _ => none, .september, [.throws nullPointer]⟩ = (.ok true, s') →
      (FlagWrite.setExpired (some "token") (.object "t1") 0).Achieved (fun _ => none) s'.store := by
  intro h
  have hdata : Store.data (fun _ => none) (some "token") =
      some (.string (.object "t1" : Value String)) :=
    (h _ rfl).1
  cases hdata

end UtilsRepo.Redis
