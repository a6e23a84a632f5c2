import UtilsRepo.Redis.Writes

/-!
# What a write that reports failure left behind

Every write that answers `false` or `null` changed nothing, with one exception: `setListR` of one
value with an expiry, which passes on the failure of its second call.
-/

namespace UtilsRepo.Redis

open Fallible RedisUtil

abbrev Write (α : Type) := FlagWrite α ⊕ CountWrite α

variable {α : Type}

theorem Store.put_ne_self (store : Store α) (k : String) (value : Value α) :
    store.put k (.list (store.elements (some k) ++ [value])) ≠ store := by
  intro h
  have hel : (store.put k (.list (store.elements (some k) ++ [value]))).elements (some k) =
      store.elements (some k) ++ [value] := by
    simp only [elements, data_some, put_self]
    rfl
  rw [h] at hel
  have := congrArg List.length hel
  simp at this

variable [DecidableEq α]

namespace Write

def SignalsFailure (s s' : Server α) : Write α → Prop
  | .inl w => eval (w.run Server.exec) s = (.ok false, s')
  | .inr w => eval (w.run Server.exec) s = (.ok none, s')

/-- The value is pushed and the call that sets the expiry throws. -/
def FailsAfterPush (s : Server α) : Write α → Prop
  | .inl (.setListRExpire key value expire) =>
      0 < expire ∧ ¬ s.Throws (.listRightPush key value) ∧ ∃ e, s.next.fault = .throws e
  | _ => False

end Write

section Shapes

variable {s s' : Server α} {c : Command α}

theorem flag_false_store (hc : c.answerFalse = none)
    (h : eval (flag Server.exec c) s = (.ok false, s')) : s'.store = s.store := by
  rcases eval_flag s hc with ⟨-, hs⟩ | ⟨-, _, _, -, hs⟩ <;> rw [hs] at h <;> cases h
  rfl

theorem flagExpire_false_store (hc : c.answerFalse = none) {key : Option String} {expire : ℤ}
    (h : eval (flagExpire Server.exec c key expire) s = (.ok false, s')) :
    s'.store = s.store := by
  rcases eval_flagExpire s hc key expire with ⟨-, hs⟩ | ⟨-, _, _, -, _, hs, -⟩ <;>
    rw [hs] at h <;> cases h
  rfl

theorem answer_none_store (hc : c.answerFalse = none)
    (h : eval (answer Server.exec c) s = (.ok none, s')) : s'.store = s.store := by
  rcases eval_answer s hc with ⟨-, hs⟩ | ⟨-, _, _, -, hs⟩ <;> rw [hs] at h <;> cases h
  rfl

theorem setExpired_false_store {key : Option String} {value : Value α} {expired : ℤ}
    (h : eval (RedisUtil.setExpired Server.exec key value expired) s = (.ok false, s')) :
    s'.store = s.store := by
  by_cases hpos : 0 < expired
  · rw [eval_setExpired_pos s key value hpos] at h
    exact flag_false_store rfl h
  · obtain ⟨_, _, -, hs⟩ := eval_setExpired_nonpos s key value (Int.not_lt.mp hpos)
    rw [hs] at h
    cases h

theorem setExpire_false_store {key : Option String} {expire : ℤ}
    (h : eval (RedisUtil.setExpire Server.exec key expire) s = (.ok false, s')) :
    s'.store = s.store := by
  by_cases hpos : 0 < expire
  · obtain ⟨reported, s'', hs, hout⟩ := eval_setExpire s key hpos
    rw [hs] at h
    cases h
    exact hout.unchanged rfl
  · simp only [RedisUtil.setExpire, hpos, if_false] at h
    have htrue : eval (tryCatch (pure true) fun _ => pure false : Fallible JavaException _ Bool) s =
        (.ok true, s) := rfl
    rw [htrue] at h
    cases h

theorem setSetExpire_none_store {key : Option String} {expire : ℤ}
    {values : Option (List (Value α))}
    (h : eval (RedisUtil.setSetExpire Server.exec key expire values) s = (.ok none, s')) :
    s'.store = s.store := by
  rcases eval_setSetExpire s key expire values with hs | ⟨_, _, hs⟩ <;> rw [hs] at h <;> cases h
  rfl

theorem setListRExpire_false_store_iff (s : Server α) (key : Option String) (value : Value α)
    (expire : ℤ) :
    (∀ s', eval (RedisUtil.setListRExpire Server.exec key value expire) s = (.ok false, s') →
        s'.store = s.store) ↔
      ¬ Write.FailsAfterPush s (.inl (.setListRExpire key value expire)) := by
  rcases eval_setListRExpire s key value expire with
    ⟨hthrows, hs⟩ | ⟨hthrows, _, store, hrun, reported, s', hs, hout⟩
  · refine iff_of_true (fun s' h => ?_) fun h => h.2.1 hthrows
    rw [hs] at h
    cases h
    rfl
  rcases hout with ⟨hexp, rfl, -⟩ | ⟨hpos, hout⟩
  · refine iff_of_true (fun s' h => ?_) fun h => absurd h.1 (Int.not_lt.mpr hexp)
    rw [hs] at h
    cases h
  -- the push took effect, so the answer `false` is the one of `setExpire`
  obtain ⟨k, rfl, rfl⟩ := listRightPush_effect hrun
  have hfails : Write.FailsAfterPush s (.inl (.setListRExpire (some k) value expire)) ↔
      reported = false := by
    rw [hout.failed]
    constructor
    · rintro ⟨-, -, e, he⟩
      exact .inr ⟨e, he⟩
    · rintro (h | ⟨e, he⟩)
      · cases h
      · exact ⟨hpos, hthrows, e, he⟩
  rw [hfails]
  cases reported with
  | true =>
    refine iff_of_true (fun s' h => ?_) Bool.noConfusion
    rw [hs] at h
    cases h
  | false =>
    refine iff_of_false (fun h => ?_) (fun h => h rfl)
    have hstore := h s' hs
    rw [hout.unchanged rfl] at hstore
    exact Store.put_ne_self _ _ _ hstore

end Shapes

/-- A write that reports failure left the keyspace as it was, values and times to live, unless it is
a `setListR` of one value whose push took effect and whose expiry then threw. -/
theorem write_failure_unchanged_iff (w : Write α) (s : Server α) :
    (∀ s', w.SignalsFailure s s' → s'.store = s.store) ↔ ¬ w.FailsAfterPush s := by
  rcases w with w | w
  · cases w with
    | setListRExpire key value expire => exact setListRExpire_false_store_iff s key value expire
    | setExpired => exact iff_of_true (fun _ => setExpired_false_store) id
    | setExpire => exact iff_of_true (fun _ => setExpire_false_store) id
    | setHashMapExpire | setHashValueExpire | setListRListExpire =>
      exact iff_of_true (fun _ => flagExpire_false_store rfl) id
    | set | setHashMap | setHashValue | setListR | setListRAll | updateList =>
      exact iff_of_true (fun _ => flag_false_store rfl) id
  · cases w with
    | setSetExpire => exact iff_of_true (fun _ => setSetExpire_none_store) id
    | setSet | deleteSet | deleteList => exact iff_of_true (fun _ => answer_none_store rfl) id

/-- A push whose expiry fails: the caller is told `false`, and the value is in the list. -/
theorem setListR_failure_keeps_push :
    ¬ ∀ s' : Server String,
      Write.SignalsFailure ⟨fun _ => none, .september, [.none, .throws nullPointer]⟩ s'
        (.inl (.setListRExpire (some "queue") (.object "job") 60)) →
      s'.store = fun _ => none := by
  intro h
  have hstore := h _ rfl
  exact absurd (congrFun hstore "queue") (by simp [Store.put])

end UtilsRepo.Redis
