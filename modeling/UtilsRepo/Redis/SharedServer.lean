import Mathlib.Algebra.GroupWithZero.Nat
import UtilsRepo.Redis.Keyspace

/-!
# One server, many clients

Commands take effect one at a time, whoever sends them, and time passes between them.  Whatever other
clients do between the commands of a `RedisUtil` call, all of it together is one list of events, and the
call's own commands are the first few of those it means to send.
-/

namespace UtilsRepo.Redis

open Fallible RedisUtil

variable {α : Type}

/-! ## 1. Events -/

-- `none`: the entry has expired
def Entry.elapse (millis : ℕ) (entry : Entry α) : Option (Entry α) :=
  match entry.ttl with
  | none => some entry
  | some t => if t ≤ millis then none else some { entry with ttl := some (t - millis) }

def Store.elapse (store : Store α) (millis : ℕ) : Store α :=
  fun k => (store k).bind (Entry.elapse millis)

/-- What happens to the server.  A command comes with the reading of the clock, which the results never
relate to the time that passes. -/
inductive Event (α : Type) where
  | command (c : Command α) (now : Clock) (fault : Fault)
  | elapse (millis : ℕ)

def Event.millis : Event α → ℕ
  | .command .. => 0
  | .elapse millis => millis

namespace Entry

variable {entry : Entry α} {t millis : ℕ}

theorem elapse_of_none (h : entry.ttl = none) (millis : ℕ) : entry.elapse millis = some entry := by
  rw [elapse, h]

theorem elapse_of_le (h : entry.ttl = some t) (hle : t ≤ millis) : entry.elapse millis = none := by
  simp only [elapse, h, hle, if_true]

theorem elapse_of_lt (h : entry.ttl = some t) (hlt : millis < t) :
    entry.elapse millis = some { entry with ttl := some (t - millis) } := by
  simp only [elapse, h, Nat.not_le.mpr hlt, if_false]

/-- What is left of an entry has its data, and time to live. -/
theorem elapse_some {entry' : Entry α} (helapse : entry.elapse millis = some entry') :
    entry'.data = entry.data ∧ (entry' = entry ∨ ∀ t, entry'.ttl = some t → 0 < t) := by
  cases httl : entry.ttl with
  | none =>
    rw [elapse_of_none httl] at helapse
    cases helapse
    exact ⟨rfl, .inl rfl⟩
  | some t =>
    by_cases hle : t ≤ millis
    · rw [elapse_of_le httl hle] at helapse
      cases helapse
    · rw [elapse_of_lt httl (Nat.lt_of_not_le hle)] at helapse
      cases helapse
      refine ⟨rfl, .inr fun t' ht' => ?_⟩
      cases ht'
      omega

theorem Proper.elapse {entry' : Entry α} (h : entry.Proper)
    (helapse : entry.elapse millis = some entry') : entry'.Proper := by
  obtain ⟨hdata, rfl | httl⟩ := elapse_some helapse
  · exact h
  · exact ⟨hdata ▸ h.data, httl⟩

end Entry

theorem Store.Proper.elapse {store : Store α} (h : store.Proper) (millis : ℕ) :
    (store.elapse millis).Proper := by
  intro k entry hentry
  obtain ⟨old, hold, helapse⟩ := Option.bind_eq_some_iff.mp hentry
  exact (h k old hold).elapse helapse

section Steps

variable [DecidableEq α]

def Store.step (store : Store α) : Event α → Store α
  | .command c now fault => (Server.exec c ⟨store, now, [fault]⟩).2.store
  | .elapse millis => store.elapse millis

theorem Server.exec_store (c : Command α) (s : Server α) :
    (exec c s).2.store = s.store ∨ ∃ r, c.run s.now s.store = .ok (r, (exec c s).2.store) := by
  unfold exec
  cases hrun : c.run s.now s.store with
  | error e => cases s.fault <;> exact .inl rfl
  | ok r =>
    cases s.fault with
    | throws e => exact .inl rfl
    | none => exact .inr ⟨r.1, rfl⟩
    | answersFalse =>
      cases c.answerFalse with
      | none => exact .inr ⟨r.1, rfl⟩
      | some reply => exact .inl rfl

theorem writes_exec (c : Command α) (s : Server α) :
    Writes c.keys s.store (Server.exec c s).2.store := by
  rcases Server.exec_store c s with hsame | ⟨r, hrun⟩
  · rw [hsame]
    exact .nothing _
  · exact Command.writes hrun

theorem Store.Proper.step {store : Store α} (h : store.Proper) (event : Event α) :
    (store.step event).Proper := by
  cases event with
  | command c now fault => exact (writes_exec c ⟨store, now, [fault]⟩).proper h
  | elapse millis => exact h.elapse millis

theorem Store.Proper.foldl {store : Store α} (h : store.Proper) (events : List (Event α)) :
    (events.foldl Store.step store).Proper := by
  induction events generalizing store with
  | nil => exact h
  | cons event events ih => exact ih (h.step event)

end Steps

/-! ## 2. The commands of a call -/

section Issues

variable {σ β γ : Type} {exec : (c : Command α) → σ → Except JavaException (Option c.Reply) × σ}
  {cs cs' : List (Command α)}

def sent (exec : (c : Command α) → σ → Except JavaException (Option c.Reply) × σ)
    (cs : List (Command α)) (s : σ) : σ :=
  cs.foldl (fun s c => (exec c s).2) s

variable (exec) in
/-- The code sends the first few of these commands and does nothing else. -/
def Issues (m : Fallible JavaException σ β) (cs : List (Command α)) : Prop :=
  ∀ s, ∃ first, first <+: cs ∧ (eval m s).2 = sent exec first s

variable (exec) in
/-- The code sends these commands, or some of them and throws. -/
def IssuesAll (m : Fallible JavaException σ β) (cs : List (Command α)) : Prop :=
  ∀ s, match eval m s with
    | (.ok _, s') => s' = sent exec cs s
    | (.error _, s') => ∃ first, first <+: cs ∧ s' = sent exec first s

theorem IssuesAll.issues {m : Fallible JavaException σ β} (h : IssuesAll exec m cs) :
    Issues exec m cs := by
  intro s
  have hs := h s
  generalize eval m s = r at hs ⊢
  obtain ⟨e | b, s'⟩ := r
  · exact hs
  · exact ⟨cs, List.prefix_refl cs, hs⟩

theorem IssuesAll.call (c : Command α) : IssuesAll exec (RedisUtil.call exec c) [c] := by
  intro s
  rw [RedisUtil.call, eval_ofStep]
  cases hexec : exec c s with
  | mk r s' =>
    have hs' : s' = sent exec [c] s := by
      show s' = (exec c s).2
      rw [hexec]
    cases r with
    | error e => exact ⟨[c], List.prefix_refl _, hs'⟩
    | ok reply => exact hs'

theorem IssuesAll.pure (b : β) : IssuesAll exec (Pure.pure b) [] := fun _ => rfl

theorem Issues.bind {m : Fallible JavaException σ β} {f : β → Fallible JavaException σ γ}
    (hm : IssuesAll exec m cs) (hf : ∀ b, Issues exec (f b) cs') :
    Issues exec (m >>= f) (cs ++ cs') := by
  intro s
  have hs := hm s
  rw [eval_bind]
  generalize eval m s = r at hs ⊢
  obtain ⟨e | b, s'⟩ := r
  · obtain ⟨first, hfirst, hs'⟩ := hs
    exact ⟨first, hfirst.trans (List.prefix_append ..), hs'⟩
  · obtain ⟨first, hfirst, hs'⟩ := hf b s'
    refine ⟨cs ++ first, (List.prefix_append_right_inj cs).mpr hfirst, ?_⟩
    rw [hs', hs, sent, sent, sent, List.foldl_append]

/-- Code that comes after and sends nothing. -/
theorem Issues.andThen {m : Fallible JavaException σ β} {f : β → Fallible JavaException σ γ}
    (hm : Issues exec m cs) (hf : ∀ b s, (eval (f b) s).2 = s) : Issues exec (m >>= f) cs := by
  intro s
  obtain ⟨first, hfirst, hs⟩ := hm s
  refine ⟨first, hfirst, ?_⟩
  rw [eval_bind]
  generalize eval m s = r at hs ⊢
  obtain ⟨e | b, s'⟩ := r
  · exact hs
  · exact (hf b s').trans hs

theorem Issues.caught {m : Fallible JavaException σ β} (hm : Issues exec m cs) (b : β) :
    Issues exec (tryCatch m fun _ => Pure.pure b) cs := by
  intro s
  obtain ⟨first, hfirst, hs⟩ := hm s
  refine ⟨first, hfirst, ?_⟩
  rw [eval_tryCatch]
  generalize eval m s = r at hs ⊢
  obtain ⟨e | b, s'⟩ := r <;> exact hs

theorem Issues.flag (c : Command α) : Issues exec (RedisUtil.flag exec c) [c] := by
  apply Issues.caught
  exact (IssuesAll.call c).issues.andThen fun _ _ => rfl

theorem Issues.answer (c : Command α) : Issues exec (RedisUtil.answer exec c) [c] :=
  (IssuesAll.call c).issues.caught none

theorem Issues.setExpire (key : Option String) (expire : ℤ) :
    Issues exec (RedisUtil.setExpire exec key expire) (expireCommands key expire) := by
  apply Issues.caught
  unfold expireCommands
  split
  · exact (IssuesAll.call _).issues.andThen fun _ _ => rfl
  · exact (IssuesAll.pure true).issues

/-- The end of the blocks that set an expiry when one is asked for. -/
theorem Issues.expire (key : Option String) (expire : ℤ) (b : β) :
    Issues exec (do
      if 0 < expire then
        let _ ← RedisUtil.setExpire exec key expire
      Pure.pure b) (expireCommands key expire) := by
  by_cases h : 0 < expire
  · simp only [h, if_true]
    exact (Issues.setExpire key expire).andThen fun _ _ => rfl
  · simp only [h, if_false, expireCommands]
    exact (IssuesAll.pure b).issues

theorem Issues.flagExpire (c : Command α) (key : Option String) (expire : ℤ) :
    Issues exec (RedisUtil.flagExpire exec c key expire) (c :: expireCommands key expire) := by
  apply Issues.caught
  exact Issues.bind (IssuesAll.call c) fun _ => Issues.expire key expire true

theorem eval_unbox_snd (reply : Option β) (s : σ) : (eval (RedisUtil.unbox reply) s).2 = s := by
  cases reply <;> rfl

theorem Issues.unboxed (c : Command α) :
    Issues exec (RedisUtil.call exec c >>= RedisUtil.unbox) [c] :=
  (IssuesAll.call c).issues.andThen eval_unbox_snd

theorem Issues.hasKey (key : Option String) :
    Issues exec (RedisUtil.hasKey exec key) [.hasKey key] :=
  (Issues.unboxed (.hasKey key)).caught false

end Issues

/-! ## 3. Sessions -/

/-- What one client's command meets: what others do before it, the server's clock, and a failure. -/
structure Turn (α : Type) where
  others : List (Event α)
  now : Clock
  fault : Fault

/-- The server as one client finds it, with what its commands to come will meet (nothing, past the
end). -/
structure Shared (α : Type) where
  store : Store α
  now : Clock
  script : List (Turn α)

section Session

variable [DecidableEq α]

namespace Shared

def turn (s : Shared α) : Turn α := s.script.headD ⟨[], s.now, .none⟩

def exec (c : Command α) (s : Shared α) : Except JavaException (Option c.Reply) × Shared α :=
  let (reply, server) :=
    Server.exec c ⟨s.turn.others.foldl Store.step s.store, s.turn.now, [s.turn.fault]⟩
  (reply, ⟨server.store, s.turn.now, s.script.tail⟩)

end Shared

end Session

end UtilsRepo.Redis
