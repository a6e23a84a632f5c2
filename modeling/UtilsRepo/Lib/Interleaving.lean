import Mathlib.Logic.Function.Basic
import UtilsRepo.Lib.Fallible

/-!
# Interleaved calls

Calls that share a state and take their steps in any order.  A call is `Safe` when, relying on what the
others may do between its steps, each of its steps is one it may take, and its result is as promised.
Calls that rely on no more than the others guarantee stay safe under every schedule.
-/

/-- A call as the steps it takes.  A step changes the state at once, and what comes after it may depend
on the state the step found. -/
inductive Process (ε σ β : Type) where
  | done (result : Except ε β)
  | step (act : σ → σ) (next : σ → Process ε σ β)

namespace Process

variable {ε σ α β : Type}

protected def bind : Process ε σ α → (α → Process ε σ β) → Process ε σ β
  | done (.ok a), f => f a
  | done (.error e), _ => done (.error e)
  | step act next, f => step act fun s => (next s).bind f

instance : Monad (Process ε σ) where
  pure b := done (.ok b)
  bind := Process.bind

protected def tryCatch : Process ε σ β → (ε → Process ε σ β) → Process ε σ β
  | done (.ok b), _ => done (.ok b)
  | done (.error e), handler => handler e
  | step act next, handler => step act fun s => (next s).tryCatch handler

instance : MonadExcept ε (Process ε σ) where
  throw e := done (.error e)
  tryCatch := Process.tryCatch

/-- A whole code as one step. -/
def atomic (m : Fallible ε σ β) : Process ε σ β :=
  step (fun s => (m.eval s).2) fun s => done (m.eval s).1

/-- The result, once there is one. -/
def result : Process ε σ β → Option (Except ε β)
  | done r => some r
  | step _ _ => none

/-! ## 1. A call on its own -/

def alone : Process ε σ β → σ → Except ε β × σ
  | done r, s => (r, s)
  | step act next, s => (next s).alone (act s)

theorem alone_bind (m : Process ε σ α) (f : α → Process ε σ β) (s : σ) :
    (m >>= f).alone s =
      match m.alone s with
      | (.ok a, s') => (f a).alone s'
      | (.error e, s') => (.error e, s') := by
  induction m generalizing s with
  | done r => cases r <;> rfl
  | step act next ih => exact ih s (act s)

/-- Steps that on their own come to what two codes come to, one after the other, come to what their
sequence comes to. -/
theorem alone_bind_eq {m : Process ε σ α} {f : α → Process ε σ β} {m' : Fallible ε σ α}
    {f' : α → Fallible ε σ β} (hm : ∀ s, m.alone s = m'.eval s)
    (hf : ∀ a s, (f a).alone s = (f' a).eval s) (s : σ) :
    (m >>= f).alone s = (m' >>= f').eval s := by
  rw [alone_bind, Fallible.eval_bind, hm s]
  generalize m'.eval s = r
  obtain ⟨e | a, s'⟩ := r
  · rfl
  · exact hf a s'

/-! ## 2. Rely and guarantee -/

/-- Before each step and after the last, others may change the state as in `R`; each step changes it as
in `G`, and a call that does not throw ends with `Q`. -/
def Safe (R G : σ → σ → Prop) (Q : β → σ → Prop) : Process ε σ β → σ → Prop
  | done (.ok b), s => ∀ s', R s s' → Q b s'
  | done (.error _), _ => True
  | step act next, s => ∀ s', R s s' → G s' (act s') ∧ (next s').Safe R G Q (act s')

section Safe

variable {R G : σ → σ → Prop} {Q : α → σ → Prop} {Q' : β → σ → Prop}

/-- What others do leaves a safe call safe. -/
theorem Safe.rely (htrans : ∀ s s' s'', R s s' → R s' s'' → R s s'') {m : Process ε σ β} {s s' : σ}
    (h : m.Safe R G Q' s) (hs : R s s') : m.Safe R G Q' s' := by
  match m, h with
  | done (.ok b), h => exact fun s'' hs' => h s'' (htrans _ _ _ hs hs')
  | done (.error e), _ => exact True.intro
  | step act next, h => exact fun s'' hs' => h s'' (htrans _ _ _ hs hs')

theorem Safe.pure {b : β} {s : σ} (h : ∀ s', R s s' → Q' b s') :
    (Pure.pure b : Process ε σ β).Safe R G Q' s := h

theorem Safe.bind (hrefl : ∀ s, R s s) {m : Process ε σ α} {f : α → Process ε σ β} {s : σ}
    (hm : m.Safe R G Q s) (hf : ∀ a s', Q a s' → (f a).Safe R G Q' s') :
    (m >>= f).Safe R G Q' s := by
  induction m generalizing s with
  | done r =>
    cases r with
    | ok a => exact hf a s (hm s (hrefl s))
    | error e => exact True.intro
  | step act next ih =>
    intro s' hs
    obtain ⟨hact, hnext⟩ := hm s' hs
    exact ⟨hact, ih s' hnext⟩

theorem Safe.atomic {m : Fallible ε σ β} {s : σ}
    (hstep : ∀ s', R s s' → G s' (m.eval s').2)
    (hpost : ∀ s' b s'', R s s' → (m.eval s').1 = .ok b → R (m.eval s').2 s'' → Q' b s'') :
    (atomic m).Safe R G Q' s := by
  intro s' hs
  refine ⟨hstep s' hs, ?_⟩
  change (done (m.eval s').1).Safe R G Q' (m.eval s').2
  cases hb : (m.eval s').1 with
  | ok b => exact fun s'' hs' => hpost s' b s'' hs hb hs'
  | error e => exact True.intro

/-- On its own a safe call ends as promised. -/
theorem Safe.alone (hrefl : ∀ s, R s s) {m : Process ε σ β} {s s' : σ} {b : β}
    (h : m.Safe R G Q' s) (halone : m.alone s = (.ok b, s')) : Q' b s' := by
  induction m generalizing s with
  | done r =>
    cases halone
    exact h _ (hrefl _)
  | step act next ih => exact ih s (h s (hrefl s)).2 halone

/-- What a call that has ended returned is as promised. -/
theorem Safe.of_result (hrefl : ∀ s, R s s) {m : Process ε σ β} {s : σ} {b : β}
    (h : m.Safe R G Q' s) (hresult : m.result = some (.ok b)) : Q' b s := by
  cases m with
  | done r =>
    cases hresult
    exact h s (hrefl s)
  | step act next => cases hresult

end Safe

/-! ## 3. Schedules -/

section Schedule

variable {ι : Type} [DecidableEq ι]

/-- Call `i` takes its next step, if it has not ended. -/
def advance (calls : (ι → Process ε σ β) × σ) (i : ι) : (ι → Process ε σ β) × σ :=
  match calls.1 i with
  | done _ => calls
  | step act next => (Function.update calls.1 i (next calls.2), act calls.2)

/-- The calls and the state after the steps a schedule gives them. -/
def run (calls : ι → Process ε σ β) (s : σ) (schedule : List ι) : (ι → Process ε σ β) × σ :=
  schedule.foldl advance (calls, s)

variable {R G : ι → σ → σ → Prop} {Q : ι → β → σ → Prop}

theorem safe_advance (htrans : ∀ i s s' s'', R i s s' → R i s' s'' → R i s s'')
    (hrefl : ∀ i s, R i s s) (hothers : ∀ i j, i ≠ j → ∀ s s', G i s s' → R j s s')
    {calls : (ι → Process ε σ β) × σ} (h : ∀ i, (calls.1 i).Safe (R i) (G i) (Q i) calls.2) (i j : ι) :
    ((advance calls i).1 j).Safe (R j) (G j) (Q j) (advance calls i).2 := by
  unfold advance
  cases hcall : calls.1 i with
  | done r => exact h j
  | step act next =>
    have hi := h i
    rw [hcall] at hi
    obtain ⟨hact, hnext⟩ := hi calls.2 (hrefl i calls.2)
    by_cases hij : i = j
    · subst hij
      simpa using hnext
    · -- the step of `i` is one that `j` relies on
      have hstay : Function.update calls.1 i (next calls.2) j = calls.1 j :=
        Function.update_of_ne (Ne.symm hij) ..
      simp only [hstay]
      exact (h j).rely (htrans j) (hothers i j hij _ _ hact)

/-- Safe calls, each relying on what all others guarantee, are safe after every schedule. -/
theorem safe_run (htrans : ∀ i s s' s'', R i s s' → R i s' s'' → R i s s'')
    (hrefl : ∀ i s, R i s s) (hothers : ∀ i j, i ≠ j → ∀ s s', G i s s' → R j s s')
    {calls : ι → Process ε σ β} {s : σ} (h : ∀ i, (calls i).Safe (R i) (G i) (Q i) s)
    (schedule : List ι) (i : ι) :
    ((run calls s schedule).1 i).Safe (R i) (G i) (Q i) (run calls s schedule).2 := by
  suffices hall : ∀ calls : (ι → Process ε σ β) × σ,
      (∀ i, (calls.1 i).Safe (R i) (G i) (Q i) calls.2) →
        ∀ i, ((schedule.foldl advance calls).1 i).Safe (R i) (G i) (Q i)
          (schedule.foldl advance calls).2 from hall (calls, s) h i
  induction schedule with
  | nil => exact fun _ hcalls => hcalls
  | cons j schedule ih =>
    intro calls hcalls
    exact ih _ (safe_advance htrans hrefl hothers hcalls j)

end Schedule

/-! ## 4. Calls with one effect -/

/-- Found in states with `P`, each step changes the state as in `I`, but for one that changes it as in
`C`.  With that one the call ends, and without it the call throws. -/
def CommitsOnce (P : σ → Prop) (I C : σ → σ → Prop) : Process ε σ β → Prop
  | done (.ok _) => False
  | done (.error _) => True
  | step act next => ∀ s, P s →
      (I s (act s) ∧ (next s).CommitsOnce P I C) ∨ (C s (act s) ∧ ∃ b, next s = done (.ok b))

section CommitsOnce

variable {P : σ → Prop} {I C : σ → σ → Prop}

theorem CommitsOnce.atomic {m : Fallible ε σ β}
    (h : ∀ s, P s → (∃ e, (m.eval s).1 = .error e ∧ I s (m.eval s).2) ∨
      ∃ b, (m.eval s).1 = .ok b ∧ C s (m.eval s).2) :
    (atomic m).CommitsOnce P I C := by
  intro s hs
  rcases h s hs with ⟨e, herror, hidle⟩ | ⟨b, hok, hcommit⟩
  · refine .inl ⟨hidle, ?_⟩
    show (done (m.eval s).1 : Process ε σ β).CommitsOnce P I C
    rw [herror]
    exact True.intro
  · exact .inr ⟨hcommit, b, congrArg done hok⟩

/-- Computing without a step comes before. -/
theorem CommitsOnce.done_bind {r : Except ε α} {f : α → Process ε σ β}
    (h : ∀ a, r = .ok a → (f a).CommitsOnce P I C) : (done r >>= f).CommitsOnce P I C := by
  cases r with
  | ok a => exact h a rfl
  | error e => exact True.intro

theorem CommitsOnce.tryCatch {m : Process ε σ β} {handler : ε → Process ε σ β}
    (hm : m.CommitsOnce P I C) (hhandler : ∀ e, (handler e).CommitsOnce P I C) :
    (tryCatch m handler).CommitsOnce P I C := by
  induction m with
  | done r =>
    cases r with
    | ok b => exact hm.elim
    | error e => exact hhandler e
  | step act next ih =>
    intro s hs
    rcases hm s hs with ⟨hidle, hnext⟩ | ⟨hcommit, b, hnext⟩
    · exact .inl ⟨hidle, ih s hnext⟩
    · exact .inr ⟨hcommit, b, congrArg (Process.tryCatch · handler) hnext⟩

end CommitsOnce

end Process
