import Mathlib.Tactic.Common

/-!
# Fallible stateful calls

Straight-line imperative code whose calls may throw: an exception keeps the effects made before it,
and `try`/`catch` resumes from the state in which the body threw.  `eval` runs such a code from a
state; its equations below are what proofs rewrite with, and the rules of `Triple` carry pre- and
postconditions along the shape of the code.
-/

/-- Code that works on a state `σ` and may throw an `ε`. -/
abbrev Fallible (ε σ β : Type) := ExceptT ε (StateM σ) β

namespace Fallible

variable {ε σ τ α β : Type}

def ofStep (step : σ → Except ε β × σ) : Fallible ε σ β :=
  ExceptT.mk step

def ofExcept : Except ε β → Fallible ε σ β
  | .ok b => pure b
  | .error e => throw e

/-- Run the code from a state. -/
def eval (m : Fallible ε σ β) (s : σ) : Except ε β × σ :=
  (m.run.run s).run

/-! ## 1. Equations of a run -/

@[simp] theorem eval_ofStep (step : σ → Except ε β × σ) (s : σ) :
    (ofStep step).eval s = step s := rfl

@[simp] theorem eval_pure (b : β) (s : σ) :
    eval (pure b : Fallible ε σ β) s = (.ok b, s) := rfl

@[simp] theorem eval_throw (e : ε) (s : σ) :
    eval (throw e : Fallible ε σ β) s = (.error e, s) := rfl

@[simp] theorem eval_ofExcept (r : Except ε β) (s : σ) :
    eval (ofExcept r : Fallible ε σ β) s = (r, s) := by
  cases r <;> rfl

theorem eval_bind (m : Fallible ε σ α) (f : α → Fallible ε σ β) (s : σ) :
    eval (m >>= f) s =
      match eval m s with
      | (.ok a, s') => eval (f a) s'
      | (.error e, s') => (.error e, s') := by
  -- the transformer's own `bind`, which branches on the first outcome
  change (ExceptT.bindCont f (m.run.run s).1 : StateM σ _) (m.run.run s).2 = _
  cases h : m.run.run s with
  | mk r s' => cases r <;> simp only [eval, h] <;> rfl

theorem eval_bind_ok {m : Fallible ε σ α} {s s' : σ} {a : α} (f : α → Fallible ε σ β)
    (h : eval m s = (.ok a, s')) : eval (m >>= f) s = eval (f a) s' := by
  rw [eval_bind, h]

theorem eval_bind_error {m : Fallible ε σ α} {s s' : σ} {e : ε} (f : α → Fallible ε σ β)
    (h : eval m s = (.error e, s')) : eval (m >>= f) s = (.error e, s') := by
  rw [eval_bind, h]

theorem eval_tryCatch (m : Fallible ε σ β) (handler : ε → Fallible ε σ β) (s : σ) :
    eval (tryCatch m handler) s =
      match eval m s with
      | (.ok b, s') => (.ok b, s')
      | (.error e, s') => eval (handler e) s' := by
  change (match (m.run.run s).1 with
    | Except.ok b => (pure (Except.ok b) : StateM σ (Except ε β))
    | Except.error e => handler e) (m.run.run s).2 = _
  cases h : m.run.run s with
  | mk r s' => cases r <;> simp only [eval, h] <;> rfl

theorem eval_tryCatch_ok {m : Fallible ε σ β} {s s' : σ} {b : β} (handler : ε → Fallible ε σ β)
    (h : eval m s = (.ok b, s')) : eval (tryCatch m handler) s = (.ok b, s') := by
  rw [eval_tryCatch, h]

theorem eval_tryCatch_error {m : Fallible ε σ β} {s s' : σ} {e : ε}
    (handler : ε → Fallible ε σ β) (h : eval m s = (.error e, s')) :
    eval (tryCatch m handler) s = eval (handler e) s' := by
  rw [eval_tryCatch, h]

/-- `try`/`catch` around everything, where the handler throws again. -/
def mapError {ε' : Type} (f : ε → ε') (m : Fallible ε σ β) : Fallible ε' σ β :=
  ofStep fun s => ((m.eval s).1.mapError f, (m.eval s).2)

@[simp] theorem eval_mapError {ε' : Type} (f : ε → ε') (m : Fallible ε σ β) (s : σ) :
    (mapError f m).eval s = ((m.eval s).1.mapError f, (m.eval s).2) := rfl

/-- `try`/`finally`: what the finalizer throws takes the place of the outcome. -/
def withFinalizer (m : Fallible ε σ β) (finalizer : Fallible ε σ Unit) : Fallible ε σ β :=
  ofStep fun s =>
    match finalizer.eval (m.eval s).2 with
    | (.ok (), s') => ((m.eval s).1, s')
    | (.error e, s') => (.error e, s')

theorem eval_withFinalizer_ok {m : Fallible ε σ β} {finalizer : Fallible ε σ Unit} {s s' : σ}
    (h : finalizer.eval (m.eval s).2 = (.ok (), s')) :
    (withFinalizer m finalizer).eval s = ((m.eval s).1, s') := by
  rw [withFinalizer, eval_ofStep, h]

theorem eval_withFinalizer_error {m : Fallible ε σ β} {finalizer : Fallible ε σ Unit} {s s' : σ} {e : ε}
    (h : finalizer.eval (m.eval s).2 = (.error e, s')) :
    (withFinalizer m finalizer).eval s = (.error e, s') := by
  rw [withFinalizer, eval_ofStep, h]

/-! ## 2. Pre- and postconditions -/

/-- From every state with `P` the code ends in `Q`, or throws and leaves a state with `E`. -/
def Triple (P : σ → Prop) (m : Fallible ε σ β) (Q : β → σ → Prop) (E : σ → Prop) : Prop :=
  ∀ s, P s → match eval m s with
    | (.ok b, s') => Q b s'
    | (.error _, s') => E s'

section Triple

variable {P : σ → Prop} {Q : α → σ → Prop} {R : β → σ → Prop} {E : σ → Prop}

theorem Triple.pure {b : β} (h : ∀ s, P s → R b s) :
    Triple P (Pure.pure b : Fallible ε σ β) R E := h

theorem Triple.trivial (m : Fallible ε σ β) :
    Triple P m (fun _ _ => True) (fun _ => True) := by
  intro s _
  obtain ⟨e | b, s'⟩ := eval m s <;> exact True.intro

theorem Triple.throw {e : ε} (h : ∀ s, P s → E s) :
    Triple P (MonadExcept.throw e : Fallible ε σ β) R E := h

theorem Triple.ofExcept {I : σ → Prop} (r : Except ε β) :
    Triple I (ofExcept r : Fallible ε σ β) (fun _ => I) I := by
  cases r with
  | ok b => exact Triple.pure fun _ h => h
  | error e => exact Triple.throw fun _ h => h

theorem Triple.bind {m : Fallible ε σ α} {f : α → Fallible ε σ β} (hm : Triple P m Q E)
    (hf : ∀ a, Triple (Q a) (f a) R E) : Triple P (m >>= f) R E := by
  intro s hs
  have hms := hm s hs
  rw [eval_bind]
  -- if `m` throws, its own `E` is the outcome; else `f` starts where `m` ended
  generalize eval m s = r at hms ⊢
  obtain ⟨a | a, s'⟩ := r
  · exact hms
  · exact hf a s' hms

theorem Triple.mono {Q' : α → σ → Prop} {m : Fallible ε σ α} (hm : Triple P m Q E)
    (h : ∀ a s, Q a s → Q' a s) : Triple P m Q' E := by
  intro s hs
  have hms := hm s hs
  generalize eval m s = r at hms ⊢
  obtain ⟨e | a, s'⟩ := r
  · exact hms
  · exact h a s' hms

-- a fact that does not depend on the state may be assumed
theorem Triple.assume {φ : Prop} {m : Fallible ε σ β} (hm : φ → Triple P m R E) :
    Triple (fun s => P s ∧ φ) m R E :=
  fun s hs => hm hs.2 s hs.1

-- what holds in the end whether or not the code throws
theorem Triple.eval_snd {I : σ → Prop} {m : Fallible ε σ β} (hm : Triple P m (fun _ => I) I) {s : σ}
    (hs : P s) : I (eval m s).2 := by
  have h := hm s hs
  generalize eval m s = r at h ⊢
  obtain ⟨e | b, s'⟩ := r <;> exact h

end Triple

/-! ## 3. When code returns -/

/-- The code returns from every state if the inputs satisfy `φ`, and from none if they do not. -/
def ReturnsIff (m : Fallible ε σ β) (φ : Prop) : Prop :=
  ∀ s, (∃ b, (m.eval s).1 = .ok b) ↔ φ

section ReturnsIff

variable {φ ψ : Prop}

theorem ReturnsIff.congr {m : Fallible ε σ β} (h : ReturnsIff m φ) (hiff : φ ↔ ψ) :
    ReturnsIff m ψ :=
  fun s => (h s).trans hiff

theorem ReturnsIff.pure (b : β) : ReturnsIff (Pure.pure b : Fallible ε σ β) True :=
  fun _ => iff_of_true ⟨b, rfl⟩ True.intro

theorem ReturnsIff.throw (e : ε) : ReturnsIff (MonadExcept.throw e : Fallible ε σ β) False :=
  fun _ => iff_of_false (fun ⟨_, h⟩ => nomatch h) id

-- what follows may rely on what holds of every value returned
theorem ReturnsIff.bind_of {Q : α → Prop} {m : Fallible ε σ α} {f : α → Fallible ε σ β}
    (hm : ReturnsIff m φ) (hvalue : ∀ s a s', m.eval s = (.ok a, s') → Q a)
    (hf : ∀ a, Q a → ReturnsIff (f a) ψ) : ReturnsIff (m >>= f) (φ ∧ ψ) := by
  intro s
  cases h : m.eval s with
  | mk r s' =>
    have hs := hm s
    rw [h] at hs
    cases r with
    | error e =>
      rw [eval_bind_error _ h]
      have hnot : ¬ φ := fun hφ => nomatch hs.mpr hφ
      exact iff_of_false (fun ⟨_, hb⟩ => nomatch hb) fun hφ => hnot hφ.1
    | ok a =>
      rw [eval_bind_ok _ h, hf a (hvalue s a s' h) s']
      exact (and_iff_right (hs.mp ⟨a, rfl⟩)).symm

theorem ReturnsIff.bind {m : Fallible ε σ α} {f : α → Fallible ε σ β} (hm : ReturnsIff m φ)
    (hf : ∀ a, ReturnsIff (f a) ψ) : ReturnsIff (m >>= f) (φ ∧ ψ) :=
  hm.bind_of (fun _ _ _ _ => True.intro) fun a _ => hf a

theorem ReturnsIff.mapError {ε' : Type} {m : Fallible ε σ β} (h : ReturnsIff m φ) (f : ε → ε') :
    ReturnsIff (mapError f m) φ := by
  intro s
  rw [← h s, eval_mapError]
  cases (m.eval s).1 with
  | error e => exact iff_of_false (fun ⟨_, hb⟩ => nomatch hb) fun ⟨_, hb⟩ => nomatch hb
  | ok b => exact iff_of_true ⟨b, rfl⟩ ⟨b, rfl⟩

theorem ReturnsIff.withFinalizer {m : Fallible ε σ β} {finalizer : Fallible ε σ Unit}
    (h : ReturnsIff m φ) (hfinalizer : ReturnsIff finalizer True) :
    ReturnsIff (withFinalizer m finalizer) φ := by
  intro s
  obtain ⟨_, hreturns⟩ := (hfinalizer (m.eval s).2).mpr True.intro
  rw [eval_withFinalizer_ok (Prod.ext hreturns rfl)]
  exact h s

end ReturnsIff

/-! ## 4. Successful `Except` computations -/

theorem except_bind_ok {m : Except ε α} {f : α → Except ε β} {b : β} (h : (m >>= f) = .ok b) :
    ∃ a, m = .ok a ∧ f a = .ok b := by
  cases m with
  | error e => cases h
  | ok a => exact ⟨a, rfl, h⟩

theorem except_bind_ok_iff {m : Except ε α} {f : α → Except ε β} {b : β} :
    (m >>= f) = .ok b ↔ ∃ a, m = .ok a ∧ f a = .ok b := by
  constructor
  · exact except_bind_ok
  · rintro ⟨a, rfl, h⟩
    exact h

-- a step that only checks
theorem except_check_ok_iff {check : Except ε Unit} {m : Except ε β} {b : β} :
    (check >>= fun _ => m) = .ok b ↔ check = .ok () ∧ m = .ok b := by
  cases check with
  | error e => exact iff_of_false (fun h => nomatch h) (fun h => nomatch h.1)
  | ok _ => exact (and_iff_right rfl).symm

theorem except_refuse_ok_iff {c : Prop} [Decidable c] {e : ε} {b : β} :
    (if c then .error e else .ok b : Except ε β) = .ok b ↔ ¬ c := by
  split_ifs with h
  · exact iff_of_false (fun h => nomatch h) (not_not.mpr h)
  · exact iff_of_true rfl h

theorem except_require_ok_iff {c : Prop} [Decidable c] {e : ε} {b : β} :
    (if c then .ok b else .error e : Except ε β) = .ok b ↔ c := by
  split_ifs with h
  · exact iff_of_true rfl h
  · exact iff_of_false (fun h => nomatch h) h

theorem except_forM_ok_iff {l : List α} {f : α → Except ε Unit} :
    l.forM f = .ok () ↔ ∀ a ∈ l, f a = .ok () := by
  induction l with
  | nil => exact iff_of_true rfl (by simp)
  | cons a l ih =>
    rw [List.forall_mem_cons, ← ih]
    change (f a >>= fun _ => l.forM f) = .ok () ↔ _
    cases f a with
    | error e => exact iff_of_false (fun h => nomatch h) (fun h => nomatch h.1)
    | ok _ => exact ⟨fun h => ⟨rfl, h⟩, And.right⟩

end Fallible
