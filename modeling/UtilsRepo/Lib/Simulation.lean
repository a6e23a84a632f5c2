import Mathlib.Tactic.Common

/-!
# Simulation

A system that answers inputs, compared with what a specification allows: when each of its steps is
allowed, so are its runs.
-/

namespace Simulation

variable {σ τ ι ω : Type}

/-- A run over a list of inputs: each input with its answer, and the state in the end. -/
def run (step : σ → ι → ω × σ) (s : σ) : List ι → List (ι × ω) × σ
  | [] => ([], s)
  | i :: is => ((i, (step s i).1) :: (run step (step s i).2 is).1, (run step (step s i).2 is).2)

/-- The answers a specification allows, from one of its states to another. -/
inductive Allows (next : τ → ι → ω → τ → Prop) : τ → List (ι × ω) → τ → Prop
  | nil {t : τ} : Allows next t [] t
  | cons {t t' t'' : τ} {i : ι} {o : ω} {rest : List (ι × ω)} :
      next t i o t' → Allows next t' rest t'' → Allows next t ((i, o) :: rest) t''

theorem snd_run_append (step : σ → ι → ω × σ) (s : σ) (is is' : List ι) :
    (run step s (is ++ is')).2 = (run step (run step s is).2 is').2 := by
  induction is generalizing s with
  | nil => rfl
  | cons i is ih => exact ih _

theorem snd_run_cons (step : σ → ι → ω × σ) (s : σ) (i : ι) (is : List ι) :
    (run step s (i :: is)).2 = (run step (step s i).2 is).2 := rfl

theorem map_fst_run (step : σ → ι → ω × σ) (s : σ) (is : List ι) :
    (run step s is).1.map Prod.fst = is := by
  induction is generalizing s with
  | nil => rfl
  | cons i is ih => rw [run, List.map_cons, ih]

variable {next : τ → ι → ω → τ → Prop}

/-- What each allowed step keeps, an allowed run keeps. -/
theorem Allows.keeps {P : τ → Prop} {t t' : τ} {trace : List (ι × ω)} (h : Allows next t trace t')
    (hstep : ∀ t io t', io ∈ trace → next t io.1 io.2 t' → P t → P t') (ht : P t) : P t' := by
  induction h with
  | nil => exact ht
  | cons hnext _ ih =>
    have hfirst := hstep _ _ _ List.mem_cons_self hnext ht
    exact ih (fun t io t' hmem => hstep t io t' (List.mem_cons_of_mem _ hmem)) hfirst

/-- Related states stay related, and the answers are allowed ones, through a whole run. -/
theorem allows_run {step : σ → ι → ω × σ} {R : σ → τ → Prop}
    (hstep : ∀ s t i, R s t → ∃ t', next t i (step s i).1 t' ∧ R (step s i).2 t') {s : σ} {t : τ}
    (h : R s t) (is : List ι) :
    ∃ t', Allows next t (run step s is).1 t' ∧ R (run step s is).2 t' := by
  induction is generalizing s t with
  | nil => exact ⟨t, .nil, h⟩
  | cons i is ih =>
    obtain ⟨t₁, hnext, h₁⟩ := hstep s t i h
    obtain ⟨t₂, hrest, h₂⟩ := ih h₁
    exact ⟨t₂, .cons hnext hrest, h₂⟩

end Simulation
