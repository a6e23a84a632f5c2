import Mathlib.Data.List.Infix

/-!
# Runs of timed events

Histories of a system whose events take time, follow each other without overlap and may depend on
everything that happened before.  Histories are kept with the newest event first, so the past of an
event is what stands behind it.
-/

namespace TimedRun

/-- What a run asks of its events: each takes from `start` to `finish`, and `guard` says when an
event may follow a past. -/
structure System (ε : Type*) where
  start : ε → ℕ
  finish : ε → ℕ
  start_le_finish : ∀ e, start e ≤ finish e
  guard : List ε → ε → Prop

variable {ε : Type*} {S : System ε}

inductive Run (S : System ε) : List ε → Prop
  | nil : Run S []
  | cons {past : List ε} {e : ε} (run : Run S past)
      (after : ∀ e' ∈ past.head?, S.finish e' ≤ S.start e) (guard : S.guard past e) :
      Run S (e :: past)

/-- Every initial part of a run is a run. -/
theorem Run.of_suffix {run past : List ε} (h : Run S run) (hpast : past <:+ run) : Run S past := by
  induction h with
  | nil =>
    rw [List.suffix_nil.mp hpast]
    exact Run.nil
  | @cons before e run after guard ih =>
    -- the whole run, or a part of what stood behind its newest event
    obtain rfl | hsuffix := List.suffix_cons_iff.mp hpast
    · exact Run.cons run after guard
    · exact ih hsuffix

theorem Run.guard_last {past : List ε} {e : ε} (h : Run S (e :: past)) : S.guard past e := by
  cases h with
  | cons _ _ guard => exact guard

/-- Time never goes back: everything in the past is finished when an event starts. -/
theorem Run.finish_le_start {past : List ε} {e e' : ε} (h : Run S (e :: past)) (he' : e' ∈ past) :
    S.finish e' ≤ S.start e := by
  induction past generalizing e with
  | nil => cases he'
  | cons last past ih =>
    cases h with
    | cons run after guard =>
      have hlast : S.finish last ≤ S.start e := after last rfl
      obtain rfl | hmem := List.mem_cons.mp he'
      · exact hlast
      · exact (ih run hmem).trans ((S.start_le_finish last).trans hlast)

end TimedRun
