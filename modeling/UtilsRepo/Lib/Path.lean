import Mathlib.Data.List.Chain
import Mathlib.Data.List.Infix
import Mathlib.Tactic.Common

/-!
# Paths as sequences of characters

The non-empty parts between separators, and the last occurrence of a separator.
-/

namespace Path

variable {α : Type*}

/-! ## 1. Components -/

def components (sep : α → Bool) (s : List α) : List (List α) :=
  (s.splitOnP sep).filter fun part => !part.isEmpty

variable {sep : α → Bool}

@[simp] theorem components_nil : components sep [] = [] := rfl

theorem components_append_sep (s t : List α) {c : α} (hc : sep c) :
    components sep (s ++ c :: t) = components sep s ++ components sep t := by
  rw [components, List.splitOnP_append_cons _ _ hc, List.filter_append]
  rfl

theorem components_of_no_sep {s : List α} (hs : ∀ x ∈ s, sep x = false) (hne : s ≠ []) :
    components sep s = [s] := by
  rw [components, List.splitOnP_eq_singleton hs, List.filter_cons_of_pos (by simpa using hne)]
  rfl

theorem exists_last_part (sep : α → Bool) (s : List α) :
    (∀ x ∈ s, sep x = false) ∨
      ∃ init c last, s = init ++ c :: last ∧ sep c ∧ ∀ x ∈ last, sep x = false := by
  induction s with
  | nil => exact .inl (by simp)
  | cons x s ih =>
    rcases ih with hs | ⟨init, c, last, rfl, hc, hlast⟩
    · cases hx : sep x with
      | false => exact .inl (by simpa [hx] using hs)
      | true => exact .inr ⟨[], x, s, rfl, hx, hs⟩
    · exact .inr ⟨x :: init, c, last, rfl, hc, hlast⟩

/-- To prove a property of every sequence, add one part after another. -/
theorem induct_last_part (sep : α → Bool) {P : List α → Prop}
    (part : ∀ s, (∀ x ∈ s, sep x = false) → P s)
    (snoc : ∀ init c last, sep c → (∀ x ∈ last, sep x = false) → P init → P (init ++ c :: last))
    (s : List α) : P s := by
  induction hn : s.length using Nat.strong_induction_on generalizing s with
  | _ n ih =>
    rcases exists_last_part sep s with hs | ⟨init, c, last, rfl, hc, hlast⟩
    · exact part s hs
    · exact snoc init c last hc hlast (ih init.length (by simp [← hn]) init rfl)

theorem mem_components_of_no_sep {s part : List α} (hs : ∀ x ∈ s, sep x = false)
    (h : part ∈ components sep s) : part = s := by
  have hne : s ≠ [] := by
    rintro rfl
    cases h
  rwa [components_of_no_sep hs hne, List.mem_singleton] at h

theorem mem_of_mem_components {s part : List α} (h : part ∈ components sep s) {x : α}
    (hx : x ∈ part) : x ∈ s := by
  induction s using induct_last_part sep with
  | part s hs => rwa [← mem_components_of_no_sep hs h]
  | snoc init c last hc hlast ih =>
    rw [components_append_sep _ _ hc, List.mem_append] at h
    rcases h with h | h
    · exact List.mem_append_left _ (ih h)
    · rw [mem_components_of_no_sep hlast h] at hx
      exact List.mem_append_right _ (List.mem_cons_of_mem c hx)

theorem exists_mem_components {s : List α} {x : α} (hx : x ∈ s) (hsep : sep x = false) :
    ∃ part ∈ components sep s, x ∈ part := by
  induction s using induct_last_part sep with
  | part s hs => exact ⟨s, by simp [components_of_no_sep hs (List.ne_nil_of_mem hx)], hx⟩
  | snoc init c last hc hlast ih =>
    rw [components_append_sep _ _ hc]
    rcases List.mem_append.mp hx with hx | hx
    · obtain ⟨part, hpart, hxp⟩ := ih hx
      exact ⟨part, List.mem_append_left _ hpart, hxp⟩
    · have hxl : x ∈ last := by
        rcases List.mem_cons.mp hx with rfl | hx
        · rw [hc] at hsep
          cases hsep
        · exact hx
      refine ⟨last, List.mem_append_right _ ?_, hxl⟩
      simp [components_of_no_sep hlast (List.ne_nil_of_mem hxl)]

theorem flatten_components_of_no_sep {s : List α} (hs : ∀ x ∈ s, sep x = false) :
    (components sep s).flatten = s.filter fun x => !sep x := by
  rw [List.filter_eq_self.mpr (by simpa using hs)]
  by_cases hne : s = []
  · rw [hne, components_nil, List.flatten_nil]
  · rw [components_of_no_sep hs hne, List.flatten_singleton]

/-- The components have everything but the separators, in order. -/
theorem flatten_components (s : List α) :
    (components sep s).flatten = s.filter fun x => !sep x := by
  induction s using induct_last_part sep with
  | part s hs => exact flatten_components_of_no_sep hs
  | snoc init c last hc hlast ih =>
    rw [components_append_sep _ _ hc, List.flatten_append, ih, flatten_components_of_no_sep hlast,
      List.filter_append, List.filter_cons_of_neg (by simpa using hc)]

/-- A sequence that does not end in a separator ends in its last component. -/
theorem suffix_of_components {s : List α} {init : List (List α)} {last : List α}
    (h : components sep s = init ++ [last]) (hend : ∀ c ∈ s.getLast?, sep c = false) :
    last <:+ s := by
  rcases exists_last_part sep s with hs | ⟨front, c, back, rfl, hc, hback⟩
  · have hmem : last ∈ components sep s := by rw [h]; exact List.mem_append_right _ (by simp)
    exact mem_components_of_no_sep hs hmem ▸ List.suffix_rfl
  · have hne : back ≠ [] := by
      rintro rfl
      have hsep := hend c (by simp)
      rw [hc] at hsep
      cases hsep
    rw [components_append_sep _ _ hc, components_of_no_sep hback hne] at h
    have hlast := List.singleton_inj.mp (List.append_inj' h rfl).2
    rw [← hlast]
    exact ⟨front ++ [c], by simp⟩

/-- When only elements with `Q` stand before the ends `H` of a part, separators among them, every
component of a part ended by `c` has its last element in `Q`. -/
theorem getLast_components_of_isChain {H Q : α → Prop} (hsep : ∀ c, sep c → H c) {s : List α} {c : α}
    (hc : H c) (h : (s ++ [c]).IsChain fun a b => H b → Q a) :
    ∀ part ∈ components sep s, ∀ a ∈ part.getLast?, Q a := by
  induction s using induct_last_part sep generalizing c with
  | part s hs =>
    intro part hpart a ha
    -- the component is the whole part, and `c` stands right behind it
    rw [mem_components_of_no_sep hs hpart] at ha
    exact (List.isChain_append.mp h).2.2 a ha c rfl hc
  | snoc init c' last hc' hlast ih =>
    intro part hpart a ha
    have happ : init ++ c' :: last ++ [c] = (init ++ [c']) ++ (last ++ [c]) := by simp
    rw [happ] at h
    obtain ⟨hinit, hrest, -⟩ := List.isChain_append.mp h
    rw [components_append_sep _ _ hc', List.mem_append] at hpart
    rcases hpart with hpart | hpart
    · -- a component of `init`, which the separator `c'` ends
      exact ih (hsep c' hc') hinit part hpart a ha
    · rw [mem_components_of_no_sep hlast hpart] at ha
      exact (List.isChain_append.mp hrest).2.2 a ha c rfl hc

/-- The same of the parts between separators, empty ones among them: in all but the last. -/
theorem getLast_dropLast_splitOnP_of_isChain {H Q : α → Prop} (hsep : ∀ c, sep c → H c) {s : List α}
    (h : s.IsChain fun a b => H b → Q a) :
    ∀ part ∈ (s.splitOnP sep).dropLast, ∀ a ∈ part.getLast?, Q a := by
  rcases exists_last_part sep s with hs | ⟨init, c, last, rfl, hc, hlast⟩
  · rw [List.splitOnP_eq_singleton hs]
    exact fun part hpart => absurd hpart List.not_mem_nil
  · rw [List.splitOnP_append_cons _ _ hc, List.splitOnP_eq_singleton hlast, List.dropLast_concat]
    intro part hpart a ha
    have hmem : part ∈ components sep init := by
      have hne : part ≠ [] := List.ne_nil_of_mem (List.mem_of_getLast? ha)
      exact List.mem_filter.mpr ⟨hpart, by simpa using hne⟩
    have happ : init ++ c :: last = (init ++ [c]) ++ last := by simp
    rw [happ] at h
    exact getLast_components_of_isChain hsep (hsep c hc) (List.isChain_append.mp h).1 part hmem a ha

/-! ## 2. The last occurrence of an element -/

def lastIndexOf [DecidableEq α] (c : α) : List α → Option ℕ
  | [] => none
  | x :: s =>
      match lastIndexOf c s with
      | some i => some (i + 1)
      | none => if x = c then some 0 else none

section LastIndexOf

variable [DecidableEq α] {c : α} {s : List α}

theorem lastIndexOf_eq_none : lastIndexOf c s = none ↔ c ∉ s := by
  induction s with
  | nil => simp [lastIndexOf]
  | cons x s ih =>
    unfold lastIndexOf
    cases h : lastIndexOf c s with
    -- an occurrence further right goes first
    | some i =>
      have hs : c ∈ s := by simpa [h] using ih
      simp [hs]
    | none =>
      rw [h] at ih
      have hs : c ∉ s := ih.mp rfl
      simp [hs, eq_comm]

theorem lastIndexOf_eq_some {i : ℕ} (h : lastIndexOf c s = some i) :
    s = s.take i ++ c :: s.drop (i + 1) ∧ c ∉ s.drop (i + 1) := by
  induction s generalizing i with
  | nil => cases h
  | cons x s ih =>
    unfold lastIndexOf at h
    cases hs : lastIndexOf c s with
    | some j =>
      rw [hs] at h
      cases h
      obtain ⟨hcut, hmem⟩ := ih hs
      refine ⟨?_, by simpa using hmem⟩
      rw [List.take_succ_cons, List.drop_succ_cons, List.cons_append, ← hcut]
    | none =>
      rw [hs] at h
      by_cases hx : x = c
      · simp only [hx, if_true] at h
        cases h
        subst hx
        exact ⟨rfl, lastIndexOf_eq_none.mp hs⟩
      · simp only [hx, if_false] at h
        cases h

end LastIndexOf

end Path
