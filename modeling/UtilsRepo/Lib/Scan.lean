import Mathlib.Data.List.Infix

/-!
# Leftmost, non-overlapping deletion

One left-to-right pass over a sequence that deletes every match of a pattern, as
`String.replace(pattern, "")` and `String.replaceAll(regex, "")` do.  The pattern is given by the
length of the match it has at the front of a sequence, `0` standing for no match.
-/

namespace Scan

variable {α : Type*}

-- `skip` counts the elements of the current match still to be dropped
def deleteFrom (matchLen : List α → ℕ) : ℕ → List α → List α
  | _, [] => []
  | skip + 1, _ :: s => deleteFrom matchLen skip s
  | 0, c :: s =>
      match matchLen (c :: s) with
      | 0 => c :: deleteFrom matchLen 0 s
      | n + 1 => deleteFrom matchLen n s

def deleteMatches (matchLen : List α → ℕ) (s : List α) : List α :=
  deleteFrom matchLen 0 s

/-! ## 1. Equations of the pass -/

@[simp] theorem deleteMatches_nil (matchLen : List α → ℕ) : deleteMatches matchLen [] = [] := rfl

theorem deleteFrom_eq_drop (matchLen : List α → ℕ) (skip : ℕ) (s : List α) :
    deleteFrom matchLen skip s = deleteMatches matchLen (s.drop skip) := by
  induction skip generalizing s with
  | zero => rfl
  | succ skip ih =>
    cases s with
    | nil => rfl
    | cons c s => exact ih s

theorem deleteMatches_keep {matchLen : List α → ℕ} {c : α} {s : List α}
    (h : matchLen (c :: s) = 0) :
    deleteMatches matchLen (c :: s) = c :: deleteMatches matchLen s := by
  simp only [deleteMatches, deleteFrom, h]

theorem deleteMatches_match {matchLen : List α → ℕ} {c : α} {s : List α}
    (h : matchLen (c :: s) ≠ 0) :
    deleteMatches matchLen (c :: s) =
      deleteMatches matchLen ((c :: s).drop (matchLen (c :: s))) := by
  obtain ⟨n, hn⟩ := Nat.exists_eq_succ_of_ne_zero h
  rw [hn, List.drop_succ_cons, ← deleteFrom_eq_drop]
  simp only [deleteMatches, deleteFrom, hn]

/-! ## 2. Induction along the pass -/

/-- To prove a property of every sequence, follow the pass: an element is kept, or a match is
dropped. -/
theorem deleteMatches_induct (matchLen : List α → ℕ) {P : List α → Prop} (nil : P [])
    (keep : ∀ c s, matchLen (c :: s) = 0 → P s → P (c :: s))
    (drop : ∀ c s, matchLen (c :: s) ≠ 0 → P ((c :: s).drop (matchLen (c :: s))) → P (c :: s))
    (s : List α) : P s := by
  induction hn : s.length using Nat.strong_induction_on generalizing s with
  | _ n ih =>
    cases s with
    | nil => exact nil
    | cons c s =>
      by_cases hm : matchLen (c :: s) = 0
      · exact keep c s hm (ih s.length (by simp [← hn]) s rfl)
      · -- a match is not empty, so the sequence behind it is shorter
        apply drop c s hm
        apply ih _ _ _ rfl
        rw [← hn, List.length_drop]
        simp only [List.length_cons]
        omega

theorem deleteMatches_sublist (matchLen : List α → ℕ) (s : List α) :
    (deleteMatches matchLen s).Sublist s := by
  induction s using deleteMatches_induct matchLen with
  | nil => exact List.Sublist.slnil
  | keep c s hm ih => rw [deleteMatches_keep hm]; exact ih.cons_cons c
  | drop c s hm ih => rw [deleteMatches_match hm]; exact ih.trans (List.drop_sublist _ _)

/-- The pass leaves a sequence alone exactly when nothing matches anywhere in it. -/
theorem deleteMatches_eq_self_iff {matchLen : List α → ℕ} {s : List α} :
    deleteMatches matchLen s = s ↔ ∀ t, t <:+ s → t ≠ [] → matchLen t = 0 := by
  induction s with
  | nil => exact iff_of_true rfl fun t ht hne => absurd (List.suffix_nil.mp ht) hne
  | cons c s ih =>
    by_cases hm : matchLen (c :: s) = 0
    · rw [deleteMatches_keep hm, List.cons_inj_right, ih]
      constructor
      · intro h t ht hne
        rcases List.suffix_cons_iff.mp ht with rfl | ht
        · exact hm
        · exact h t ht hne
      · intro h t ht hne
        exact h t (ht.trans (List.suffix_cons c s)) hne
    · -- what is dropped makes the result shorter
      apply iff_of_false
      · intro heq
        have hle := (deleteMatches_sublist matchLen ((c :: s).drop (matchLen (c :: s)))).length_le
        rw [← deleteMatches_match hm, heq, List.length_drop] at hle
        simp only [List.length_cons] at hle
        omega
      · intro h
        exact hm (h _ List.suffix_rfl (List.cons_ne_nil c s))

/-! ## 3. Literal patterns -/

variable [DecidableEq α]

def literal (pattern s : List α) : ℕ :=
  if pattern.isPrefixOf s then pattern.length else 0

theorem literal_append (pattern s : List α) : literal pattern (pattern ++ s) = pattern.length := by
  simp [literal]

theorem deleteMatches_literal_append {pattern : List α} (hne : pattern ≠ []) (s : List α) :
    deleteMatches (literal pattern) (pattern ++ s) = deleteMatches (literal pattern) s := by
  obtain ⟨c, p, rfl⟩ := List.exists_cons_of_ne_nil hne
  have hlen := literal_append (c :: p) s
  rw [List.cons_append] at hlen ⊢
  rw [deleteMatches_match (by rw [hlen]; simp), hlen, ← List.cons_append, List.drop_left]

theorem literal_eq_zero_iff {pattern : List α} (hne : pattern ≠ []) (s : List α) :
    literal pattern s = 0 ↔ ¬ pattern <+: s := by
  unfold literal
  simp only [List.isPrefixOf_iff_prefix]
  split_ifs with hfront
  · simpa [hfront] using hne
  · simpa using hfront

theorem deleteMatches_literal_eq_self_iff {pattern : List α} (hne : pattern ≠ []) {s : List α} :
    deleteMatches (literal pattern) s = s ↔ ¬ pattern <:+: s := by
  rw [deleteMatches_eq_self_iff, List.infix_iff_prefix_suffix]
  simp only [literal_eq_zero_iff hne, not_exists, not_and]
  constructor
  · intro h t hfront hsuffix
    exact h t hsuffix (hfront.ne_nil hne) hfront
  · intro h t hsuffix _ hfront
    exact h t hfront hsuffix

theorem deleteMatches_literal_of_not_mem {pattern s : List α} {a : α} (ha : a ∈ pattern)
    (hs : a ∉ s) : deleteMatches (literal pattern) s = s :=
  -- an occurrence would bring `a` into the sequence
  (deleteMatches_literal_eq_self_iff (List.ne_nil_of_mem ha)).mpr fun h => hs (h.subset ha)

end Scan
