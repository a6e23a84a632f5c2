import Mathlib.Computability.RegularExpressions
import UtilsRepo.Lib.Scan

/-!
# Regular expressions matched by backtracking

The matches of a regular expression at the front of a sequence, in the order a backtracking matcher
comes to them: the left of two alternatives goes first, and a repetition takes as much as it can.
-/

namespace Regex

open Computability

variable {α : Type*}

/-! ## 1. The matcher -/

-- `P+`
def oneOrMore (P : RegularExpression α) : RegularExpression α :=
  P * P.star

/-- The lengths matched by a repetition, those of one round given; `fuel` bounds the rounds. -/
def starLengths (round : List α → List ℕ) : ℕ → List α → List ℕ
  | 0, _ => [0]
  | fuel + 1, s =>
      ((round s).flatMap fun n =>
        -- a round that takes nothing is the last
        if n = 0 then [0] else (starLengths round fuel (s.drop n)).map (n + ·)) ++ [0]

section Matcher

variable [DecidableEq α]

def matchLengths : RegularExpression α → List α → List ℕ
  | .zero, _ => []
  | .epsilon, _ => [0]
  | .char a, s => if s.head? = some a then [1] else []
  | .plus P Q, s => matchLengths P s ++ matchLengths Q s
  | .comp P Q, s => (matchLengths P s).flatMap fun n => (matchLengths Q (s.drop n)).map (n + ·)
  | .star P, s => starLengths (matchLengths P) s.length s

/-- The length of the match found at the front; `0` also where there is none. -/
def matchLength (P : RegularExpression α) (s : List α) : ℕ :=
  (matchLengths P s).headD 0

-- `s.replaceAll(P, "")`
def deleteAll (P : RegularExpression α) (s : List α) : List α :=
  Scan.deleteMatches (matchLength P) s

end Matcher

/-! ## 2. Words at the front of a sequence -/

/-- A word of the language stands at the front, `n` long. -/
def Front (l : Language α) (s : List α) (n : ℕ) : Prop :=
  ∃ w ∈ l, w <+: s ∧ w.length = n

variable {l m : Language α} {s : List α} {n : ℕ}

theorem not_front_zero : ¬ Front 0 s n :=
  fun ⟨_, hw, _⟩ => hw

theorem front_one : Front 1 s n ↔ n = 0 := by
  constructor
  · rintro ⟨w, rfl, -, rfl⟩
    rfl
  · rintro rfl
    exact ⟨[], Language.nil_mem_one, List.nil_prefix, rfl⟩

theorem front_char {a : α} : Front {[a]} s n ↔ s.head? = some a ∧ n = 1 := by
  constructor
  · rintro ⟨w, rfl, ⟨back, rfl⟩, rfl⟩
    exact ⟨rfl, rfl⟩
  · rintro ⟨hhead, rfl⟩
    obtain ⟨back, rfl⟩ := List.head?_eq_some_iff.mp hhead
    exact ⟨[a], rfl, ⟨back, rfl⟩, rfl⟩

theorem front_add : Front (l + m) s n ↔ Front l s n ∨ Front m s n := by
  simp only [Front, Language.mem_add, or_and_right, exists_or]

theorem front_mul : Front (l * m) s n ↔
    ∃ i, Front l s i ∧ ∃ j, Front m (s.drop i) j ∧ i + j = n := by
  constructor
  · rintro ⟨w, hw, ⟨back, rfl⟩, rfl⟩
    obtain ⟨u, hu, v, hv, rfl⟩ := Language.mem_mul.mp hw
    refine ⟨u.length, ⟨u, hu, ⟨v ++ back, by simp⟩, rfl⟩, v.length, ⟨v, hv, ?_, rfl⟩, by simp⟩
    rw [List.append_assoc, List.drop_left]
    exact List.prefix_append v back
  · rintro ⟨i, ⟨u, hu, ⟨back, rfl⟩, rfl⟩, j, ⟨v, hv, hback, rfl⟩, rfl⟩
    rw [List.drop_left] at hback
    exact ⟨u ++ v, Language.append_mem_mul hu hv, (List.prefix_append_right_inj u).mpr hback,
      List.length_append⟩

theorem front_kstar : Front l∗ s n ↔
    n = 0 ∨ ∃ i, Front l s i ∧ i ≠ 0 ∧ ∃ j, Front l∗ (s.drop i) j ∧ i + j = n := by
  constructor
  · rintro ⟨w, hw, hfront, rfl⟩
    obtain ⟨words, rfl, hwords⟩ := Language.mem_kstar_iff_exists_nonempty.mp hw
    cases words with
    | nil => exact .inl rfl
    | cons u words =>
      right
      obtain ⟨back, rfl⟩ := hfront
      obtain ⟨hu, hne⟩ := hwords u List.mem_cons_self
      have hrest : words.flatten ∈ l∗ :=
        Language.join_mem_kstar fun v hv => (hwords v (List.mem_cons_of_mem u hv)).1
      refine ⟨u.length, ⟨u, hu, ⟨words.flatten ++ back, by simp⟩, rfl⟩,
        mt List.length_eq_zero_iff.mp hne, words.flatten.length, ⟨_, hrest, ?_, rfl⟩, by simp⟩
      rw [List.flatten_cons, List.append_assoc, List.drop_left]
      exact List.prefix_append _ back
  · rintro (rfl | ⟨i, hi, -, j, hj, rfl⟩)
    · exact ⟨[], Language.nil_mem_kstar l, List.nil_prefix, rfl⟩
    · -- one word more is still a repetition
      have hmul : l * l∗ ≤ l∗ := mul_kstar_le_kstar
      obtain ⟨w, hw, hfront, hlen⟩ := front_mul.mpr ⟨i, hi, j, hj, rfl⟩
      exact ⟨w, hmul hw, hfront, hlen⟩

/-! ## 3. Runs of one element -/

theorem mem_kstar_char {a : α} {w : List α} :
    w ∈ ({[a]} : Language α)∗ ↔ ∃ k, w = List.replicate k a := by
  constructor
  · rintro ⟨words, rfl, hwords⟩
    refine ⟨words.length, ?_⟩
    rw [List.eq_replicate_of_mem hwords, List.flatten_replicate_singleton, List.length_replicate]
  · rintro ⟨k, rfl⟩
    refine ⟨List.replicate k [a], List.flatten_replicate_singleton.symm, ?_⟩
    intro y hy
    exact (List.mem_replicate.mp hy).2

theorem front_oneOrMore_char {a : α} :
    Front (oneOrMore (.char a)).matches' s n ↔ n ≠ 0 ∧ List.replicate n a <+: s := by
  rw [oneOrMore, RegularExpression.matches'_mul, RegularExpression.matches'_star,
    RegularExpression.matches'_char]
  constructor
  · rintro ⟨w, hw, hfront, rfl⟩
    obtain ⟨u, rfl, v, hv, rfl⟩ := Language.mem_mul.mp hw
    obtain ⟨k, rfl⟩ := mem_kstar_char.mp hv
    have hrun : [a] ++ List.replicate k a = List.replicate (k + 1) a := rfl
    rw [hrun, List.length_replicate]
    rw [hrun] at hfront
    exact ⟨k.succ_ne_zero, hfront⟩
  · rintro ⟨hne, hfront⟩
    obtain ⟨k, rfl⟩ := Nat.exists_eq_succ_of_ne_zero hne
    have hmem : [a] ++ List.replicate k a ∈ ({[a]} : Language α) * {[a]}∗ :=
      Language.append_mem_mul rfl (mem_kstar_char.mpr ⟨k, rfl⟩)
    exact ⟨List.replicate (k + 1) a, hmem, hfront, List.length_replicate⟩

/-! ## 4. What the matcher finds -/

/-- A repetition finds exactly the lengths of its words, where a round does. -/
theorem mem_starLengths {round : List α → List ℕ} (h : ∀ s n, n ∈ round s ↔ Front l s n) {fuel : ℕ}
    (hfuel : s.length ≤ fuel) : n ∈ starLengths round fuel s ↔ Front l∗ s n := by
  induction fuel generalizing s n with
  | zero =>
    -- nothing is left to match
    obtain rfl := List.length_eq_zero_iff.mp (Nat.le_zero.mp hfuel)
    constructor
    · intro hn
      exact front_kstar.mpr (.inl (List.mem_singleton.mp hn))
    · rintro ⟨w, -, hfront, rfl⟩
      rw [List.prefix_nil.mp hfront]
      exact List.mem_singleton_self 0
  | succ fuel ih =>
    have hround : ∀ i ≠ 0, ∀ j, j ∈ starLengths round fuel (s.drop i) ↔ Front l∗ (s.drop i) j := by
      intro i hi j
      apply ih
      rw [List.length_drop]
      omega
    rw [front_kstar, starLengths, List.mem_append, List.mem_singleton, List.mem_flatMap, or_comm]
    constructor
    · rintro (rfl | ⟨i, hi, hn⟩)
      · exact .inl rfl
      · split at hn
        · exact .inl (List.mem_singleton.mp hn)
        · rename_i hne
          obtain ⟨j, hj, rfl⟩ := List.mem_map.mp hn
          exact .inr ⟨i, (h s i).mp hi, hne, j, (hround i hne j).mp hj, rfl⟩
    · rintro (rfl | ⟨i, hi, hne, j, hj, rfl⟩)
      · exact .inl rfl
      · refine .inr ⟨i, (h s i).mpr hi, ?_⟩
        rw [if_neg hne]
        exact List.mem_map_of_mem ((hround i hne j).mpr hj)

variable [DecidableEq α]

/-- The matcher comes to every match. -/
theorem mem_matchLengths {P : RegularExpression α} :
    n ∈ matchLengths P s ↔ Front P.matches' s n := by
  induction P generalizing s n with
  | zero => exact iff_of_false List.not_mem_nil not_front_zero
  | epsilon => exact List.mem_singleton.trans front_one.symm
  | char a =>
    rw [matchLengths, RegularExpression.matches'_char, front_char]
    split
    · rename_i hhead
      rw [List.mem_singleton, and_iff_right hhead]
    · rename_i hhead
      exact iff_of_false List.not_mem_nil fun h => hhead h.1
  | plus P Q ihP ihQ =>
    rw [matchLengths, RegularExpression.plus_def, RegularExpression.matches'_add, front_add,
      List.mem_append, ihP, ihQ]
  | comp P Q ihP ihQ =>
    rw [matchLengths, RegularExpression.comp_def, RegularExpression.matches'_mul, front_mul]
    simp only [List.mem_flatMap, List.mem_map, ihP, ihQ]
  | star P ih =>
    rw [matchLengths, RegularExpression.matches'_star]
    exact mem_starLengths (fun _ _ => ih) le_rfl

/-- Where there is one match at most, the order of the matches is of no account. -/
theorem matchLength_eq {P : RegularExpression α}
    (h : ∀ m, Front P.matches' s m ↔ m = n ∧ n ≠ 0) : matchLength P s = n := by
  have hmem : ∀ m, m ∈ matchLengths P s ↔ m = n ∧ n ≠ 0 :=
    fun m => mem_matchLengths.trans (h m)
  unfold matchLength
  cases hfound : matchLengths P s with
  | nil =>
    -- there is no match
    rw [hfound] at hmem
    by_contra hne
    exact List.not_mem_nil ((hmem n).mpr ⟨rfl, Ne.symm hne⟩)
  | cons m rest =>
    rw [hfound] at hmem
    exact ((hmem m).mp List.mem_cons_self).1

end Regex
