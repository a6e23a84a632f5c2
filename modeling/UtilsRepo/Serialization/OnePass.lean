import UtilsRepo.Lib.Regex
import UtilsRepo.Serialization.Sanitize

/-!
# One pass is enough

The regular expression of `createFile` matches in one way at most, and deleting its matches brings no
new one together: a dot is kept only where no separator follows the dots.
-/

namespace UtilsRepo.Serialization

open SerializationUtil

/-! ## 1. The regular expression -/

-- `[\.]+/|[\.]+\\`
def dotsThenSeparator : RegularExpression Char :=
  Regex.oneOrMore (.char '.') * .char '/' + Regex.oneOrMore (.char '.') * .char '\\'

theorem dotsAndSeparator_run (dots : ℕ) {sep : Char} (hsep : sep = '/' ∨ sep = '\\')
    (rest : List Char) :
    dotsAndSeparator (List.replicate dots '.' ++ '.' :: sep :: rest) = dots + 2 := by
  induction dots with
  | zero => exact dotsAndSeparator_dot_sep hsep rest
  | succ dots ih =>
    -- one dot more, and a dot behind it
    obtain ⟨t, ht⟩ : ∃ t, List.replicate dots '.' ++ '.' :: sep :: rest = '.' :: t := by
      cases dots <;> exact ⟨_, rfl⟩
    rw [List.replicate_succ, List.cons_append, ht, dotsAndSeparator_dot_cons (by decide), ← ht, ih,
      if_neg (Nat.succ_ne_zero _)]

theorem front_run {sep : Char} {s : List Char} {n : ℕ} :
    Regex.Front (Regex.oneOrMore (.char '.') * .char sep).matches' s n ↔
      ∃ dots rest, s = List.replicate dots '.' ++ '.' :: sep :: rest ∧ n = dots + 2 := by
  -- the dots, counted with the last one or without it
  have hrun : ∀ dots rest, List.replicate dots '.' ++ '.' :: sep :: rest =
      List.replicate (dots + 1) '.' ++ sep :: rest := by
    intro dots rest
    rw [List.replicate_succ', List.append_assoc]
    rfl
  rw [RegularExpression.matches'_mul, RegularExpression.matches'_char, Regex.front_mul]
  simp only [Regex.front_oneOrMore_char, Regex.front_char]
  constructor
  · rintro ⟨i, ⟨hi, back, rfl⟩, j, ⟨hhead, rfl⟩, rfl⟩
    obtain ⟨dots, rfl⟩ := Nat.exists_eq_succ_of_ne_zero hi
    rw [List.drop_left' List.length_replicate] at hhead
    obtain ⟨rest, rfl⟩ := List.head?_eq_some_iff.mp hhead
    exact ⟨dots, rest, (hrun dots rest).symm, rfl⟩
  · rintro ⟨dots, rest, rfl, rfl⟩
    rw [hrun]
    refine ⟨dots + 1, ⟨dots.succ_ne_zero, List.prefix_append _ _⟩, 1, ⟨?_, rfl⟩, rfl⟩
    rw [List.drop_left' List.length_replicate]
    rfl

/-- Either alternative matches a whole run of dots and the separator behind it, and nothing else. -/
theorem front_dotsThenSeparator {s : List Char} {n : ℕ} :
    Regex.Front dotsThenSeparator.matches' s n ↔
      n = dotsAndSeparator s ∧ dotsAndSeparator s ≠ 0 := by
  rw [dotsThenSeparator, RegularExpression.matches'_add, Regex.front_add, front_run, front_run]
  constructor
  · have hrun : ∀ sep, (sep = '/' ∨ sep = '\\') →
        (∃ dots rest, s = List.replicate dots '.' ++ '.' :: sep :: rest ∧ n = dots + 2) →
        n = dotsAndSeparator s ∧ dotsAndSeparator s ≠ 0 := by
      rintro sep hsep ⟨dots, rest, rfl, rfl⟩
      rw [dotsAndSeparator_run dots hsep]
      exact ⟨rfl, Nat.succ_ne_zero _⟩
    rintro (h | h)
    · exact hrun '/' (.inl rfl) h
    · exact hrun '\\' (.inr rfl) h
  · rintro ⟨rfl, hmatched⟩
    obtain ⟨dots, sep, rest, heq, hsep, -⟩ := exists_of_dotsAndSeparator hmatched
    have hlen : dotsAndSeparator s = dots + 2 := by rw [heq, dotsAndSeparator_run dots hsep]
    rcases hsep with rfl | rfl
    · exact .inl ⟨dots, rest, heq, hlen⟩
    · exact .inr ⟨dots, rest, heq, hlen⟩

theorem matchLength_dotsThenSeparator (s : List Char) :
    Regex.matchLength dotsThenSeparator s = dotsAndSeparator s :=
  Regex.matchLength_eq fun _ => front_dotsThenSeparator

/-- `sanitize` is the `replaceAll` of `createFile`, matched as regular expressions are. -/
theorem sanitize_eq_deleteAll (s : List Char) :
    sanitize s = Regex.deleteAll dotsThenSeparator s := by
  have hmatch : Regex.matchLength dotsThenSeparator = dotsAndSeparator :=
    funext matchLength_dotsThenSeparator
  rw [Regex.deleteAll, hmatch]
  rfl

/-! ## 2. What is left -/

theorem not_dotBeforeSeparator_sanitize (s : List Char) : ¬ DotBeforeSeparator (sanitize s) := by
  have hpair : ∀ sep, (sep = '/' ∨ sep = '\\') → ¬ ['.', sep] <:+: sanitize s := by
    rintro sep hsep ⟨front, back, heq⟩
    have hchain := isChain_sanitize s
    rw [← heq] at hchain
    have hdot := (List.isChain_append.mp (List.isChain_append.mp hchain).1).2.1
    exact List.isChain_pair.mp hdot hsep rfl
  rintro (h | h)
  · exact hpair '/' (.inl rfl) h
  · exact hpair '\\' (.inr rfl) h

/-- A name with a separator behind it does not end in a dot. -/
theorem getLast_names_sanitize (p : Platform) (s : List Char) :
    ∀ name ∈ ((sanitize s).splitOnP p.isSeparator).dropLast, name.getLast? ≠ some '.' := by
  intro name hname hlast
  exact Path.getLast_dropLast_splitOnP_of_isChain (H := fun b => b = '/' ∨ b = '\\')
    (fun _ => eq_of_isSeparator) (isChain_sanitize s) name hname '.' hlast rfl

theorem sanitize_sanitize (s : List Char) : sanitize (sanitize s) = sanitize s :=
  sanitize_eq_self_iff.mpr (not_dotBeforeSeparator_sanitize s)

/-- One pass of the regular expression is enough: it leaves no dot in front of a separator, no name
but the last ends in a dot, and a second pass finds nothing. -/
theorem one_pass_suffices (s : List Char) :
    Regex.deleteAll dotsThenSeparator s = sanitize s ∧
      ¬ DotBeforeSeparator (sanitize s) ∧
      (∀ p : Platform, ∀ name ∈ ((sanitize s).splitOnP p.isSeparator).dropLast,
        name.getLast? ≠ some '.') ∧
      Regex.deleteAll dotsThenSeparator (sanitize s) = sanitize s :=
  ⟨(sanitize_eq_deleteAll s).symm, not_dotBeforeSeparator_sanitize s,
    fun p => getLast_names_sanitize p s,
    (sanitize_eq_deleteAll (sanitize s)).symm.trans (sanitize_sanitize s)⟩

-- with `../` alone taken out, the rest would be `../a`
example : sanitize "....//a".toList = "/a".toList := by decide

end UtilsRepo.Serialization
