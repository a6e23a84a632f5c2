import UtilsRepo.Serialization.SerializationUtil

/-!
# What the sanitised path looks like

One pass of `replaceAll` leaves no dot in front of a separator, so that `.` and `..` can only be the
last name of a path.
-/

namespace UtilsRepo.Serialization

open Fallible SerializationUtil

/-! ## 1. The regular expression -/

theorem dotsAndSeparator_of_ne_dot {c : Char} (hc : c ≠ '.') (s : List Char) :
    dotsAndSeparator (c :: s) = 0 := by
  simp [dotsAndSeparator, hc]

theorem takeWhile_dot_cons (s : List Char) :
    ('.' :: s).takeWhile (· == '.') = '.' :: s.takeWhile (· == '.') := by
  simp

theorem dotsAndSeparator_dot_sep {c : Char} (hc : c = '/' ∨ c = '\\') (s : List Char) :
    dotsAndSeparator ('.' :: c :: s) = 2 := by
  rcases hc with rfl | rfl <;> simp [dotsAndSeparator]

theorem dotsAndSeparator_dot_cons {c : Char} (hc : ¬ (c = '/' ∨ c = '\\')) (s : List Char) :
    dotsAndSeparator ('.' :: c :: s) =
      if dotsAndSeparator (c :: s) = 0 then 0 else dotsAndSeparator (c :: s) + 1 := by
  by_cases hdot : c = '.'
  · subst hdot
    unfold dotsAndSeparator
    simp only [takeWhile_dot_cons, List.length_cons, Nat.add_one_ne_zero, if_false,
      List.drop_succ_cons]
    split
    · split <;> rfl
    · rfl
  · rw [dotsAndSeparator_of_ne_dot hdot]
    simp [dotsAndSeparator, hdot, hc]

/-- A dot that is not matched is followed by no separator: neither is the dot after it. -/
theorem dotsAndSeparator_of_cons_dot {s : List Char} (h : dotsAndSeparator ('.' :: s) = 0) :
    dotsAndSeparator s = 0 ∧ ∀ c ∈ s.head?, c ≠ '/' ∧ c ≠ '\\' := by
  cases s with
  | nil => exact ⟨rfl, by simp⟩
  | cons c s =>
    by_cases hc : c = '/' ∨ c = '\\'
    · rw [dotsAndSeparator_dot_sep hc] at h
      cases h
    · rw [dotsAndSeparator_dot_cons hc] at h
      exact ⟨by simpa using h, by simpa [not_or] using hc⟩

/-- What is matched: dots, at least one, and a separator. -/
theorem exists_of_dotsAndSeparator {s : List Char} (h : dotsAndSeparator s ≠ 0) :
    ∃ dots sep rest, s = List.replicate dots '.' ++ '.' :: sep :: rest ∧ (sep = '/' ∨ sep = '\\') ∧
      s.drop (dotsAndSeparator s) = rest := by
  induction s with
  | nil => exact absurd rfl h
  | cons c s ih =>
    have hc : c = '.' := by
      by_contra hne
      exact h (dotsAndSeparator_of_ne_dot hne s)
    subst hc
    cases s with
    | nil => exact absurd (by decide) h
    | cons d s =>
      by_cases hd : d = '/' ∨ d = '\\'
      · exact ⟨0, d, s, rfl, hd, by rw [dotsAndSeparator_dot_sep hd]; rfl⟩
      · rw [dotsAndSeparator_dot_cons hd] at h ⊢
        split at h
        · exact absurd rfl h
        · rename_i hs
          obtain ⟨dots, sep, rest, heq, hsep, hdrop⟩ := ih hs
          refine ⟨dots + 1, sep, rest, ?_, hsep, ?_⟩
          · rw [heq]
            rfl
          · rwa [if_neg hs, List.drop_succ_cons]

theorem head_sanitize_of_unmatched {s : List Char} (h : dotsAndSeparator s = 0)
    (hhead : ∀ c ∈ s.head?, c ≠ '/' ∧ c ≠ '\\') :
    ∀ c ∈ (sanitize s).head?, c ≠ '/' ∧ c ≠ '\\' := by
  cases s with
  | nil => simp [sanitize]
  | cons d s =>
    rw [sanitize, Scan.deleteMatches_keep h]
    simpa using hhead

theorem isChain_sanitize (s : List Char) :
    (sanitize s).IsChain fun a b => b = '/' ∨ b = '\\' → a ≠ '.' := by
  induction s using Scan.deleteMatches_induct dotsAndSeparator with
  | nil => exact List.IsChain.nil
  | keep c s hm ih =>
    -- a dot that is kept has no separator behind it, and none moves up behind it
    rw [sanitize, Scan.deleteMatches_keep hm]
    refine List.isChain_cons.mpr ⟨fun b hb hsep hc => ?_, ih⟩
    subst hc
    obtain ⟨hs, hhead⟩ := dotsAndSeparator_of_cons_dot hm
    obtain ⟨h1, h2⟩ := head_sanitize_of_unmatched hs hhead b hb
    exact hsep.elim h1 h2
  | drop c s hm ih =>
    rw [sanitize, Scan.deleteMatches_match hm]
    exact ih

theorem sanitize_append_of_undotted {s : List Char} (hs : '.' ∉ s) (t : List Char) :
    sanitize (s ++ t) = s ++ sanitize t := by
  induction s with
  | nil => rfl
  | cons c s ih =>
    rw [List.mem_cons, not_or] at hs
    have hkeep := Scan.deleteMatches_keep (dotsAndSeparator_of_ne_dot (Ne.symm hs.1) (s ++ t))
    have ih := ih hs.2
    unfold sanitize at ih ⊢
    rw [List.cons_append, hkeep, ih, List.cons_append]

theorem sanitize_of_undotted {s : List Char} (hs : '.' ∉ s) : sanitize s = s := by
  have h := sanitize_append_of_undotted hs []
  rwa [List.append_nil, show sanitize [] = [] from rfl, List.append_nil] at h

/-- A dot with a separator right behind it. -/
def DotBeforeSeparator (s : List Char) : Prop :=
  ['.', '/'] <:+: s ∨ ['.', '\\'] <:+: s

theorem dotBeforeSeparator_iff (s : List Char) :
    DotBeforeSeparator s ↔ ∃ t, t <:+ s ∧ dotsAndSeparator t ≠ 0 := by
  constructor
  · have hmatched : ∀ sep, (sep = '/' ∨ sep = '\\') → ['.', sep] <:+: s →
        ∃ t, t <:+ s ∧ dotsAndSeparator t ≠ 0 := by
      rintro sep hsep ⟨front, back, rfl⟩
      refine ⟨'.' :: sep :: back, ⟨front, by simp⟩, ?_⟩
      rw [dotsAndSeparator_dot_sep hsep]
      decide
    rintro (h | h)
    · exact hmatched '/' (.inl rfl) h
    · exact hmatched '\\' (.inr rfl) h
  · rintro ⟨t, ht, hm⟩
    obtain ⟨dots, sep, rest, rfl, hsep, -⟩ := exists_of_dotsAndSeparator hm
    have hinfix : ['.', sep] <:+: s :=
      List.IsInfix.trans ⟨List.replicate dots '.', rest, by simp⟩ ht.isInfix
    rcases hsep with rfl | rfl
    · exact .inl hinfix
    · exact .inr hinfix

theorem sanitize_eq_self_iff {s : List Char} : sanitize s = s ↔ ¬ DotBeforeSeparator s := by
  rw [sanitize, Scan.deleteMatches_eq_self_iff, dotBeforeSeparator_iff]
  constructor
  · rintro h ⟨t, ht, hm⟩
    exact hm (h t ht (by rintro rfl; exact hm rfl))
  · intro h t ht _
    by_contra hm
    exact h ⟨t, ht, hm⟩

theorem mem_sanitize {s : List Char} {a : Char} (hdot : a ≠ '.') (hsep : a ≠ '/' ∧ a ≠ '\\')
    (h : a ∈ s) : a ∈ sanitize s := by
  induction s using Scan.deleteMatches_induct dotsAndSeparator with
  | nil => exact h
  | keep c s hm ih =>
    rw [sanitize, Scan.deleteMatches_keep hm]
    exact (List.mem_cons.mp h).elim (fun hc => hc ▸ List.mem_cons_self) fun h =>
      List.mem_cons_of_mem c (ih h)
  | drop c s hm ih =>
    rw [sanitize, Scan.deleteMatches_match hm]
    apply ih
    obtain ⟨dots, sep, rest, heq, hc, hdrop⟩ := exists_of_dotsAndSeparator hm
    rw [hdrop]
    -- it is neither one of the dots nor the separator behind them
    have hne : a ≠ sep := by rcases hc with rfl | rfl <;> simp [hsep]
    rw [heq] at h
    simpa [hdot, hne, List.mem_replicate] using h

/-- Where something is deleted, a dot is. -/
theorem count_dot_sanitize (s : List Char) :
    sanitize s = s ∨ (sanitize s).count '.' < s.count '.' := by
  induction s using Scan.deleteMatches_induct dotsAndSeparator with
  | nil => exact .inl rfl
  | keep c s hm ih =>
    unfold sanitize at ih ⊢
    rw [Scan.deleteMatches_keep hm, List.cons_inj_right, List.count_cons, List.count_cons]
    exact ih.imp_right fun h => by omega
  | drop c s hm ih =>
    right
    obtain ⟨dots, sep, rest, heq, -, hdrop⟩ := exists_of_dotsAndSeparator hm
    have hle := (Scan.deleteMatches_sublist dotsAndSeparator rest).count_le '.'
    rw [sanitize, Scan.deleteMatches_match hm, hdrop, heq, List.count_append, List.count_cons_self]
    have hcons := List.count_le_count_cons (a := '.') (b := sep) (l := rest)
    omega

theorem eq_of_isSeparator {p : Platform} {c : Char} (h : p.isSeparator c) : c = '/' ∨ c = '\\' := by
  cases p
  · exact .inl (by simpa [Platform.isSeparator] using h)
  · simpa [Platform.isSeparator] using h

def sanitized : Option (List Char) → List Char
  | none => []
  | some filePath => sanitize filePath

theorem lastSeparator_eq_some {s : List Char} {index : ℕ} (h : lastSeparator s = some index) :
    ∃ c, (c = '/' ∨ c = '\\') ∧ s = s.take index ++ c :: s.drop (index + 1) := by
  unfold lastSeparator at h
  split at h
  case h_1 i hi =>
    cases h
    exact ⟨'/', .inl rfl, (Path.lastIndexOf_eq_some hi).1⟩
  case h_2 => exact ⟨'\\', .inr rfl, (Path.lastIndexOf_eq_some h).1⟩

/-! ## 2. Names -/

-- neither `.` nor `..`
def Ordinary (name : Name) : Prop := step name = .down name

instance : DecidablePred Ordinary := fun name =>
  inferInstanceAs (Decidable (step name = .down name))

theorem ordinary_of_getLast {name : Name} (h : ∀ a ∈ name.getLast?, a ≠ '.') : Ordinary name := by
  unfold Ordinary step
  by_cases h1 : name = ['.']
  · subst h1
    exact absurd rfl (h '.' rfl)
  by_cases h2 : name = ['.', '.']
  · subst h2
    exact absurd rfl (h '.' rfl)
  simp only [h1, h2, if_false]

theorem ordinary_of_undotted {name : Name} (h : '.' ∉ name) : Ordinary name :=
  ordinary_of_getLast fun _ ha hdot => h (hdot ▸ List.mem_of_getLast? ha)

theorem ordinary_components_of_undotted {sep : Char → Bool} {s : List Char} (h : '.' ∉ s) :
    ∀ name ∈ Path.components sep s, Ordinary name :=
  fun _ hname => ordinary_of_undotted fun hdot => h (Path.mem_of_mem_components hname hdot)

theorem eq_dotdot_of_step {name : Name} (h : step name = .up) : name = ['.', '.'] := by
  unfold step at h
  split at h
  · cases h
  · split at h
    · assumption
    · cases h

theorem map_step_of_ordinary {names : List Name} (h : ∀ name ∈ names, Ordinary name) :
    names.map step = names.map .down :=
  List.map_congr_left h

variable (p : Platform)

theorem ordinary_of_sanitize_eq {s front back : List Char} {c : Char} (hc : c = '/' ∨ c = '\\')
    (h : sanitize s = front ++ c :: back) :
    ∀ name ∈ Path.components p.isSeparator front, Ordinary name := by
  intro name hname
  have hchain := isChain_sanitize s
  rw [h, show front ++ c :: back = (front ++ [c]) ++ back by simp] at hchain
  apply ordinary_of_getLast
  intro a ha
  exact Path.getLast_components_of_isChain (H := fun b => b = '/' ∨ b = '\\')
    (fun _ => eq_of_isSeparator) hc (List.isChain_append.mp hchain).1 name hname a ha

/-- All names of a sanitised path but the last are ordinary. -/
theorem components_sanitize (s : List Char) :
    ∃ names last, Path.components p.isSeparator (sanitize s) = names ++ last ∧ last.length ≤ 1 ∧
      ∀ name ∈ names, Ordinary name := by
  rcases Path.exists_last_part p.isSeparator (sanitize s) with hs | ⟨init, c, last, he, hc, hlast⟩
  · refine ⟨[], Path.components p.isSeparator (sanitize s), rfl, ?_, by simp⟩
    by_cases hne : sanitize s = []
    · rw [hne]; simp
    · rw [Path.components_of_no_sep hs hne]; simp
  · refine ⟨Path.components p.isSeparator init, Path.components p.isSeparator last, ?_, ?_,
      ordinary_of_sanitize_eq p (eq_of_isSeparator hc) he⟩
    · rw [he, Path.components_append_sep _ _ hc]
    · by_cases hne : last = []
      · rw [hne]; simp
      · rw [Path.components_of_no_sep hlast hne]; simp

/-! ## 3. Paths in the folder -/

def serializationName : Name := "serialization".toList

def tmpName : Name := "tmp".toList

def folder (disk : Disk) : List Name :=
  disk.cwd ++ [serializationName, tmpName]

theorem folder_concat (disk : Disk) :
    folder disk = disk.cwd ++ [serializationName] ++ [tmpName] := by
  rw [folder, List.append_assoc]
  rfl

theorem dropLast_folder (disk : Disk) : (folder disk).dropLast = disk.cwd ++ [serializationName] := by
  rw [folder_concat, List.dropLast_concat]

theorem folder_mkdirs (disk : Disk) (loc : List Name) : folder (disk.mkdirs loc) = folder disk := by
  rw [folder, FileTree.mkdirs, FileTree.cwd_mkdirsFrom]
  rfl

theorem folder_nm_eq : FOLDER_NM = serializationName ++ '/' :: (tmpName ++ ['/']) := by
  decide

theorem isSeparator_slash : p.isSeparator '/' = true := by
  cases p <;> rfl

theorem components_folder (x : List Char) :
    Path.components p.isSeparator (FOLDER_NM ++ x) =
      serializationName :: tmpName :: Path.components p.isSeparator x := by
  have hser : Path.components p.isSeparator serializationName = [serializationName] := by
    cases p <;> decide
  have htmp : Path.components p.isSeparator tmpName = [tmpName] := by
    cases p <;> decide
  have happ : FOLDER_NM ++ x = serializationName ++ '/' :: (tmpName ++ '/' :: x) := by
    rw [folder_nm_eq]
    simp
  rw [happ, Path.components_append_sep _ _ (isSeparator_slash p),
    Path.components_append_sep _ _ (isSeparator_slash p), hser, htmp]
  rfl

theorem steps_folder (x : List Char) :
    JavaFile.steps p (FOLDER_NM ++ x) =
      .down serializationName :: .down tmpName :: JavaFile.steps p x := by
  rw [JavaFile.steps, components_folder]
  rfl

theorem start_folder (disk : Disk) (x : List Char) :
    JavaFile.start p disk (FOLDER_NM ++ x) = disk.cwd := by
  have hhead : (FOLDER_NM ++ x).head? = some 's' := rfl
  rw [JavaFile.start, hhead]
  cases p <;> rfl

theorem canonical_folder (disk : Disk) (x : List Char) :
    JavaFile.canonical p disk (FOLDER_NM ++ x) =
      FileTree.lexical (folder disk) (JavaFile.steps p x) := by
  rw [JavaFile.canonical, start_folder, steps_folder]
  simp only [FileTree.lexical, folder, List.append_assoc]
  rfl

theorem eq_canonical_of_resolve {disk : Disk} {path : List Char} {loc : List Name}
    (h : JavaFile.resolve p disk path = some loc) : loc = JavaFile.canonical p disk path := by
  unfold JavaFile.resolve at h
  split at h
  · cases h
  · cases p with
    | posix => exact (FileTree.lexical_of_walk h).symm
    | windows => exact (Option.some.inj h).symm

theorem canonical_of_ordinary (disk : Disk) {x : List Char}
    (hx : ∀ name ∈ Path.components p.isSeparator x, Ordinary name) :
    JavaFile.canonical p disk (FOLDER_NM ++ x) =
      folder disk ++ Path.components p.isSeparator x := by
  rw [canonical_folder, JavaFile.steps, map_step_of_ordinary hx, FileTree.lexical_downs]

theorem canonical_folder_nm (p : Platform) (disk : Disk) :
    JavaFile.canonical p disk FOLDER_NM = folder disk := by
  have h := canonical_of_ordinary p disk (x := []) (by simp)
  rwa [List.append_nil, Path.components_nil, List.append_nil] at h

theorem nul_notMem_folder {x : List Char} (hnul : '\x00' ∉ x) : '\x00' ∉ FOLDER_NM ++ x := by
  intro hmem
  rcases List.mem_append.mp hmem with hmem | hmem
  · exact absurd hmem (by decide)
  · exact hnul hmem

/-! ## 4. Generated names -/

theorem isDigit_of_mem_idGenerator {now : CivilTime} {c : Char} (h : c ∈ idGenerator now) :
    c.isDigit := by
  have hpadded : ∀ {width n : ℕ}, c ∈ padded width n → c.isDigit := by
    intro width n hc
    rcases List.mem_append.mp hc with hc | hc
    · rw [(List.mem_replicate.mp hc).2]
      rfl
    · exact Nat.isDigit_of_mem_toDigits (by decide) (by decide) hc
  simp only [idGenerator, List.mem_append] at h
  rcases h with (((((h | h) | h) | h) | h) | h) | h <;> exact hpadded h

def generatedName (now : CivilTime) : Name :=
  idGenerator now ++ EXTENSION_NM

theorem generatedName_char {now : CivilTime} {c : Char} (h : c ∈ generatedName now) :
    p.isSeparator c = false ∧ c ≠ '\x00' := by
  rcases List.mem_append.mp h with h | h
  · have hd := isDigit_of_mem_idGenerator h
    constructor
    · by_contra hsep
      rw [Bool.not_eq_false] at hsep
      rcases eq_of_isSeparator hsep with rfl | rfl <;> exact absurd hd (by decide)
    · rintro rfl
      exact absurd hd (by decide)
  · have hall : EXTENSION_NM.all (fun c => !p.isSeparator c && c != '\x00') = true := by
      cases p <;> decide
    simpa using List.all_eq_true.mp hall c h

theorem generatedName_ne_nil (now : CivilTime) : generatedName now ≠ [] := by
  intro h
  have hnil := (List.append_eq_nil_iff.mp h).2
  exact absurd hnil (by decide)

theorem nul_notMem_generated (now : CivilTime) {s : List Char} (h : '\x00' ∉ s) :
    '\x00' ∉ s ++ '/' :: generatedName now := by
  rw [List.mem_append, List.mem_cons, not_or, not_or]
  exact ⟨h, by decide, fun hmem => (generatedName_char .posix hmem).2 rfl⟩

theorem components_generatedName (now : CivilTime) :
    Path.components p.isSeparator (generatedName now) = [generatedName now] :=
  Path.components_of_no_sep (fun _ hc => (generatedName_char p hc).1) (generatedName_ne_nil now)

theorem ordinary_generatedName (now : CivilTime) : Ordinary (generatedName now) := by
  apply ordinary_of_getLast
  intro a ha
  have hlast : (generatedName now).getLast? = some 'r' := by
    rw [generatedName, List.getLast?_append_of_ne_nil _ (by decide)]
    rfl
  rw [hlast] at ha
  cases ha
  decide

theorem undotted_idGenerator (now : CivilTime) : '.' ∉ idGenerator now :=
  fun h => absurd (isDigit_of_mem_idGenerator h) (by decide)

theorem sanitize_generatedName (now : CivilTime) : sanitize (generatedName now) = generatedName now := by
  rw [generatedName, sanitize_append_of_undotted (undotted_idGenerator now),
    show sanitize EXTENSION_NM = EXTENSION_NM by decide]

-- case2 of `createFile`
theorem storagePath_of_dotted (now : CivilTime) {s : List Char} (h : '.' ∈ s) :
    storagePath now s = FOLDER_NM ++ s :=
  if_pos h

-- case3 of `createFile`
theorem storagePath_of_undotted (now : CivilTime) {s : List Char} (h : '.' ∉ s) :
    storagePath now s = FOLDER_NM ++ (s ++ '/' :: generatedName now) := by
  rw [storagePath, if_neg h]
  simp [generatedName]

theorem canonical_generated (disk : Disk) (front : List Char) {names : List Name} {now : CivilTime}
    (hfront : Path.components p.isSeparator (front ++ generatedName now) =
      names ++ [generatedName now]) (hnames : ∀ name ∈ names, Ordinary name) :
    JavaFile.canonical p disk (FOLDER_NM ++ (front ++ generatedName now)) =
      folder disk ++ names ++ [generatedName now] := by
  rw [canonical_of_ordinary, hfront, List.append_assoc]
  intro name hname
  rw [hfront, List.mem_append, List.mem_singleton] at hname
  rcases hname with hname | rfl
  · exact hnames name hname
  · exact ordinary_generatedName now

/-- A path without a dot is a directory, in which the name generated is the last. -/
theorem canonical_storagePath_of_undotted (disk : Disk) (now : CivilTime) {s : List Char}
    (h : '.' ∉ s) :
    JavaFile.canonical p disk (storagePath now s) =
      folder disk ++ Path.components p.isSeparator s ++ [generatedName now] := by
  have happ : s ++ '/' :: generatedName now = (s ++ ['/']) ++ generatedName now := by simp
  rw [storagePath_of_undotted now h, happ]
  apply canonical_generated p disk (s ++ ['/'])
  · rw [← happ, Path.components_append_sep _ _ (isSeparator_slash p), components_generatedName]
  · exact ordinary_components_of_undotted h

/-! ## 5. Making a folder -/

/-- `makeFolder` leaves the disk alone, or makes the directories of the path. -/
theorem eval_makeFolder (p : Platform) (disk : Disk) (target : List Char) :
    ∃ disk', eval (makeFolder p target) disk = (.ok (), disk') ∧
      (disk' = disk ∧ ('\x00' ∈ target ∨ (disk.node (JavaFile.canonical p disk target)).isSome) ∨
        '\x00' ∉ target ∧ disk' = disk.mkdirs (JavaFile.canonical p disk target)) := by
  have hpresent : eval (JavaFile.present p target) disk =
      (.ok ((JavaFile.resolve p disk target).any fun loc => (disk.node loc).isSome), disk) := rfl
  rw [makeFolder, eval_bind_ok _ hpresent]
  cases hany : (JavaFile.resolve p disk target).any fun loc => (disk.node loc).isSome with
  | true =>
    -- the path resolves to something, and it resolves to its canonical location or not at all
    refine ⟨disk, rfl, .inl ⟨rfl, .inr ?_⟩⟩
    obtain ⟨loc, hloc, hsome⟩ := (Option.any_eq_true ..).mp hany
    rwa [← eq_canonical_of_resolve p hloc]
  | false =>
    change ∃ disk', eval (JavaFile.mkdirs p target) disk = (.ok (), disk') ∧ _
    by_cases hnul : '\x00' ∈ target
    · exact ⟨disk, by simp [JavaFile.mkdirs, hnul], .inl ⟨rfl, .inl hnul⟩⟩
    · exact ⟨_, by simp [JavaFile.mkdirs, hnul], .inr ⟨hnul, rfl⟩⟩

end UtilsRepo.Serialization
