import UtilsRepo.Serialization.RoundTrip
import UtilsRepo.Serialization.Steps

/-!
# Names that `SerializationUtil` picks

Calls that leave the name to `idGenerator`, interleaved in any way.  The name is the time to the
millisecond and nothing else, and `createNewFile` is not asked whether the file was new: the files stay
apart as long as no two calls into one directory read the same time.
-/

namespace UtilsRepo.Serialization

open Fallible SerializationUtil

/-! ## 1. The generator -/

theorem ofDigitChars_padded (width n : ℕ) : Nat.ofDigitChars 10 (padded width n) 0 = n := by
  rw [padded, Nat.ofDigitChars_append, Nat.ofDigitChars_replicate_zero, Nat.mul_zero,
    Nat.ofDigitChars_ten_toDigits]

theorem padded_inj {width m n : ℕ} (h : padded width m = padded width n) : m = n := by
  have hm := ofDigitChars_padded width m
  rwa [h, ofDigitChars_padded, eq_comm] at hm

theorem length_padded {width n : ℕ} (hn : (Nat.toDigits 10 n).length ≤ width) :
    (padded width n).length = width := by
  rw [padded, List.length_append, List.length_replicate]
  omega

theorem length_toDigits_two {n : ℕ} (hn : n < 100) : (Nat.toDigits 10 n).length ≤ 2 :=
  (Nat.length_toDigits_le_iff (by decide) (by decide)).mpr hn

theorem length_toDigits_three {n : ℕ} (hn : n < 1000) : (Nat.toDigits 10 n).length ≤ 3 :=
  (Nat.length_toDigits_le_iff (by decide) (by decide)).mpr hn

/-- The last field can be cut off where it has its full width. -/
theorem append_padded_inj {s t : List Char} {width m n : ℕ}
    (hm : (Nat.toDigits 10 m).length ≤ width) (hn : (Nat.toDigits 10 n).length ≤ width)
    (h : s ++ padded width m = t ++ padded width n) : s = t ∧ m = n := by
  have hlen : (padded width m).length = (padded width n).length := by
    rw [length_padded hm, length_padded hn]
  obtain ⟨hst, hpad⟩ := List.append_inj' h hlen
  exact ⟨hst, padded_inj hpad⟩

/-- Different times have different names; only the year may have more digits than the pattern. -/
theorem idGenerator_inj {now now' : CivilTime} (h : idGenerator now = idGenerator now') :
    now = now' := by
  obtain ⟨year, month, day, hour, minute, second, millis, hmo, hd, hh, hmi, hs, hms⟩ := now
  obtain ⟨year', month', day', hour', minute', second', millis', hmo', hd', hh', hmi', hs', hms'⟩ :=
    now'
  simp only [idGenerator] at h
  -- from the last field to the first
  obtain ⟨h, hmillis⟩ :=
    append_padded_inj (length_toDigits_three hms) (length_toDigits_three hms') h
  obtain ⟨h, hsecond⟩ :=
    append_padded_inj (length_toDigits_two (by omega)) (length_toDigits_two (by omega)) h
  obtain ⟨h, hminute⟩ :=
    append_padded_inj (length_toDigits_two (by omega)) (length_toDigits_two (by omega)) h
  obtain ⟨h, hhour⟩ :=
    append_padded_inj (length_toDigits_two (by omega)) (length_toDigits_two (by omega)) h
  obtain ⟨h, hday⟩ :=
    append_padded_inj (length_toDigits_two (by omega)) (length_toDigits_two (by omega)) h
  obtain ⟨h, hmonth⟩ :=
    append_padded_inj (length_toDigits_two (by omega)) (length_toDigits_two (by omega)) h
  have hyear := padded_inj h
  simp only [hyear, hmonth, hday, hhour, hminute, hsecond, hmillis]

theorem generatedName_inj {now now' : CivilTime} (h : generatedName now = generatedName now') :
    now = now' :=
  idGenerator_inj (List.append_cancel_right h)

/-! ## 2. The calls -/

/-- How a call leaves the name of the file to `SerializationUtil`. -/
inductive Request where
  -- `serializeObj(obj)`
  | here
  -- `serializeObj(obj, null)`
  | null
  -- `serializeObj(obj, name)`, where the name may be empty
  | directory (name : List Char) (undotted : '.' ∉ name)

/-- The argument `createFile` gets. -/
def Request.filePath (now : CivilTime) : Request → Option (List Char)
  | here => some (FOLDER_NM ++ idGenerator now ++ EXTENSION_NM)
  | null => none
  | directory name _ => some name

/-- The directory below the folder that the file is made in.  Without a path argument the folder is put
in front twice. -/
def Request.names (p : Platform) : Request → List Name
  | here => [serializationName, tmpName]
  | null => []
  | directory name _ => Path.components p.isSeparator name

/-- A call and the time it reads. -/
structure Job (Obj : Type) where
  request : Request
  now : CivilTime
  obj : Obj

variable {Obj : Type}

def Job.call (p : Platform) (streams : ObjectStreams Obj) (job : Job Obj) :
    Steps.Call (List Char) :=
  Steps.serializeObj p streams job.now job.obj (job.request.filePath job.now)

theorem Job.alone_here (p : Platform) (streams : ObjectStreams Obj) (now : CivilTime) (obj : Obj)
    (disk : Disk) :
    ((Job.mk .here now obj).call p streams).alone disk =
      eval (serializeObjHere p streams now obj) disk :=
  Steps.alone_serializeObj ..

/-- The paths returned are pairwise distinct, and each can be read back as the object stored by the call
that returned it. -/
def Unclobbered {ι : Type} (p : Platform) (streams : ObjectStreams Obj) (jobs : ι → Job Obj)
    (state : (ι → Steps.Call (List Char)) × Disk) : Prop :=
  ∀ i path, (state.1 i).result = some (.ok path) →
    eval (deserializeObj p streams path) state.2 = (.ok (jobs i).obj, state.2) ∧
      ∀ j, (state.1 j).result = some (.ok path) → j = i

/-! ## 3. Where the files are made -/

/-- Without a path argument the folder is put in front of a path that has it already. -/
theorem outputPath_here (now : CivilTime) :
    outputPath now (Request.here.filePath now) =
      FOLDER_NM ++ (FOLDER_NM ++ generatedName now) := by
  have hsanitize : sanitize (FOLDER_NM ++ idGenerator now ++ EXTENSION_NM) =
      FOLDER_NM ++ generatedName now := by
    rw [List.append_assoc, sanitize_append_of_undotted (by decide)]
    exact congrArg (FOLDER_NM ++ ·) (sanitize_generatedName now)
  have hdot : '.' ∈ FOLDER_NM ++ generatedName now :=
    List.mem_append_right _ (List.mem_append_right _ (by decide))
  change storagePath now (sanitize (FOLDER_NM ++ idGenerator now ++ EXTENSION_NM)) = _
  rw [hsanitize, storagePath_of_dotted now hdot]

theorem canonical_outputPath (p : Platform) (request : Request) (now : CivilTime) (disk : Disk) :
    JavaFile.canonical p disk (outputPath now (request.filePath now)) =
      folder disk ++ request.names p ++ [generatedName now] := by
  have hplain : JavaFile.canonical p disk (FOLDER_NM ++ idGenerator now ++ EXTENSION_NM) =
      folder disk ++ [] ++ [generatedName now] := by
    have hcomponents : Path.components p.isSeparator ([] ++ generatedName now) =
        [] ++ [generatedName now] := by
      simp only [List.nil_append, components_generatedName]
    have hcanonical := canonical_generated p disk [] hcomponents (by simp)
    rw [List.nil_append] at hcanonical
    rw [List.append_assoc]
    exact hcanonical
  cases request with
  | here =>
    rw [outputPath_here]
    apply canonical_generated p disk FOLDER_NM
    · rw [components_folder, components_generatedName]
      rfl
    · intro name hname
      rcases List.mem_cons.mp hname with rfl | hname
      · exact ordinary_of_undotted (by decide)
      · rw [List.mem_singleton.mp hname]
        exact ordinary_of_undotted (by decide)
  | null => exact hplain
  | directory name undotted =>
    cases name with
    | nil => exact hplain
    | cons c cs =>
      change JavaFile.canonical p disk (storagePath now (sanitize (c :: cs))) = _
      rw [sanitize_of_undotted undotted]
      exact canonical_storagePath_of_undotted p disk now undotted

/-! ## 4. Runs -/

/-- Whatever the schedule, files are not lost as long as no two calls into one directory read the same
time. -/
theorem unclobbered_of_apart (p : Platform) (streams : ObjectStreams Obj) {ι : Type} [DecidableEq ι]
    (jobs : ι → Job Obj) (hobj : ∀ i, streams.Lossless (jobs i).obj)
    (hapart : ∀ i j, i ≠ j → (jobs i).request.names p = (jobs j).request.names p →
      (jobs i).now ≠ (jobs j).now) (disk : Disk) (schedule : List ι) :
    Unclobbered p streams jobs
      (Process.run (fun i => (jobs i).call p streams) disk schedule) := by
  let path i := outputPath (jobs i).now ((jobs i).request.filePath (jobs i).now)
  let loc i := JavaFile.canonical p disk (path i)
  have hloc : ∀ i j, i ≠ j → loc i ≠ loc j := by
    intro i j hij heq
    simp only [loc, path, canonical_outputPath, List.append_assoc] at heq
    obtain ⟨hnames, hname⟩ := List.append_inj' (List.append_cancel_left heq) (by simp)
    exact hapart i j hij hnames (generatedName_inj (List.singleton_inj.mp hname))
  -- each call is safe as long as the others write at other locations, and they do
  have hsafe := Process.safe_run (R := fun i => FileTree.Keeps (loc i))
    (G := fun i => FileTree.WritesAt (loc i)) (fun _ _ _ _ h h' => h.trans h')
    (fun i => FileTree.Keeps.refl (loc i)) (fun i j hij _ _ h => h.keeps (hloc i j hij))
    (fun i => Steps.safe_serializeObj p streams (jobs i).now (jobs i).obj
      ((jobs i).request.filePath (jobs i).now) disk) schedule
  have hreturned : ∀ i r, ((Process.run (fun i => (jobs i).call p streams) disk schedule).1 i).result =
      some (.ok r) → _ := fun i r hr => (hsafe i).of_result (FileTree.Keeps.refl (loc i)) hr
  intro i r hr
  obtain ⟨rfl, hholds⟩ := hreturned i r hr
  constructor
  · obtain ⟨bytes, hwrite, hread⟩ := hobj i
    rw [hwrite] at hholds
    exact hholds.deserializeObj streams hread
  · intro j hj
    obtain ⟨heq, -⟩ := hreturned j _ hj
    by_contra hji
    exact hloc j i hji (congrArg (JavaFile.canonical p disk) heq.symm)

-- two calls without a path, one stores `[0]` and one `[1]`
def two (now now' : CivilTime) : Bool → Job (List UInt8)
  | false => ⟨.null, now, [0]⟩
  | true => ⟨.null, now', [1]⟩

def CivilTime.afterEpoch : CivilTime :=
  { CivilTime.epoch with millis := 1, millis_lt := by decide }

/-- Two calls that take turns, step by step, both return. -/
theorem unclobbered_next_millisecond :
    (∀ i, ((Process.run (fun i => (two .epoch .afterEpoch i).call .posix byteStreams) FileTree.root
        (List.replicate 7 [false, true]).flatten).1 i).result =
      some (.ok (FOLDER_NM ++ generatedName (two .epoch .afterEpoch i).now))) ∧
      Unclobbered .posix byteStreams (two .epoch .afterEpoch)
        (Process.run (fun i => (two .epoch .afterEpoch i).call .posix byteStreams) FileTree.root
          (List.replicate 7 [false, true]).flatten) := by
  constructor
  · decide +kernel
  · apply unclobbered_of_apart .posix byteStreams (two .epoch .afterEpoch)
    · rintro (_ | _) <;> exact byteStreams_lossless _
    · have hne : CivilTime.epoch ≠ .afterEpoch := fun h =>
        absurd (congrArg CivilTime.millis h) (by decide)
      rintro (_ | _) (_ | _) hij _
      · exact absurd rfl hij
      · exact hne
      · exact hne.symm
      · exact absurd rfl hij

/-- Within one millisecond the second call overwrites the file of the first, one after the other. -/
theorem clobbered_same_millisecond :
    ¬ Unclobbered .posix byteStreams (two .epoch .epoch)
      (Process.run (fun i => (two .epoch .epoch i).call .posix byteStreams) FileTree.root
        (List.replicate 7 false ++ List.replicate 7 true)) := by
  intro h
  have hpaths : ∀ i, ((Process.run (fun i => (two .epoch .epoch i).call .posix byteStreams)
      FileTree.root (List.replicate 7 false ++ List.replicate 7 true)).1 i).result =
      some (.ok (FOLDER_NM ++ generatedName .epoch)) := by
    decide
  have hsame := (h false _ (hpaths false)).2 true (hpaths true)
  cases hsame

end UtilsRepo.Serialization
