import Mathlib.Data.List.Flatten
import UtilsRepo.Serialization.Confinement
import UtilsRepo.Serialization.RoundTrip
import UtilsRepo.Serialization.Steps

/-!
# Paths that need no sanitising

A path to a file without `.` and `..` in it means the same file before and after `createFile`, exactly
when the regular expression finds nothing in it: a name that ends in a dot, inside the path, is found.
-/

namespace UtilsRepo.Serialization

open Fallible SerializationUtil

/-- A path that names a file, without `.` and `..`. -/
structure NamesFile (p : Platform) (filePath : List Char) : Prop where
  dot : '.' ∈ filePath
  file : ∀ c ∈ filePath.getLast?, p.isSeparator c = false
  ordinary : ∀ name ∈ Path.components p.isSeparator filePath, Ordinary name

-- both paths lead to the same location
def SameFile (p : Platform) (disk : Disk) (path path' : List Char) : Prop :=
  JavaFile.canonical p disk path = JavaFile.canonical p disk path'

/-- The path in the folder means what the path given means there: it is the file made, and what is read
from it is what was stored.  Where nothing is in the way of the file it is made. -/
structure Kept (p : Platform) (filePath : List Char) : Prop where
  made : ∀ disk now path disk', eval (createFile p now (some filePath)) disk = (.ok path, disk') →
    SameFile p disk path (FOLDER_NM ++ filePath)
  read : ∀ {Obj : Type} (streams : ObjectStreams Obj) (obj : Obj), streams.Lossless obj →
    ∀ disk now path disk', eval (serializeObj p streams now obj (some filePath)) disk =
      (.ok path, disk') →
    eval (deserializeObj p streams (FOLDER_NM ++ filePath)) disk' = (.ok obj, disk')
  stored : p = .posix → '\x00' ∉ filePath → ∀ {Obj : Type} (streams : ObjectStreams Obj) (obj : Obj),
    streams.Lossless obj → ∀ disk, Fresh disk → ∀ now,
      RoundTrips p streams now obj (some filePath) disk

/-- Paths to different files are not given the same file. -/
def KeptApart (p : Platform) (filePath filePath' : List Char) : Prop :=
  ∀ disk, ¬ SameFile p disk (FOLDER_NM ++ filePath) (FOLDER_NM ++ filePath') →
    ∀ now path disk₁, eval (createFile p now (some filePath)) disk = (.ok path, disk₁) →
      ∀ now' path' disk₂, eval (createFile p now' (some filePath')) disk₁ = (.ok path', disk₂) →
        ¬ SameFile p disk path path'

/-- No file has the path, or nothing in it is found by the regular expression. -/
def Harmless (filePath : List Char) : Prop :=
  '\x00' ∈ filePath ∨ ¬ DotBeforeSeparator filePath

/-! ## 1. The file that is made -/

section Made

variable {p : Platform} {filePath : List Char} {now : CivilTime}

theorem outputPath_of_mem {c : Char} (h : c ∈ filePath) :
    outputPath now (some filePath) = storagePath now (sanitize filePath) := by
  cases filePath with
  | nil => cases h
  | cons d ds => rfl

theorem outputPath_of_sanitize (hfile : NamesFile p filePath) (h : sanitize filePath = filePath) :
    outputPath now (some filePath) = FOLDER_NM ++ filePath := by
  rw [outputPath_of_mem hfile.dot, h, storagePath, if_pos hfile.dot]

theorem count_dot_components (s : List Char) :
    (Path.components p.isSeparator s).flatten.count '.' = s.count '.' := by
  rw [Path.flatten_components, List.count_filter]
  cases p <;> rfl

/-- A location read lexically has no more names than the path. -/
theorem lexical_sublist (loc names : List Name) :
    (FileTree.lexical loc (names.map step)).Sublist (loc ++ names) := by
  induction names generalizing loc with
  | nil => exact (List.append_nil loc).symm ▸ List.Sublist.refl loc
  | cons name names ih =>
    rw [List.map_cons, step]
    split_ifs
    · exact (ih loc).trans ((List.sublist_cons_self name names).append_left loc)
    · exact (ih loc.dropLast).trans
        ((List.dropLast_sublist loc).append (List.sublist_cons_self name names))
    · have h := ih (loc ++ [name])
      rwa [List.append_assoc] at h

-- case2 of `createFile`: the location has the dots of the sanitised path, or fewer
theorem not_sameFile_of_dot (hfile : NamesFile p filePath) (h : sanitize filePath ≠ filePath)
    (disk : Disk) :
    ¬ SameFile p disk (FOLDER_NM ++ sanitize filePath) (FOLDER_NM ++ filePath) := by
  intro hsame
  have hsub := lexical_sublist (folder disk) (Path.components p.isSeparator (sanitize filePath))
  rw [← JavaFile.steps, ← canonical_folder, hsame, canonical_of_ordinary p disk hfile.ordinary,
    List.append_sublist_append_left] at hsub
  have hcount := hsub.flatten.count_le '.'
  rw [count_dot_components, count_dot_components] at hcount
  have hless := (count_dot_sanitize filePath).resolve_left h
  omega

-- case3: the last name of the path would have to be the one generated
theorem not_sameFile_of_no_dot (hfile : NamesFile p filePath) (h : '.' ∉ sanitize filePath)
    (disk : Disk) :
    ¬ SameFile p disk (storagePath now (sanitize filePath)) (FOLDER_NM ++ filePath) := by
  intro hsame
  rw [SameFile, canonical_storagePath_of_undotted p disk now h,
    canonical_of_ordinary p disk hfile.ordinary, List.append_assoc, List.append_cancel_left_eq]
    at hsame
  obtain ⟨front, heq⟩ := Path.suffix_of_components hsame.symm hfile.file
  -- the only dot of the path is the one in the name
  have hcount := congrArg (fun names => names.flatten.count '.') hsame
  simp only [List.flatten_append, List.count_append, List.flatten_singleton,
    count_dot_components] at hcount
  rw [List.count_eq_zero.mpr h, ← heq, List.count_append] at hcount
  have hfront : '.' ∉ front := by
    rw [← List.count_eq_zero]
    omega
  have hkept : sanitize filePath = filePath := by
    rw [← heq, sanitize_append_of_undotted hfront, sanitize_generatedName]
  rw [hkept] at h
  exact h hfile.dot

/-- `createFile` comes to making the file, where what has been there still is. -/
theorem eval_createFile (p : Platform) (now : CivilTime) {c : Char} (hc : c ∈ filePath)
    (disk : Disk) :
    ∃ disk', (∀ loc, FileTree.Keeps loc disk disk') ∧
      eval (createFile p now (some filePath)) disk = eval (do
        let _ ← JavaFile.createNewFile p (storagePath now (sanitize filePath))
        return storagePath now (sanitize filePath)) disk' := by
  cases filePath with
  | nil => cases hc
  | cons d ds =>
    obtain ⟨disk₁, heval₁, hcwd₁, -, hnode₁⟩ := eval_makeFolder_frame p disk FOLDER_NM
    obtain ⟨disk₂, heval₂, hcwd₂, -, hnode₂⟩ :=
      eval_makePathFolder_frame p disk₁ (sanitize (d :: ds))
    have hkeeps : ∀ l n, disk.node l = some n → disk₂.node l = some n := by
      intro l n hn
      have h₁ := hnode₁ l (by rw [hn]; rfl)
      rw [hn] at h₁
      rw [hnode₂ l (by rw [h₁]; rfl), h₁]
    refine ⟨disk₂, fun loc => ⟨hcwd₂.trans hcwd₁, fun l => hkeeps l _, fun _ => hkeeps loc _⟩, ?_⟩
    simp only [createFile, choosePath, bind_assoc, pure_bind]
    rw [eval_bind_ok _ heval₁, eval_bind_ok _ heval₂]

/-- With a NUL in the path there is no file that could be made. -/
theorem createFile_of_nul (p : Platform) (now : CivilTime) (hnul : '\x00' ∈ filePath)
    (disk : Disk) :
    ∃ e disk', eval (createFile p now (some filePath)) disk = (.error e, disk') := by
  obtain ⟨disk', -, heval⟩ := eval_createFile p now hnul disk
  have hmem : '\x00' ∈ storagePath now (sanitize filePath) := by
    have hsanitize := mem_sanitize (by decide) (by decide) hnul
    unfold storagePath
    split
    · exact List.mem_append_right _ hsanitize
    · simp [hsanitize]
  have hcreate : eval (JavaFile.createNewFile p (storagePath now (sanitize filePath))) disk' =
      (.error JavaFile.ioException, disk') := by
    have hresolve : JavaFile.resolve p disk' (storagePath now (sanitize filePath)) = none := by
      unfold JavaFile.resolve
      exact if_pos hmem
    rw [JavaFile.createNewFile, eval_ofStep, hresolve, Option.bind_none]
  exact ⟨_, _, heval.trans (eval_bind_error _ hcreate)⟩

end Made

/-! ## 2. A disk the file can be made on -/

section Reached

variable (p : Platform)

theorem resolve_of_walk {disk : Disk} {path : List Char} {loc : List Name} (hnul : '\x00' ∉ path)
    (h : disk.walk (JavaFile.start p disk path) (JavaFile.steps p path) = some loc) :
    JavaFile.resolve p disk path = some loc := by
  unfold JavaFile.resolve
  rw [if_neg hnul]
  cases p with
  | posix => exact h
  | windows => exact congrArg some (FileTree.lexical_of_walk h)

theorem node_root_mkdirs (loc : List Name) :
    ((FileTree.root : Disk).mkdirs loc).node loc = some .dir := by
  have h := (FileTree.root : Disk).node_mkdirs [] loc [] rfl fun pre _ hne =>
    .inr ⟨by simp [FileTree.root, hne], rfl⟩
  rwa [List.append_nil, List.nil_append] at h

/-- Whatever the last name of a path is, the path leads to a directory where all are made. -/
theorem exists_dir {x : List Char} (hnul : '\x00' ∉ x) {names last : List Name}
    (hx : Path.components p.isSeparator x = names ++ last) (hnames : ∀ name ∈ names, Ordinary name)
    (hlast : last.length ≤ 1) :
    ∃ disk : Disk, ∃ loc, JavaFile.resolve p disk (FOLDER_NM ++ x) = some loc ∧
      disk.node loc = some .dir := by
  have hsteps : JavaFile.steps p (FOLDER_NM ++ x) =
      (serializationName :: tmpName :: names).map .down ++ last.map step := by
    rw [steps_folder, JavaFile.steps, hx, List.map_append, map_step_of_ordinary hnames]
    rfl
  -- the walk, from the root of a disk where the directories are made
  have hwalk : ∀ made loc, ((FileTree.root : Disk).mkdirs made).walk []
      ((serializationName :: tmpName :: names).map .down ++ last.map step) = some loc →
      JavaFile.resolve p ((FileTree.root : Disk).mkdirs made) (FOLDER_NM ++ x) = some loc := by
    intro made loc h
    apply resolve_of_walk p (nul_notMem_folder hnul)
    rwa [start_folder, hsteps, FileTree.mkdirs, FileTree.cwd_mkdirsFrom]
  generalize serializationName :: tmpName :: names = base at hwalk
  have hbase := node_root_mkdirs base
  have hreach : ((FileTree.root : Disk).mkdirs base).walk [] (base.map .down) = some base :=
    FileTree.walk_dir hbase
  rcases last with _ | ⟨name, _ | ⟨other, rest⟩⟩
  · exact ⟨_, base, hwalk base base (by rwa [List.map_nil, List.append_nil]), hbase⟩
  · cases hstep : step name with
    | stay =>
      refine ⟨_, base, hwalk base base ?_, hbase⟩
      simp [FileTree.walk_append, hreach, hstep, FileTree.walk, FileTree.isDir, hbase]
    | up =>
      refine ⟨_, base.dropLast, hwalk base base.dropLast ?_, ?_⟩
      · simp [FileTree.walk_append, hreach, hstep, FileTree.walk, FileTree.isDir, hbase]
      · exact FileTree.node_dropLast _ hbase
    | down n =>
      have hdir := node_root_mkdirs (base ++ [n])
      refine ⟨_, base ++ [n], hwalk (base ++ [n]) (base ++ [n]) ?_, hdir⟩
      rw [List.map_singleton, hstep, ← List.map_singleton, ← List.map_append]
      exact FileTree.walk_dir hdir
  · exact absurd hlast (by simp)

theorem exists_createFile {filePath : List Char} {c : Char} (hc : c ∈ filePath)
    (hnul : '\x00' ∉ filePath) (now : CivilTime) :
    ∃ disk path disk', eval (createFile p now (some filePath)) disk = (.ok path, disk') := by
  have hnul' := nul_notMem_sanitize hnul
  obtain ⟨disk, loc, hresolve, hdir⟩ : ∃ disk : Disk, ∃ loc,
      JavaFile.resolve p disk (storagePath now (sanitize filePath)) = some loc ∧
        disk.node loc = some .dir := by
    by_cases hdot : '.' ∈ sanitize filePath
    · rw [storagePath_of_dotted now hdot]
      obtain ⟨names, last, hcomp, hlast, hord⟩ := components_sanitize p filePath
      exact exists_dir p hnul' hcomp hord hlast
    · have hcomp : Path.components p.isSeparator (sanitize filePath ++ '/' :: generatedName now) =
          Path.components p.isSeparator (sanitize filePath) ++ [generatedName now] := by
        rw [Path.components_append_sep _ _ (isSeparator_slash p), components_generatedName]
      rw [storagePath_of_undotted now hdot]
      exact exists_dir p (nul_notMem_generated now hnul') hcomp
        (ordinary_components_of_undotted hdot) le_rfl
  obtain ⟨disk', hkeeps, heval⟩ := eval_createFile p now hc disk
  have hcreate : eval (JavaFile.createNewFile p (storagePath now (sanitize filePath))) disk' =
      (.ok false, disk') := by
    rw [JavaFile.createNewFile, eval_ofStep, resolve_of_keeps (hkeeps loc) hresolve,
      Option.bind_some, FileTree.createNew_of_isSome (by rw [(hkeeps loc).dir loc hdir]; rfl)]
  exact ⟨disk, _, disk', heval.trans (eval_bind_ok _ hcreate)⟩

end Reached

/-! ## 3. Harmless paths -/

section Harmless

variable {p : Platform} {filePath filePath' : List Char}

theorem lastName_of_namesFile (hfile : NamesFile .posix filePath) :
    lastName filePath ∉ [[], ['.'], ['.', '.']] := by
  have hne : lastName filePath ≠ [] := by
    intro hnil
    rcases (lastName_eq_nil_iff filePath).mp hnil with rfl | hlast
    · exact absurd hfile.dot List.not_mem_nil
    · exact absurd (hfile.file '/' hlast) (by decide)
  obtain ⟨dirs, hlayout⟩ := exists_layout filePath
  have hord : Ordinary (lastName filePath) := by
    apply hfile.ordinary
    rw [hlayout.components, if_neg hne]
    simp
  simp only [List.mem_cons, List.not_mem_nil, or_false, not_or]
  refine ⟨hne, ?_, ?_⟩ <;> exact fun heq => absurd (heq ▸ hord) (by decide)

/-- On a fresh disk a harmless path without NUL is stored at. -/
theorem roundTrips_of_harmless {Obj : Type} (streams : ObjectStreams Obj) {obj : Obj}
    (hobj : streams.Lossless obj) (hfile : NamesFile .posix filePath) (hnul : '\x00' ∉ filePath)
    (h : Harmless filePath) {disk : Disk} (hdisk : Fresh disk) (now : CivilTime) :
    RoundTrips .posix streams now obj (some filePath) disk := by
  have hkept : sanitize filePath = filePath := sanitize_eq_self_iff.mpr (h.resolve_left hnul)
  obtain ⟨disk', hprep, hiff⟩ :=
    hdisk.roundTrips_iff_stored streams obj now (List.ne_nil_of_mem hfile.dot) hnul
  have hdotted := stored_dotted_iff streams hnul hprep hobj
  rw [hiff, hkept, storagePath_of_dotted now hfile.dot]
  rw [hkept] at hdotted
  exact hdotted.mpr (lastName_of_namesFile hfile)

theorem kept_of_harmless (hfile : NamesFile p filePath) (h : Harmless filePath) :
    Kept p filePath := by
  constructor
  · intro disk now path disk' heval
    rcases h with hnul | hdot
    · obtain ⟨e, _, herror⟩ := createFile_of_nul p now hnul disk
      rw [herror] at heval
      cases heval
    · rw [(outputPath_of_createFile heval).1,
        outputPath_of_sanitize hfile (sanitize_eq_self_iff.mpr hdot), SameFile]
  · intro Obj streams obj hobj disk now path disk' heval
    rcases h with hnul | hdot
    · obtain ⟨e, disk'', herror⟩ := createFile_of_nul p now hnul disk
      rw [serializeObj, eval_bind_error _ herror] at heval
      cases heval
    · obtain ⟨bytes, hwrite, hread⟩ := hobj
      obtain ⟨rfl, hback⟩ := deserializeObj_of_serializeObj heval hwrite hread
      rwa [outputPath_of_sanitize hfile (sanitize_eq_self_iff.mpr hdot)] at hback
  · rintro rfl hnul Obj streams obj hobj disk hdisk now
    exact roundTrips_of_harmless streams hobj hfile hnul h hdisk now

theorem harmless_of_kept (hfile : NamesFile p filePath) (h : Kept p filePath) :
    Harmless filePath := by
  by_contra hnot
  obtain ⟨hnul, hdot⟩ := not_or.mp hnot
  have hne : sanitize filePath ≠ filePath := fun heq => hdot (sanitize_eq_self_iff.mp heq)
  obtain ⟨disk, path, disk', heval⟩ := exists_createFile p hfile.dot hnul .epoch
  have hsame := h.made disk .epoch path disk' heval
  rw [(outputPath_of_createFile heval).1, outputPath_of_mem hfile.dot] at hsame
  by_cases hmem : '.' ∈ sanitize filePath
  · rw [storagePath_of_dotted _ hmem] at hsame
    exact not_sameFile_of_dot hfile hne disk hsame
  · exact not_sameFile_of_no_dot hfile hmem disk hsame

/-- Paths to files mean the same files in the folder, and stay apart, exactly when both are harmless. -/
theorem kept_iff_harmless (hfile : NamesFile p filePath) (hfile' : NamesFile p filePath') :
    Kept p filePath ∧ Kept p filePath' ∧ KeptApart p filePath filePath' ↔
      Harmless filePath ∧ Harmless filePath' := by
  constructor
  · rintro ⟨h, h', -⟩
    exact ⟨harmless_of_kept hfile h, harmless_of_kept hfile' h'⟩
  · rintro ⟨h, h'⟩
    have hkept := kept_of_harmless hfile h
    have hkept' := kept_of_harmless hfile' h'
    refine ⟨hkept, hkept', ?_⟩
    intro disk hne now path disk₁ heval now' path' disk₂ heval' hsame
    have hmade := hkept.made disk now path disk₁ heval
    have hmade' := hkept'.made disk₁ now' path' disk₂ heval'
    -- the first call has left the working directory alone
    have hcwd := (outputPath_of_createFile heval).2
    rw [SameFile, canonical_of_cwd hcwd, canonical_of_cwd hcwd] at hmade'
    exact hne (hmade.symm.trans (hsame.trans hmade'))

end Harmless

-- `list.ser`, the path of `SerializationUtil.main`
theorem kept_list_ser :
    Kept .posix "list.ser".toList ∧ Kept .posix "a/b.ser".toList ∧
        KeptApart .posix "list.ser".toList "a/b.ser".toList ↔
      Harmless "list.ser".toList ∧ Harmless "a/b.ser".toList :=
  kept_iff_harmless ⟨by decide, by rintro _ ⟨⟩; rfl, by decide⟩
    ⟨by decide, by rintro _ ⟨⟩; rfl, by decide⟩

/-- The file `b.ser` in the directory `a.` becomes the file `ab.ser`. -/
theorem not_kept_dotted_directory :
    NamesFile .posix "a./b.ser".toList ∧ ¬ Kept .posix "a./b.ser".toList := by
  refine ⟨⟨by decide, by rintro _ ⟨⟩; rfl, by decide⟩, fun h => ?_⟩
  have hpath : (eval (createFile .posix .epoch (some "a./b.ser".toList)) FileTree.root).1 =
      .ok "serialization/tmp/ab.ser".toList := by
    decide
  have hmade := h.made FileTree.root .epoch _ _ (Prod.ext hpath rfl)
  exact absurd hmade (by unfold SameFile; decide)

end UtilsRepo.Serialization
