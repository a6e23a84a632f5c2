import UtilsRepo.Serialization.Sanitize

/-!
# Storing and reading back

On POSIX, from a working directory without a `serialization` folder: for which paths an object is
stored in a regular file and read back.  Which folder is made depends on the last separator, which
file is made depends on whether there is a dot anywhere; the two agree on the paths `Storable` names.
-/

namespace UtilsRepo.Serialization

open Fallible SerializationUtil

/-- Java serialization of the object succeeds and is lossless. -/
def ObjectStreams.Lossless {Obj : Type} (streams : ObjectStreams Obj) (obj : Obj) : Prop :=
  ∃ bytes, streams.writeObject obj = (bytes, none) ∧ streams.readObject bytes = .ok obj

/-- A working directory without a `serialization` entry, where everything may be written. -/
structure Fresh (disk : Disk) : Prop where
  absent : disk.node (disk.cwd ++ [serializationName]) = none
  writable : ∀ loc, disk.readOnly loc = false

def lastName (filePath : List Char) : List Char :=
  match Path.lastIndexOf '/' filePath with
  | some index => filePath.drop (index + 1)
  | none => filePath

/-- The sanitised paths an object can be stored at: with a dot somewhere, the last name must be a name;
without one, all of the path must be a folder that is made. -/
def Storable (filePath : List Char) : Prop :=
  if '.' ∈ filePath then lastName filePath ∉ [[], ['.'], ['.', '.']]
  else filePath = [] ∨ filePath.getLast? = some '/'

/-- The object is stored in a regular file in an existing directory, under the path returned, and read
back from it. -/
def RoundTrips {Obj : Type} (p : Platform) (streams : ObjectStreams Obj) (now : CivilTime) (obj : Obj)
    (filePath : Option (List Char)) (disk : Disk) : Prop :=
  ∃ path disk', eval (serializeObj p streams now obj filePath) disk = (.ok path, disk') ∧
    (∃ loc name, JavaFile.resolve p disk' path = some (loc ++ [name]) ∧ disk'.isDir loc ∧
      disk'.isFile (loc ++ [name])) ∧
    eval (deserializeObj p streams path) disk' = (.ok obj, disk')

/-! ## 1. The folders that are made -/

/-- The folder and the directories `names` below it exist, and nothing else below it. -/
structure Prepared (disk : Disk) (names : List Name) : Prop where
  writable : ∀ loc, disk.readOnly loc = false
  dir : disk.node (folder disk ++ names) = some .dir
  absent : ∀ q, ¬ q <+: names → disk.node (folder disk ++ q) = none

theorem Fresh.absent_below {disk : Disk} (h : Fresh disk) (rest : List Name) :
    disk.node (disk.cwd ++ serializationName :: rest) = none := by
  have happ : disk.cwd ++ serializationName :: rest = disk.cwd ++ [serializationName] ++ rest := by
    simp
  rw [happ]
  by_cases hrest : rest = []
  · rw [hrest, List.append_nil, h.absent]
  · by_contra hne
    have hdir := disk.dir_of_append (disk.cwd ++ [serializationName]) hrest
      (Option.isSome_iff_ne_none.mpr hne)
    rw [h.absent] at hdir
    cases hdir

theorem Prepared.dir_of_prefix {disk : Disk} {names q : List Name} (h : Prepared disk names)
    (hq : q <+: names) : disk.node (folder disk ++ q) = some .dir := by
  obtain ⟨rest, rfl⟩ := hq
  by_cases hrest : rest = []
  · simpa [hrest] using h.dir
  · apply disk.dir_of_append _ hrest
    rw [List.append_assoc, h.dir]
    rfl

theorem Fresh.makeFolder {disk : Disk} (h : Fresh disk) (p : Platform) :
    ∃ disk', eval (makeFolder p FOLDER_NM) disk = (.ok (), disk') ∧ Prepared disk' [] := by
  obtain ⟨disk', heval, hcases⟩ := eval_makeFolder p disk FOLDER_NM
  rw [canonical_folder_nm] at hcases
  rcases hcases with ⟨-, hnul | hsome⟩ | ⟨-, rfl⟩
  · exact absurd hnul (by decide)
  · rw [folder, h.absent_below] at hsome
    cases hsome
  refine ⟨_, heval, ?_⟩
  have hfolder := folder_mkdirs disk (folder disk)
  have hdir := disk.node_mkdirs disk.cwd [serializationName, tmpName] [] disk.cwd_dir
    fun pre hpre hne => by
      obtain ⟨rest, rfl⟩ : ∃ rest, pre = serializationName :: rest := by
        cases pre with
        | nil => exact absurd rfl hne
        | cons n rest => exact ⟨rest, by rw [(List.cons_prefix_cons.mp hpre).1]⟩
      exact .inr ⟨h.absent_below rest, h.writable _⟩
  constructor
  · intro loc
    rw [FileTree.mkdirs, FileTree.readOnly_mkdirsFrom, h.writable]
  · rw [hfolder, List.append_nil]
    rwa [List.append_nil] at hdir
  · intro q hq
    rw [hfolder, FileTree.mkdirs, FileTree.node_mkdirsFrom_of_not_prefix, folder, List.append_assoc]
    · exact h.absent_below (tmpName :: q)
    · intro hpre
      have hlen := hpre.length_le
      have hne : q ≠ [] := fun h => hq (h ▸ List.nil_prefix)
      have := List.length_pos_iff.mpr hne
      simp only [List.length_append, List.length_nil] at hlen
      omega

theorem Prepared.makeFolder {disk : Disk} (h : Prepared disk []) (p : Platform) {x : List Char}
    (hnul : '\x00' ∉ x) (hx : ∀ name ∈ Path.components p.isSeparator x, Ordinary name) :
    ∃ disk', eval (SerializationUtil.makeFolder p (FOLDER_NM ++ x)) disk = (.ok (), disk') ∧
      Prepared disk' (Path.components p.isSeparator x) := by
  obtain ⟨disk', heval, hcases⟩ := eval_makeFolder p disk (FOLDER_NM ++ x)
  rw [canonical_of_ordinary p disk hx] at hcases
  have hnul' := nul_notMem_folder hnul
  refine ⟨disk', heval, ?_⟩
  generalize Path.components p.isSeparator x = names at hcases
  have hnil : ∀ q : List Name, ¬ q <+: names → ¬ q <+: [] := fun q hq hpre =>
    hq (List.prefix_nil.mp hpre ▸ List.nil_prefix)
  rcases hcases with ⟨rfl, hnul | hsome⟩ | ⟨-, rfl⟩
  · exact absurd hnul hnul'
  · have hnames : names <+: [] := by
      by_contra hpre
      rw [h.absent names hpre] at hsome
      cases hsome
    rwa [List.prefix_nil.mp hnames]
  have hfolder := folder_mkdirs disk (folder disk ++ names)
  constructor
  · intro loc
    rw [FileTree.mkdirs, FileTree.readOnly_mkdirsFrom, h.writable]
  · have hdir := disk.node_mkdirs (folder disk) names [] (by simpa using h.dir) fun pre _ hne =>
      .inr ⟨h.absent pre (fun hpre => hne (List.prefix_nil.mp hpre)), h.writable _⟩
    rw [hfolder]
    rwa [List.append_nil] at hdir
  · intro q hq
    rw [hfolder, FileTree.mkdirs, FileTree.node_mkdirsFrom_of_not_prefix]
    · exact h.absent q (hnil q hq)
    · rw [List.nil_append, List.prefix_append_right_inj]
      exact hq

/-! ## 2. The file that is made -/

section Store

variable {disk : Disk} {x : List Char}

theorem resolve_posix_folder (hnul : '\x00' ∉ x) :
    JavaFile.resolve .posix disk (FOLDER_NM ++ x) =
      disk.walk disk.cwd ([serializationName, tmpName].map .down ++ JavaFile.steps .posix x) := by
  rw [JavaFile.resolve, if_neg (nul_notMem_folder hnul)]
  simp only [start_folder, steps_folder]
  rfl

-- room for a file `name` in the directory `dir`
structure Site (disk : Disk) (cwd dir : List Name) (name : Name) : Prop where
  cwd : disk.cwd = cwd
  isDir : disk.node dir = some .dir
  notDir : disk.node (dir ++ [name]) ≠ some .dir
  writable : ∀ loc, disk.readOnly loc = false

namespace Site

variable {cwd dir : List Name} {name : Name}

theorem admits (h : Site disk cwd dir name) : disk.Admits (dir ++ [name]) :=
  FileTree.admits_concat h.isDir h.notDir

theorem place (h : Site disk cwd dir name) (content : List UInt8) (change : Change Name) :
    Site ((disk.place _ (.file content) h.admits).record change) cwd dir name where
  cwd := h.cwd
  isDir := by
    rw [FileTree.node_record, FileTree.node_place_of_ne]
    · exact h.isDir
    · exact fun heq => absurd (congrArg List.length heq) (by simp)
  notDir := by simp
  writable := h.writable

theorem resolve {names : List Name}
    (h : Site disk cwd (cwd ++ serializationName :: tmpName :: names) name) (hnul : '\x00' ∉ x)
    (hx : Path.components Platform.posix.isSeparator x = names ++ [name])
    (hord : ∀ n ∈ names ++ [name], Ordinary n) :
    JavaFile.resolve .posix disk (FOLDER_NM ++ x) =
      some (cwd ++ serializationName :: tmpName :: names ++ [name]) := by
  have hwalk := FileTree.walk_in_dir name h.isDir
  rw [resolve_posix_folder hnul, JavaFile.steps, hx, map_step_of_ordinary hord, ← List.map_append,
    h.cwd]
  exact hwalk

end Site

variable {Obj : Type} (streams : ObjectStreams Obj) {obj : Obj}

theorem store_at_site {cwd dir : List Name} {name : Name} (h : Site disk cwd dir name)
    (hnone : disk.node (dir ++ [name]) = none)
    (hresolve : ∀ disk', Site disk' cwd dir name →
      JavaFile.resolve .posix disk' x = some (dir ++ [name])) (hobj : streams.Lossless obj) :
    ∃ disk', eval (do
        let _ ← JavaFile.createNewFile .posix x
        serialize .posix streams obj x) disk = (.ok x, disk') ∧
      (∃ loc name, JavaFile.resolve .posix disk' x = some (loc ++ [name]) ∧
        disk'.isDir loc ∧ disk'.isFile (loc ++ [name])) ∧
      eval (deserializeObj .posix streams x) disk' = (.ok obj, disk') := by
  obtain ⟨bytes, hwrite, hread⟩ := hobj
  have hcreate : eval (JavaFile.createNewFile .posix x) disk =
      (.ok true, (disk.place _ (.file []) h.admits).record (.madeFile (dir ++ [name]))) := by
    rw [JavaFile.createNewFile, eval_ofStep, hresolve disk h, Option.bind_some,
      FileTree.createNew_of_admits h.admits hnone (h.writable _)]
  -- three times the file is placed in the same room: made, opened, filled
  have h₁ := h.place [] (.madeFile (dir ++ [name]))
  rw [eval_bind_ok _ hcreate]
  generalize FileTree.record _ _ = disk₁ at h₁ ⊢
  have hopen : eval (JavaFile.openOutput .posix x) disk₁ =
      (.ok (dir ++ [name]),
        (disk₁.place _ (.file []) h₁.admits).record (.wrote (dir ++ [name]))) := by
    rw [JavaFile.openOutput, eval_ofStep, hresolve disk₁ h₁, Option.bind_some,
      FileTree.openNew_of_admits h₁.admits (h₁.writable _), Option.map_some]
  have h₂ := h₁.place [] (.wrote (dir ++ [name]))
  rw [serialize, eval_bind_ok _ hopen]
  generalize FileTree.record _ _ = disk₂ at h₂ ⊢
  have hfill : eval (JavaFile.write (dir ++ [name]) bytes) disk₂ =
      (.ok (), (disk₂.place _ (.file bytes) h₂.admits).record (.wrote (dir ++ [name]))) := by
    rw [JavaFile.write, eval_ofStep, FileTree.fill_of_admits h₂.admits]
  have h₃ := h₂.place bytes (.wrote (dir ++ [name]))
  have hnode : ((disk₂.place _ (.file bytes) h₂.admits).record (.wrote (dir ++ [name]))).node
      (dir ++ [name]) = some (.file bytes) := by rw [FileTree.node_record, FileTree.node_place_self]
  rw [hwrite, eval_bind_ok _ hfill]
  generalize FileTree.record _ _ = disk₃ at h₃ hnode ⊢
  refine ⟨disk₃, rfl, ⟨dir, name, hresolve disk₃ h₃, ?_, ?_⟩, ?_⟩
  · rw [FileTree.isDir_iff, h₃.isDir]
  · rw [FileTree.isFile_iff]
    exact ⟨bytes, hnode⟩
  · have hinput : eval (JavaFile.openInput .posix x) disk₃ = (.ok bytes, disk₃) := by
      rw [JavaFile.openInput, eval_ofStep, hresolve disk₃ h₃, Option.bind_some, hnode]
    rw [deserializeObj, eval_bind_ok _ hinput, hread, eval_ofExcept]

theorem store_on_dir {loc : List Name} (hdir : disk.node loc = some .dir)
    (hresolve : JavaFile.resolve .posix disk x = some loc) :
    ∃ e disk', eval (do
        let _ ← JavaFile.createNewFile .posix x
        serialize .posix streams obj x) disk = (.error e, disk') := by
  have hcreate : eval (JavaFile.createNewFile .posix x) disk = (.ok false, disk) := by
    rw [JavaFile.createNewFile, eval_ofStep, hresolve, Option.bind_some,
      FileTree.createNew_of_isSome (by rw [hdir]; rfl)]
  have hopen : eval (JavaFile.openOutput .posix x) disk =
      (.error JavaFile.fileNotFoundException, disk) := by
    rw [JavaFile.openOutput, eval_ofStep, hresolve, Option.bind_some,
      FileTree.openNew_of_dir hdir, Option.map_none]
  exact ⟨_, _, by rw [eval_bind_ok _ hcreate, serialize, eval_bind_error _ hopen]⟩

theorem store_unreachable (hresolve : JavaFile.resolve .posix disk x = none) :
    ∃ e disk', eval (do
        let _ ← JavaFile.createNewFile .posix x
        serialize .posix streams obj x) disk = (.error e, disk') := by
  have hcreate : eval (JavaFile.createNewFile .posix x) disk =
      (.error JavaFile.ioException, disk) := by
    rw [JavaFile.createNewFile, eval_ofStep, hresolve]
    rfl
  exact ⟨_, _, eval_bind_error _ hcreate⟩

end Store

/-! ## 3. The layout of a sanitised path -/

def folderNames (filePath : List Char) : List Name :=
  match lastSeparator filePath with
  | some index => Path.components Platform.posix.isSeparator (filePath.take index)
  | none => []

/-- How the directories made lie to the names of the path: `dirs` are the names in front of the last
one, they are all made, and the last name is not, nor is anything below it. -/
structure Layout (filePath : List Char) (dirs : List Name) : Prop where
  made : dirs <+: folderNames filePath
  made_all : lastName filePath = [] → dirs = folderNames filePath
  not_made : lastName filePath ≠ [] → ¬ dirs ++ [lastName filePath] <+: folderNames filePath
  components : Path.components Platform.posix.isSeparator filePath =
    dirs ++ if lastName filePath = [] then [] else [lastName filePath]

theorem isSeparator_posix_of_ne {x : Char} (h : x ≠ '/') :
    Platform.posix.isSeparator x = false := by
  simpa [Platform.isSeparator] using h

theorem components_of_no_slash {x : List Char} (h : '/' ∉ x) :
    Path.components Platform.posix.isSeparator x = if x = [] then [] else [x] := by
  split
  · simp_all
  · refine Path.components_of_no_sep (fun c hc => isSeparator_posix_of_ne ?_) ‹_›
    rintro rfl
    exact h hc

theorem lastName_of_slash {filePath : List Char} {i : ℕ}
    (h : Path.lastIndexOf '/' filePath = some i) : lastName filePath = filePath.drop (i + 1) := by
  simp only [lastName, h]

theorem lastName_of_no_slash {filePath : List Char} (h : Path.lastIndexOf '/' filePath = none) :
    lastName filePath = filePath := by
  simp only [lastName, h]

theorem exists_layout (filePath : List Char) : ∃ dirs, Layout filePath dirs := by
  cases hslash : Path.lastIndexOf '/' filePath with
  | some i =>
    obtain ⟨hcut, hlast⟩ := Path.lastIndexOf_eq_some hslash
    have hname := lastName_of_slash hslash
    have hfolder : folderNames filePath =
        Path.components Platform.posix.isSeparator (filePath.take i) := by
      simp only [folderNames, lastSeparator, hslash]
    refine ⟨folderNames filePath, List.prefix_refl _, fun _ => rfl, fun _ hpre => ?_, ?_⟩
    · have hlen := hpre.length_le
      rw [List.length_append, List.length_singleton] at hlen
      omega
    · rw [hfolder, hname, ← components_of_no_slash hlast,
        ← Path.components_append_sep _ _ (isSeparator_slash .posix), ← hcut]
  | none =>
    have hnone := Path.lastIndexOf_eq_none.mp hslash
    have hname := lastName_of_no_slash hslash
    refine ⟨[], List.nil_prefix, fun h => ?_, fun hne hpre => ?_, ?_⟩
    · rw [hname] at h
      rw [h]
      rfl
    · rw [hname, List.nil_append] at hpre
      unfold folderNames at hpre
      split at hpre
      case h_1 index hindex =>
        have htake : '/' ∉ filePath.take index := fun h => hnone (List.mem_of_mem_take h)
        rw [components_of_no_slash htake] at hpre
        split at hpre
        · exact absurd hpre (by simp)
        · obtain ⟨c, -, hcut⟩ := lastSeparator_eq_some hindex
          have heq := (List.cons_prefix_cons.mp hpre).1
          have hlen := congrArg List.length hcut
          rw [← heq] at hlen
          simp at hlen
      case h_2 => exact absurd hpre (by simp)
    · rw [hname, List.nil_append]
      exact components_of_no_slash hnone

theorem lastName_eq_nil_iff (filePath : List Char) :
    lastName filePath = [] ↔ filePath = [] ∨ filePath.getLast? = some '/' := by
  cases hslash : Path.lastIndexOf '/' filePath with
  | some i =>
    obtain ⟨hcut, hlast⟩ := Path.lastIndexOf_eq_some hslash
    rw [lastName_of_slash hslash]
    generalize filePath.drop (i + 1) = last at hcut hlast
    rw [hcut]
    cases hl : last.getLast? with
    | none =>
      rw [List.getLast?_eq_none_iff] at hl
      subst hl
      simp
    | some a =>
      have hne : last ≠ [] := by
        rintro rfl
        cases hl
      have ha : a ≠ '/' := by
        rintro rfl
        exact hlast (List.mem_of_getLast? hl)
      simp [hne, List.getLast?_append, List.getLast?_cons, hl, ha]
  | none =>
    have hnone := Path.lastIndexOf_eq_none.mp hslash
    rw [lastName_of_no_slash hslash]
    constructor
    · exact .inl
    · rintro (h | h)
      · exact h
      · exact absurd (List.mem_of_getLast? h) hnone

/-! ## 4. Every path -/

section Paths

variable {disk : Disk}

theorem ordinary_folderNames (s : List Char) :
    ∀ name ∈ folderNames (sanitize s), Ordinary name := by
  unfold folderNames
  split
  case h_1 index hindex =>
    obtain ⟨sep, hsep, hcut⟩ := lastSeparator_eq_some hindex
    exact ordinary_of_sanitize_eq .posix hsep hcut
  case h_2 => simp

theorem nul_notMem_sanitize {s : List Char} (hnul : '\x00' ∉ s) : '\x00' ∉ sanitize s :=
  fun h => hnul ((Scan.deleteMatches_sublist _ s).subset h)

theorem Prepared.makePathFolder (h : Prepared disk []) {s : List Char} (hnul : '\x00' ∉ s) :
    ∃ disk', eval (makePathFolder .posix (sanitize s)) disk = (.ok (), disk') ∧
      Prepared disk' (folderNames (sanitize s)) := by
  unfold SerializationUtil.makePathFolder
  have hord := ordinary_folderNames s
  unfold folderNames at hord ⊢
  cases hindex : lastSeparator (sanitize s) with
  | some index =>
    simp only [hindex] at hord
    exact h.makeFolder .posix
      (fun hmem => nul_notMem_sanitize hnul (List.mem_of_mem_take hmem)) hord
  | none => exact ⟨disk, rfl, h⟩

theorem folder_append (names : List Name) :
    folder disk ++ names = disk.cwd ++ serializationName :: tmpName :: names := by
  simp [folder]

theorem Prepared.site {made dirs : List Name} {name : Name} (h : Prepared disk made)
    (hdirs : dirs <+: made) (hname : ¬ dirs ++ [name] <+: made) :
    Site disk disk.cwd (disk.cwd ++ serializationName :: tmpName :: dirs) name ∧
      disk.node (disk.cwd ++ serializationName :: tmpName :: dirs ++ [name]) = none := by
  have hnone : disk.node (disk.cwd ++ serializationName :: tmpName :: dirs ++ [name]) = none := by
    rw [← folder_append, List.append_assoc, h.absent _ hname]
  refine ⟨⟨rfl, ?_, by rw [hnone]; simp, h.writable⟩, hnone⟩
  rw [← folder_append, h.dir_of_prefix hdirs]

variable {Obj : Type} (streams : ObjectStreams Obj) {obj : Obj}

-- what is left of `RoundTrips` once the folders are made
def Stored (streams : ObjectStreams Obj) (obj : Obj) (path : List Char) (disk : Disk) : Prop :=
  ∃ disk', eval (do
      let _ ← JavaFile.createNewFile .posix path
      serialize .posix streams obj path) disk = (.ok path, disk') ∧
    (∃ loc name, JavaFile.resolve .posix disk' path = some (loc ++ [name]) ∧ disk'.isDir loc ∧
      disk'.isFile (loc ++ [name])) ∧
    eval (deserializeObj .posix streams path) disk' = (.ok obj, disk')

theorem not_stored_of_error {streams : ObjectStreams Obj} {path : List Char}
    (h : ∃ e disk', eval (do
      let _ ← JavaFile.createNewFile .posix path
      serialize .posix streams obj path) disk = (.error e, disk')) :
    ¬ Stored streams obj path disk := by
  obtain ⟨e, disk', h⟩ := h
  rintro ⟨disk'', h', -⟩
  rw [h] at h'
  cases h'

theorem Prepared.stored {made dirs : List Name} {name : Name} {x : List Char}
    (h : Prepared disk made) (hdirs : dirs <+: made) (hname : ¬ dirs ++ [name] <+: made)
    (hx : Path.components Platform.posix.isSeparator x = dirs ++ [name])
    (hord : ∀ n ∈ dirs ++ [name], Ordinary n) (hnul : '\x00' ∉ x)
    (hobj : streams.Lossless obj) : Stored streams obj (FOLDER_NM ++ x) disk := by
  obtain ⟨hsite, hnone⟩ := h.site hdirs hname
  exact store_at_site streams hsite hnone
    (fun disk' hsite' => hsite'.resolve hnul hx hord) hobj

theorem Prepared.resolve {made dirs : List Name} {x : List Char} {rest : List (Step Name)}
    (h : Prepared disk made) (hdirs : dirs <+: made) (hnul : '\x00' ∉ x)
    (hx : JavaFile.steps .posix x = dirs.map .down ++ rest) :
    JavaFile.resolve .posix disk (FOLDER_NM ++ x) =
      disk.walk (disk.cwd ++ serializationName :: tmpName :: dirs) rest := by
  have hdir := h.dir_of_prefix hdirs
  rw [folder_append] at hdir
  rw [resolve_posix_folder hnul, hx, ← List.append_assoc, ← List.map_append, FileTree.walk_append]
  change ((disk.walk disk.cwd ((serializationName :: tmpName :: dirs).map .down)).bind _) = _
  rw [FileTree.walk_dir hdir, Option.bind_some]

-- case2 of `createFile`: a path with a dot
theorem stored_dotted_iff {s : List Char} (hnul : '\x00' ∉ s)
    (h : Prepared disk (folderNames (sanitize s))) (hobj : streams.Lossless obj) :
    Stored streams obj (FOLDER_NM ++ sanitize s) disk ↔
      lastName (sanitize s) ∉ [[], ['.'], ['.', '.']] := by
  obtain ⟨dirs, hlayout⟩ := exists_layout (sanitize s)
  have hnul' := nul_notMem_sanitize hnul
  have hord : ∀ n ∈ dirs, Ordinary n := fun n hn =>
    ordinary_folderNames s n (hlayout.made.subset hn)
  have hdir := h.dir_of_prefix hlayout.made
  rw [folder_append] at hdir
  have hsteps : JavaFile.steps .posix (sanitize s) = dirs.map .down ++
      (if lastName (sanitize s) = [] then [] else [lastName (sanitize s)]).map step := by
    rw [JavaFile.steps, hlayout.components, List.map_append, map_step_of_ordinary hord]
  have hresolve := h.resolve hlayout.made hnul' hsteps
  by_cases hlast : lastName (sanitize s) ∈ [[], ['.'], ['.', '.']]
  · refine iff_of_false ?_ fun hnot => hnot hlast
    simp only [List.mem_cons, List.not_mem_nil, or_false] at hlast
    -- the path is the folder itself, `.` in it, or its parent: a directory each time
    rcases hlast with hlast | hlast | hlast <;> rw [hlast] at hresolve
    · exact not_stored_of_error (store_on_dir streams hdir hresolve)
    · refine not_stored_of_error (store_on_dir streams hdir (hresolve.trans ?_))
      simp [FileTree.walk, FileTree.isDir, hdir, step]
    · have hup := disk.node_dropLast hdir
      refine not_stored_of_error (store_on_dir streams hup (hresolve.trans ?_))
      simp [FileTree.walk, FileTree.isDir, hdir, step]
  · refine iff_of_true ?_ hlast
    simp only [List.mem_cons, List.not_mem_nil, or_false, not_or] at hlast
    have hcomp := hlayout.components
    rw [if_neg hlast.1] at hcomp
    refine h.stored streams hlayout.made (hlayout.not_made hlast.1) hcomp ?_ hnul' hobj
    intro n hn
    rcases List.mem_append.mp hn with hn | hn
    · exact hord n hn
    · rw [List.mem_singleton.mp hn, Ordinary, step, if_neg hlast.2.1, if_neg hlast.2.2]

-- case3 of `createFile`: a path without a dot, below which a name is generated
theorem stored_undotted_iff {s : List Char} (hnul : '\x00' ∉ s) (hdot : '.' ∉ sanitize s)
    (h : Prepared disk (folderNames (sanitize s))) (now : CivilTime)
    (hobj : streams.Lossless obj) :
    Stored streams obj (FOLDER_NM ++ (sanitize s ++ '/' :: generatedName now)) disk ↔
      lastName (sanitize s) = [] := by
  obtain ⟨dirs, hlayout⟩ := exists_layout (sanitize s)
  have hnul' := nul_notMem_generated now (nul_notMem_sanitize hnul)
  have hcomp : Path.components Platform.posix.isSeparator (sanitize s ++ '/' :: generatedName now) =
      dirs ++ ((if lastName (sanitize s) = [] then [] else [lastName (sanitize s)]) ++
        [generatedName now]) := by
    rw [Path.components_append_sep _ _ (isSeparator_slash .posix), hlayout.components,
      components_generatedName, List.append_assoc]
  have hord : ∀ n ∈ dirs, Ordinary n := fun n hn =>
    ordinary_folderNames s n (hlayout.made.subset hn)
  by_cases hlast : lastName (sanitize s) = []
  · refine iff_of_true ?_ hlast
    rw [if_pos hlast, List.nil_append] at hcomp
    refine h.stored streams hlayout.made ?_ hcomp ?_ hnul' hobj
    · intro hpre
      have hlen := hpre.length_le
      rw [← hlayout.made_all hlast, List.length_append, List.length_singleton] at hlen
      omega
    · intro n hn
      rcases List.mem_append.mp hn with hn | hn
      · exact hord n hn
      · rw [List.mem_singleton.mp hn]
        exact ordinary_generatedName now
  · refine iff_of_false ?_ hlast
    rw [if_neg hlast] at hcomp
    -- a name without a dot is neither `.` nor `..`
    have hlastName : Ordinary (lastName (sanitize s)) := by
      have hmem : lastName (sanitize s) ∈
          Path.components Platform.posix.isSeparator (sanitize s) := by
        rw [hlayout.components, if_neg hlast]
        simp
      exact ordinary_components_of_undotted hdot _ hmem
    have hsteps : JavaFile.steps .posix (sanitize s ++ '/' :: generatedName now) =
        (dirs ++ [lastName (sanitize s)]).map .down ++ [step (generatedName now)] := by
      rw [JavaFile.steps, hcomp, List.map_append, map_step_of_ordinary hord, List.map_append,
        List.map_append, List.map_singleton, List.map_singleton, List.map_singleton, hlastName,
        List.append_assoc]
    -- the last name should be a directory, but `createFile` made only those in front of it
    refine not_stored_of_error (store_unreachable streams ?_)
    have hmissing := h.absent _ (hlayout.not_made hlast)
    rw [folder_append] at hmissing
    rw [resolve_posix_folder hnul', hsteps, ← List.append_assoc, ← List.map_append]
    exact FileTree.walk_missing hmissing

theorem eq_of_eval_serialize {path path' : List Char} {disk disk' : Disk}
    (h : eval (do
      let _ ← JavaFile.createNewFile .posix path
      serialize .posix streams obj path) disk = (.ok path', disk')) : path' = path := by
  have htriple : Triple (fun _ => True) (do
      let _ ← JavaFile.createNewFile .posix path
      serialize .posix streams obj path) (fun r _ => r = path) (fun _ => True) := by
    refine Triple.bind (Q := fun _ _ => True) (Triple.trivial _) fun _ =>
      Triple.bind (Q := fun _ _ => True) (Triple.trivial _) fun loc =>
        Triple.bind (Q := fun _ _ => True) (Triple.trivial _) fun _ => ?_
    cases (streams.writeObject obj).2 with
    | none => exact Triple.pure fun _ _ => rfl
    | some e => exact Triple.throw fun _ _ => trivial
  have hpost := htriple disk trivial
  rw [h] at hpost
  exact hpost

theorem roundTrips_iff_stored {now : CivilTime} {filePath : Option (List Char)} {path : List Char}
    {disk' : Disk}
    (hrun : eval (serializeObj .posix streams now obj filePath) disk = eval (do
      let _ ← JavaFile.createNewFile .posix path
      serialize .posix streams obj path) disk') :
    RoundTrips .posix streams now obj filePath disk ↔ Stored streams obj path disk' := by
  constructor
  · rintro ⟨path', disk'', heval, hfile, hread⟩
    rw [hrun] at heval
    obtain rfl := eq_of_eval_serialize streams heval
    exact ⟨disk'', heval, hfile, hread⟩
  · rintro ⟨disk'', heval, hfile, hread⟩
    exact ⟨path, disk'', hrun.trans heval, hfile, hread⟩

/-- For a path that is not empty, once the folder and the folders in front of the last name are made, it
comes to storing the object at the path chosen. -/
theorem Fresh.roundTrips_iff_stored (h : Fresh disk) (obj : Obj) (now : CivilTime) {s : List Char}
    (hne : s ≠ []) (hnul : '\x00' ∉ s) :
    ∃ disk', Prepared disk' (folderNames (sanitize s)) ∧
      (RoundTrips .posix streams now obj (some s) disk ↔
        Stored streams obj (storagePath now (sanitize s)) disk') := by
  cases s with
  | nil => exact absurd rfl hne
  | cons c cs =>
    obtain ⟨disk₁, heval₁, hprep₁⟩ := h.makeFolder .posix
    obtain ⟨disk₂, heval₂, hprep₂⟩ := hprep₁.makePathFolder hnul
    refine ⟨disk₂, hprep₂, Serialization.roundTrips_iff_stored streams ?_⟩
    simp only [serializeObj, createFile, choosePath, bind_assoc, pure_bind]
    rw [eval_bind_ok _ heval₁, eval_bind_ok _ heval₂]

end Paths

/-- From a fresh working directory, an object that Java serialization keeps is stored and read back
under a path without NUL exactly when the sanitised path is `Storable`. -/
theorem roundTrips_iff_storable {Obj : Type} (streams : ObjectStreams Obj) {obj : Obj}
    (hobj : streams.Lossless obj) {disk : Disk} (hdisk : Fresh disk) (now : CivilTime)
    (filePath : Option (List Char)) (hnul : ∀ s, filePath = some s → '\x00' ∉ s) :
    RoundTrips .posix streams now obj filePath disk ↔ Storable (sanitized filePath) := by
  match filePath, hnul with
  | none, _ | some [], _ =>
    -- case1: the generated name goes straight into the folder
    obtain ⟨disk₁, heval₁, hprep₁⟩ := hdisk.makeFolder .posix
    have hstored : Stored streams obj (FOLDER_NM ++ generatedName now) disk₁ :=
      hprep₁.stored streams List.nil_prefix (by simp) (components_generatedName ..)
        (by simp [ordinary_generatedName]) (fun hmem => (generatedName_char .posix hmem).2 rfl) hobj
    refine iff_of_true ((roundTrips_iff_stored streams ?_).mpr hstored) ?_
    · simp only [serializeObj, createFile, choosePath, bind_assoc, pure_bind, List.append_assoc]
      rw [eval_bind_ok _ heval₁]
      rfl
    · rw [Storable, if_neg (by decide)]
      exact .inl rfl
  | some (c :: cs), hnul =>
    have hnul' := hnul _ rfl
    obtain ⟨disk₂, hprep₂, hiff⟩ :=
      hdisk.roundTrips_iff_stored streams obj now (List.cons_ne_nil c cs) hnul'
    rw [hiff, sanitized, Storable]
    by_cases hdot : '.' ∈ sanitize (c :: cs)
    · rw [if_pos hdot, storagePath, if_pos hdot]
      exact stored_dotted_iff streams hnul' hprep₂ hobj
    · rw [if_neg hdot, storagePath, if_neg hdot, ← lastName_eq_nil_iff]
      have happ : FOLDER_NM ++ sanitize (c :: cs) ++ ['/'] ++ idGenerator now ++ EXTENSION_NM =
          FOLDER_NM ++ (sanitize (c :: cs) ++ '/' :: generatedName now) := by simp [generatedName]
      rw [happ]
      exact stored_undotted_iff streams hnul' hdot hprep₂ now hobj

theorem fresh_root : Fresh FileTree.root := ⟨rfl, fun _ => rfl⟩

theorem byteStreams_lossless (bytes : List UInt8) : byteStreams.Lossless bytes :=
  ⟨bytes, rfl, rfl⟩

theorem roundTrips_list_ser :
    RoundTrips .posix byteStreams .epoch [1] (some "list.ser".toList) FileTree.root ↔
      Storable (sanitized (some "list.ser".toList)) :=
  roundTrips_iff_storable byteStreams (byteStreams_lossless [1]) fresh_root .epoch _
    (by rintro _ ⟨⟩; decide)

/-- The directory `tmp` named in the source's comment: its folder is never made. -/
theorem not_roundTrips_tmp :
    ¬ RoundTrips .posix byteStreams .epoch [1] (some "tmp".toList) FileTree.root := by
  rintro ⟨path, disk, heval, -⟩
  have hthrows : (eval (serializeObj .posix byteStreams .epoch [1] (some "tmp".toList))
      FileTree.root).1 = .error JavaFile.ioException := by decide
  rw [heval] at hthrows
  cases hthrows

end UtilsRepo.Serialization
