import UtilsRepo.Serialization.Sanitize

/-!
# Confinement to the folder

What storing an object makes or writes lies in `serialization/tmp`, whatever the path asked for, with
one exception: on Windows a path that sanitises to `..` names `serialization` itself, and a file of
that name is overwritten.
-/

namespace UtilsRepo.Serialization

open Fallible SerializationUtil

/-- A change in the folder; its parent is made as a directory where it is missing. -/
def Confined (cwd : List Name) : Change Name → Prop
  | .madeDir loc => loc = cwd ++ [serializationName] ∨ cwd ++ [serializationName, tmpName] <+: loc
  | .madeFile loc | .wrote loc => cwd ++ [serializationName, tmpName] <+: loc

/-- The one input that leaves the folder. -/
def Escapes (p : Platform) (disk : Disk) : Option (List Char) → Prop
  | none => False
  | some filePath =>
      p = .windows ∧ Path.components p.isSeparator (sanitize filePath) = [['.', '.']] ∧
        disk.isFile (disk.cwd ++ [serializationName]) ∧
        disk.readOnly (disk.cwd ++ [serializationName]) = false

/-! ## 1. The invariant of a run -/

/-- A disk reached from `disk₀` by confined changes only. -/
structure Confining (disk₀ disk : Disk) : Prop where
  cwd : disk.cwd = disk₀.cwd
  readOnly : disk.readOnly = disk₀.readOnly
  journal : ∀ change ∈ disk.journal, Confined disk₀.cwd change
  accounted : FileTree.Accounted disk₀ disk

theorem Confining.refl {disk : Disk} (h : disk.journal = []) : Confining disk disk where
  cwd := rfl
  readOnly := rfl
  journal := by simp [h]
  accounted := fun _ => .inl rfl

theorem Confining.node_outside {disk₀ disk : Disk} (h : Confining disk₀ disk) {loc : List Name}
    (hout : ¬ folder disk₀ <+: loc) (hloc : loc ≠ disk₀.cwd ++ [serializationName]) :
    disk.node loc = disk₀.node loc := by
  rcases h.accounted loc with hsame | ⟨change, hmem, rfl⟩
  · exact hsame
  · have hconf := h.journal change hmem
    cases change with
    | madeDir loc => exact (hconf.elim hloc hout).elim
    | madeFile loc => exact (hout hconf).elim
    | wrote loc => exact (hout hconf).elim

theorem prefix_folder {cwd loc : List Name} (h : loc <+: cwd ++ [serializationName, tmpName]) :
    loc <+: cwd ∨ loc = cwd ++ [serializationName] ∨ cwd ++ [serializationName, tmpName] <+: loc := by
  have happ : cwd ++ [serializationName, tmpName] = cwd ++ [serializationName] ++ [tmpName] := by simp
  rw [happ, List.prefix_concat_iff] at h
  rcases h with rfl | h
  · exact .inr (.inr (by rw [happ]))
  · rcases List.prefix_concat_iff.mp h with rfl | h
    · exact .inr (.inl rfl)
    · exact .inl h

theorem isSome_of_prefix_cwd {disk : Disk} {loc : List Name} (h : loc <+: disk.cwd) :
    (disk.node loc).isSome := by
  obtain ⟨rest, hrest⟩ := h
  by_cases hne : rest = []
  · subst hne
    rw [List.append_nil] at hrest
    rw [hrest, disk.cwd_dir]
    rfl
  · rw [disk.dir_of_append loc hne (by rw [hrest, disk.cwd_dir]; rfl)]
    rfl

section Steps

variable {disk₀ disk : Disk}

theorem Confining.mkdirs (h : Confining disk₀ disk) {loc : List Name} (hloc : folder disk₀ <+: loc) :
    Confining disk₀ (disk.mkdirs loc) where
  cwd := (FileTree.cwd_mkdirsFrom ..).trans h.cwd
  readOnly := (FileTree.readOnly_mkdirsFrom ..).trans h.readOnly
  accounted := h.accounted.mkdirs loc
  journal := by
    intro change hmem
    rcases FileTree.journal_mkdirsFrom _ _ _ hmem with hmem | ⟨pre, hpre, -, rfl, hnone⟩
    · exact h.journal change hmem
    rw [List.nil_append] at hnone ⊢
    -- a directory that was missing is not on the way to the working directory
    have hcwd : ¬ pre <+: disk₀.cwd := by
      intro hcwd
      rw [← h.cwd] at hcwd
      have hsome := isSome_of_prefix_cwd hcwd
      rw [hnone] at hsome
      cases hsome
    rcases List.prefix_or_prefix_of_prefix hpre hloc with hle | hle
    · exact (prefix_folder hle).resolve_left hcwd
    · exact .inr hle

theorem Confining.place (h : Confining disk₀ disk) {loc : List Name} (hloc : folder disk₀ <+: loc)
    {n : Node (List UInt8)} (hadm : disk.Admits loc) {change : Change Name}
    (hchange : change = .madeFile loc ∨ change = .wrote loc) :
    Confining disk₀ ((disk.place loc n hadm).record change) where
  cwd := h.cwd
  readOnly := h.readOnly
  accounted := h.accounted.place hadm (by rcases hchange with rfl | rfl <;> rfl)
  journal := by
    intro c hmem
    rcases List.mem_append.mp hmem with hmem | hmem
    · exact h.journal c hmem
    · rw [List.mem_singleton.mp hmem]
      rcases hchange with rfl | rfl <;> exact hloc

theorem Confining.fill (h : Confining disk₀ disk) {loc : List Name} (hloc : folder disk₀ <+: loc)
    (content : List UInt8) : Confining disk₀ (disk.fill loc content) := by
  unfold FileTree.fill
  split
  · exact h.place hloc _ (.inr rfl)
  · exact h

end Steps

/-! ## 2. Blocked locations -/

-- nothing can be made or opened for writing at the location
def Blocked (disk : Disk) (loc : List Name) : Prop :=
  disk.isDir loc ∨ disk.readOnly loc

theorem Blocked.place {disk : Disk} {blocked loc : List Name} (h : Blocked disk blocked)
    {n : Node (List UInt8)} (hadm : disk.Admits loc) (change : Change Name) :
    Blocked ((disk.place loc n hadm).record change) blocked := by
  rcases h with h | h
  · left
    rw [FileTree.isDir_iff] at h ⊢
    rw [FileTree.node_record, FileTree.node_place_of_ne _ _ _ _, h]
    rintro rfl
    exact hadm.node_ne_dir h
  · exact .inr h

theorem Blocked.mkdirs {disk : Disk} {blocked : List Name} (h : Blocked disk blocked)
    (loc : List Name) : Blocked (disk.mkdirs loc) blocked := by
  rcases h with h | h
  · left
    rw [FileTree.isDir_iff] at h ⊢
    rw [FileTree.mkdirs, FileTree.node_mkdirsFrom_of_isSome _ _ _ (by rw [h]; rfl), h]
  · right
    rwa [FileTree.mkdirs, FileTree.readOnly_mkdirsFrom]

theorem isDir_serialization_of_folder {disk : Disk} (h : (disk.node (folder disk)).isSome) :
    disk.isDir (disk.cwd ++ [serializationName]) := by
  rw [folder_concat] at h
  rw [FileTree.isDir_iff]
  exact disk.parent_dir _ tmpName h

/-- On POSIX `..` is only reached through the folder, which is a directory then. -/
theorem isDir_folder_of_resolve_dotdot {disk : Disk} {x : List Char} {loc : List Name}
    (hx : JavaFile.steps .posix x = [.up])
    (hloc : JavaFile.resolve .posix disk (FOLDER_NM ++ x) = some loc) :
    disk.isDir (folder disk) := by
  unfold JavaFile.resolve at hloc
  split at hloc
  · cases hloc
  have hsteps : JavaFile.steps .posix (FOLDER_NM ++ x) =
      [serializationName, tmpName].map .down ++ [.up] := by
    rw [steps_folder, hx]
    rfl
  rw [hsteps, start_folder, FileTree.walk_append] at hloc
  obtain ⟨loc', hwalk, hup⟩ := Option.bind_eq_some_iff.mp hloc
  have hloc' : folder disk = loc' := by
    rw [← FileTree.lexical_of_walk hwalk, FileTree.lexical_downs]
    rfl
  -- the walk has reached the folder, and takes the step `..` from a directory only
  rw [hloc']
  unfold FileTree.walk at hup
  split at hup
  · assumption
  · cases hup

/-- What is carried through a run: confined changes, and, where the path means `serialization`
itself, nothing can be written there. -/
def Held (p : Platform) (disk₀ : Disk) (path : List Char) (disk : Disk) : Prop :=
  Confining disk₀ disk ∧
    (p = .windows → Path.components p.isSeparator path = [['.', '.']] →
      Blocked disk (disk₀.cwd ++ [serializationName]))

section Targets

variable {p : Platform} {disk₀ disk : Disk} {path : List Char} {loc : List Name}

theorem folder_eq (h : Confining disk₀ disk) : folder disk = folder disk₀ := by
  rw [folder, h.cwd]
  rfl

/-- Where a path below the folder leads: into the folder, or to a location where nothing can be
written. -/
def TargetHeld (p : Platform) (disk₀ : Disk) (path target : List Char) : Prop :=
  ∀ disk, Held p disk₀ path disk → ∀ loc, JavaFile.resolve p disk target = some loc →
    folder disk₀ <+: loc ∨ Blocked disk loc

theorem targetHeld_of_ordinary {x : List Char}
    (hx : ∀ name ∈ Path.components p.isSeparator x, Ordinary name) :
    TargetHeld p disk₀ path (FOLDER_NM ++ x) := by
  intro disk hheld loc hloc
  rw [eq_canonical_of_resolve p hloc, canonical_of_ordinary p disk hx, folder_eq hheld.1]
  exact .inl (List.prefix_append ..)

theorem targetHeld_sanitize (s : List Char) :
    TargetHeld p disk₀ (sanitize s) (FOLDER_NM ++ sanitize s) := by
  intro disk hheld loc hloc
  have hfolder := folder_eq hheld.1
  obtain ⟨names, last, hcomp, hlast, hord⟩ := components_sanitize p s
  have hcan := eq_canonical_of_resolve p hloc
  rw [canonical_folder, hfolder, JavaFile.steps, hcomp, List.map_append,
    map_step_of_ordinary hord, FileTree.lexical_append, FileTree.lexical_downs] at hcan
  -- the last name decides; only `..` directly below the folder leaves it
  rcases last with _ | ⟨name, _ | ⟨other, rest⟩⟩
  · exact .inl (hcan ▸ List.prefix_append ..)
  · cases hstep : step name with
    | stay =>
      rw [List.map_singleton, hstep] at hcan
      exact .inl (hcan ▸ List.prefix_append ..)
    | down n =>
      rw [List.map_singleton, hstep] at hcan
      refine .inl (hcan ▸ ?_)
      simp only [FileTree.lexical, List.append_assoc]
      exact List.prefix_append ..
    | up =>
      rw [List.map_singleton, hstep] at hcan
      by_cases hnames : names = []
      · subst hnames
        right
        have hser : loc = disk₀.cwd ++ [serializationName] := by
          rw [hcan]
          simp only [FileTree.lexical, List.append_nil]
          exact dropLast_folder disk₀
        rw [hser]
        have hdotdot := eq_dotdot_of_step hstep
        cases p with
        | windows => exact hheld.2 rfl (by rw [hcomp, hdotdot]; rfl)
        | posix =>
          left
          rw [← hheld.1.cwd]
          apply isDir_serialization_of_folder
          have hsteps : JavaFile.steps .posix (sanitize s) = [.up] := by
            rw [JavaFile.steps, hcomp, hdotdot]
            rfl
          rw [(FileTree.isDir_iff ..).mp (isDir_folder_of_resolve_dotdot hsteps hloc)]
          rfl
      · refine .inl (hcan ▸ ?_)
        simp only [FileTree.lexical]
        rw [List.dropLast_append_of_ne_nil hnames]
        exact List.prefix_append ..
  · -- what stands behind the last separator is one name
    exact absurd hlast (by simp)

end Targets

/-! ## 3. One operation -/

section Operations

variable {p : Platform} {disk₀ : Disk} {path : List Char}

theorem Held.mkdirs {disk : Disk} (h : Held p disk₀ path disk) {loc : List Name}
    (hloc : folder disk₀ <+: loc) : Held p disk₀ path (disk.mkdirs loc) :=
  ⟨h.1.mkdirs hloc, fun hp hcomp => (h.2 hp hcomp).mkdirs loc⟩

theorem Held.place {disk : Disk} (h : Held p disk₀ path disk) {loc : List Name}
    (hloc : folder disk₀ <+: loc) {n : Node (List UInt8)} (hadm : disk.Admits loc)
    {change : Change Name} (hchange : change = .madeFile loc ∨ change = .wrote loc) :
    Held p disk₀ path ((disk.place loc n hadm).record change) :=
  ⟨h.1.place hloc hadm hchange, fun hp hcomp => (h.2 hp hcomp).place hadm change⟩

theorem triple_makeFolder {x : List Char}
    (hx : ∀ name ∈ Path.components p.isSeparator x, Ordinary name) :
    Triple (Held p disk₀ path) (makeFolder p (FOLDER_NM ++ x)) (fun _ => Held p disk₀ path)
      (Held p disk₀ path) := by
  intro disk hdisk
  obtain ⟨disk', heval, hcases⟩ := eval_makeFolder p disk (FOLDER_NM ++ x)
  rw [heval]
  rcases hcases with ⟨rfl, -⟩ | ⟨-, rfl⟩
  · exact hdisk
  · apply hdisk.mkdirs
    rw [canonical_of_ordinary p disk hx, folder_eq hdisk.1]
    exact List.prefix_append ..

theorem triple_createNewFile {target : List Char} (htarget : TargetHeld p disk₀ path target) :
    Triple (Held p disk₀ path) (JavaFile.createNewFile p target) (fun _ => Held p disk₀ path)
      (Held p disk₀ path) := by
  intro disk hdisk
  rw [JavaFile.createNewFile, eval_ofStep]
  cases hnew : (JavaFile.resolve p disk target).bind fun loc => disk.createNew loc [] with
  | none => exact hdisk
  | some r =>
    obtain ⟨loc, hloc, hnew⟩ := Option.bind_eq_some_iff.mp hnew
    obtain ⟨made, disk'⟩ := r
    rcases FileTree.createNew_cases hnew with ⟨-, rfl, -⟩ | ⟨-, hadm, -, hro, rfl⟩
    · exact hdisk
    · -- a new file has room and may be written, so its location is not blocked
      rcases htarget disk hdisk loc hloc with hin | hdir | hblocked
      · exact hdisk.place hin hadm (.inl rfl)
      · exact absurd ((FileTree.isDir_iff ..).mp hdir) hadm.node_ne_dir
      · rw [hro] at hblocked
        cases hblocked

theorem triple_openOutput {target : List Char} (htarget : TargetHeld p disk₀ path target) :
    Triple (Held p disk₀ path) (JavaFile.openOutput p target)
      (fun loc disk => Held p disk₀ path disk ∧ folder disk₀ <+: loc) (Held p disk₀ path) := by
  intro disk hdisk
  rw [JavaFile.openOutput, eval_ofStep]
  cases hopen : (JavaFile.resolve p disk target).bind
      fun loc => (disk.openNew loc []).map (loc, ·) with
  | none => exact hdisk
  | some r =>
    obtain ⟨loc, hloc, hmap⟩ := Option.bind_eq_some_iff.mp hopen
    obtain ⟨disk', hopen', rfl⟩ := Option.map_eq_some_iff.mp hmap
    obtain ⟨hadm, hro, rfl⟩ := FileTree.openNew_cases hopen'
    rcases htarget disk hdisk loc hloc with hin | hdir | hblocked
    · exact ⟨hdisk.place hin hadm (.inr rfl), hin⟩
    · exact absurd ((FileTree.isDir_iff ..).mp hdir) hadm.node_ne_dir
    · rw [hro] at hblocked
      cases hblocked

theorem triple_write (loc : List Name) (bytes : List UInt8) :
    Triple (fun disk => Held p disk₀ path disk ∧ folder disk₀ <+: loc) (JavaFile.write loc bytes)
      (fun _ => Held p disk₀ path) (Held p disk₀ path) := by
  rintro disk ⟨hdisk, hloc⟩
  rw [JavaFile.write, eval_ofStep]
  change Held p disk₀ path (disk.fill loc bytes)
  unfold FileTree.fill
  split
  · exact hdisk.place hloc _ (.inr rfl)
  · exact hdisk

theorem triple_serialize {Obj : Type} (streams : ObjectStreams Obj) (obj : Obj)
    {target : List Char} (htarget : TargetHeld p disk₀ path target) :
    Triple (Held p disk₀ path) (serialize p streams obj target) (fun _ => Held p disk₀ path)
      (Held p disk₀ path) :=
  (triple_openOutput htarget).bind fun loc => (triple_write loc _).bind fun _ =>
    Triple.ofExcept _

end Operations

/-! ## 4. The whole run -/

section Run

variable {p : Platform} {disk₀ : Disk}

-- the first `mkdirs` blocks `serialization`, unless a file that may be written is in its place
theorem held_makeFolder {disk : Disk} (hdisk : disk.journal = []) {path : List Char}
    (hpath : p = .windows → Path.components p.isSeparator path = [['.', '.']] →
      disk.isFile (disk.cwd ++ [serializationName]) →
      disk.readOnly (disk.cwd ++ [serializationName]) = true) :
    ∃ disk', eval (makeFolder p FOLDER_NM) disk = (.ok (), disk') ∧ Held p disk path disk' := by
  obtain ⟨disk', heval, hcases⟩ := eval_makeFolder p disk FOLDER_NM
  rw [canonical_folder_nm] at hcases
  refine ⟨disk', heval, ?_⟩
  rcases hcases with ⟨rfl, hnul | hsome⟩ | ⟨-, rfl⟩
  · exact absurd hnul (by decide)
  · exact ⟨Confining.refl hdisk, fun _ _ => .inl (isDir_serialization_of_folder hsome)⟩
  · refine ⟨(Confining.refl hdisk).mkdirs (List.prefix_refl _), fun hp hcomp => ?_⟩
    by_cases hro : disk.readOnly (disk.cwd ++ [serializationName]) = true
    · exact Blocked.mkdirs (.inr hro) _
    rw [Bool.not_eq_true] at hro
    have hfree : disk.node (disk.cwd ++ [serializationName]) = some .dir ∨
        disk.node (disk.cwd ++ [serializationName]) = none := by
      cases hnode : disk.node (disk.cwd ++ [serializationName]) with
      | none => exact .inr rfl
      | some n =>
        cases n with
        | dir => exact .inl rfl
        | file content =>
          have := hpath hp hcomp ((FileTree.isFile_iff ..).mpr ⟨content, hnode⟩)
          rw [hro] at this
          cases this
    left
    rw [FileTree.isDir_iff, folder_concat]
    apply disk.node_mkdirs _ [serializationName] [tmpName] disk.cwd_dir
    intro pre hpre hne
    have hpre' : pre = [serializationName] := by
      have hnil : pre <+: [] ++ [serializationName] := hpre
      rcases List.prefix_concat_iff.mp hnil with h | h
      · exact h
      · exact absurd (List.prefix_nil.mp h) hne
    rw [hpre']
    exact hfree.imp_right fun h => ⟨h, hro⟩

theorem targetHeld_generated {path : List Char} (now : CivilTime) :
    TargetHeld p disk₀ path (FOLDER_NM ++ idGenerator now ++ EXTENSION_NM) := by
  rw [List.append_assoc]
  apply targetHeld_of_ordinary
  intro name hname
  rw [show idGenerator now ++ EXTENSION_NM = generatedName now from rfl,
    components_generatedName, List.mem_singleton] at hname
  rw [hname]
  exact ordinary_generatedName now

theorem targetHeld_storagePath (s : List Char) (now : CivilTime) :
    TargetHeld p disk₀ (sanitize s) (storagePath now (sanitize s)) := by
  unfold storagePath
  split
  · exact targetHeld_sanitize s
  · rename_i hdot
    have happ : FOLDER_NM ++ sanitize s ++ ['/'] ++ idGenerator now ++ EXTENSION_NM =
        FOLDER_NM ++ (sanitize s ++ '/' :: generatedName now) := by simp [generatedName]
    rw [happ]
    apply targetHeld_of_ordinary
    intro name hname
    rw [Path.components_append_sep _ _ (isSeparator_slash p), List.mem_append,
      components_generatedName, List.mem_singleton] at hname
    rcases hname with hname | rfl
    · exact ordinary_components_of_undotted hdot name hname
    · exact ordinary_generatedName now

theorem triple_choosePath (now : CivilTime) (filePath : Option (List Char)) :
    Triple (Held p disk₀ (sanitized filePath)) (choosePath p now filePath)
      (fun target disk => Held p disk₀ (sanitized filePath) disk ∧
        TargetHeld p disk₀ (sanitized filePath) target) (Held p disk₀ (sanitized filePath)) := by
  match filePath with
  | none | some [] => exact Triple.pure fun _ h => ⟨h, targetHeld_generated now⟩
  | some (c :: cs) =>
    refine Triple.bind (Q := fun _ => Held p disk₀ (sanitize (c :: cs))) ?_ fun _ =>
      Triple.pure fun _ h => ⟨h, targetHeld_storagePath _ now⟩
    unfold makePathFolder
    split
    case h_1 index hindex =>
      -- what stands in front of a separator of a sanitised path has ordinary names only
      obtain ⟨sep, hsep, hcut⟩ := lastSeparator_eq_some hindex
      exact triple_makeFolder (ordinary_of_sanitize_eq p hsep hcut)
    case h_2 => exact Triple.pure fun _ h => h

/-- Storing an object under a path that does not escape changes the folder only. -/
theorem confining_serializeObj {Obj : Type} (streams : ObjectStreams Obj) {disk : Disk}
    (hdisk : disk.journal = []) (now : CivilTime) (obj : Obj) (filePath : Option (List Char))
    (hesc : ¬ Escapes p disk filePath) :
    Confining disk (eval (serializeObj p streams now obj filePath) disk).2 := by
  have hblocked : p = .windows →
      Path.components p.isSeparator (sanitized filePath) = [['.', '.']] →
      disk.isFile (disk.cwd ++ [serializationName]) →
      disk.readOnly (disk.cwd ++ [serializationName]) = true := by
    intro hp hcomp hfile
    cases filePath with
    | none => cases hcomp
    | some s =>
      rw [← Bool.not_eq_false]
      exact fun hro => hesc ⟨hp, hcomp, hfile, hro⟩
  obtain ⟨disk', heval, hheld⟩ := held_makeFolder hdisk hblocked
  have hrest : Triple (Held p disk (sanitized filePath))
      (do
        let path ← choosePath p now filePath
        let _ ← JavaFile.createNewFile p path
        serialize p streams obj path)
      (fun _ => Held p disk (sanitized filePath)) (Held p disk (sanitized filePath)) :=
    (triple_choosePath now filePath).bind fun target => Triple.assume fun htarget =>
      (triple_createNewFile htarget).bind fun _ => triple_serialize streams obj htarget
  have hrun : serializeObj p streams now obj filePath = (do
      makeFolder p FOLDER_NM
      let path ← choosePath p now filePath
      let _ ← JavaFile.createNewFile p path
      serialize p streams obj path) := by
    simp only [serializeObj, createFile, bind_assoc, pure_bind]
  rw [hrun, eval_bind_ok _ heval]
  exact (hrest.eval_snd hheld).1

/-! ## 5. The escape -/

theorem eval_makeFolder_frame (p : Platform) (disk : Disk) (target : List Char) :
    ∃ disk', eval (makeFolder p target) disk = (.ok (), disk') ∧ disk'.cwd = disk.cwd ∧
      disk'.readOnly = disk.readOnly ∧
      ∀ loc, (disk.node loc).isSome → disk'.node loc = disk.node loc := by
  obtain ⟨disk', heval, hcases⟩ := eval_makeFolder p disk target
  refine ⟨disk', heval, ?_⟩
  rcases hcases with ⟨rfl, -⟩ | ⟨-, rfl⟩
  · exact ⟨rfl, rfl, fun _ _ => rfl⟩
  · exact ⟨FileTree.cwd_mkdirsFrom .., FileTree.readOnly_mkdirsFrom ..,
      fun _ => FileTree.node_mkdirsFrom_of_isSome _ _ _⟩

theorem eval_makePathFolder_frame (p : Platform) (disk : Disk) (filePath : List Char) :
    ∃ disk', eval (makePathFolder p filePath) disk = (.ok (), disk') ∧ disk'.cwd = disk.cwd ∧
      disk'.readOnly = disk.readOnly ∧
      ∀ loc, (disk.node loc).isSome → disk'.node loc = disk.node loc := by
  unfold makePathFolder
  split
  · exact eval_makeFolder_frame p disk _
  · exact ⟨disk, rfl, rfl, rfl, fun _ _ => rfl⟩

/-- A disk where `serialization` is a file that may be written, and a path that means `..`. -/
structure Exposed (disk : Disk) (s : List Char) : Prop where
  dotdot : Path.components Platform.windows.isSeparator (sanitize s) = [['.', '.']]
  file : disk.isFile (disk.cwd ++ [serializationName])
  writable : disk.readOnly (disk.cwd ++ [serializationName]) = false

theorem Exposed.frame {disk disk' : Disk} {s : List Char} (h : Exposed disk s)
    (hcwd : disk'.cwd = disk.cwd) (hro : disk'.readOnly = disk.readOnly)
    (hnode : ∀ loc, (disk.node loc).isSome → disk'.node loc = disk.node loc) : Exposed disk' s where
  dotdot := h.dotdot
  file := by
    obtain ⟨content, hfile⟩ := (FileTree.isFile_iff ..).mp h.file
    rw [hcwd]
    exact (FileTree.isFile_iff ..).mpr
      ⟨content, by rw [hnode _ (by rw [hfile]; rfl), hfile]⟩
  writable := by rw [hcwd, hro, h.writable]

theorem Exposed.resolve {disk : Disk} {s : List Char} (h : Exposed disk s) :
    JavaFile.resolve .windows disk (FOLDER_NM ++ sanitize s) =
      some (disk.cwd ++ [serializationName]) := by
  -- a NUL would be in a component, and the only one is `..`
  have hnul : '\x00' ∉ sanitize s := by
    intro hmem
    obtain ⟨part, hpart, hx⟩ : ∃ part ∈
        Path.components Platform.windows.isSeparator (sanitize s), '\x00' ∈ part :=
      Path.exists_mem_components hmem (by decide)
    rw [h.dotdot, List.mem_singleton] at hpart
    subst hpart
    exact absurd hx (by decide)
  rw [JavaFile.resolve, if_neg (nul_notMem_folder hnul)]
  simp only [canonical_folder, JavaFile.steps, h.dotdot]
  exact congrArg some (dropLast_folder disk)

theorem Exposed.storagePath {disk : Disk} {s : List Char} (h : Exposed disk s) (now : CivilTime) :
    storagePath now (sanitize s) = FOLDER_NM ++ sanitize s := by
  unfold SerializationUtil.storagePath
  have hmem : ['.', '.'] ∈ Path.components Platform.windows.isSeparator (sanitize s) := by
    simp [h.dotdot]
  exact if_pos (Path.mem_of_mem_components hmem (by simp))

theorem triple_write_mem_journal (change : Change Name) (loc : List Name) (bytes : List UInt8) :
    Triple (fun disk : Disk => change ∈ disk.journal) (JavaFile.write loc bytes)
      (fun _ disk => change ∈ disk.journal) (fun disk => change ∈ disk.journal) := by
  intro disk hmem
  rw [JavaFile.write, eval_ofStep]
  change change ∈ (disk.fill loc bytes).journal
  unfold FileTree.fill
  split
  · exact List.mem_append_left _ hmem
  · exact hmem

theorem Exposed.wrote {Obj : Type} (streams : ObjectStreams Obj) {disk : Disk} {s : List Char}
    (h : Exposed disk s) (obj : Obj) :
    .wrote (disk.cwd ++ [serializationName]) ∈
      (eval (serialize .windows streams obj (FOLDER_NM ++ sanitize s)) disk).2.journal := by
  obtain ⟨content, hfile⟩ := (FileTree.isFile_iff ..).mp h.file
  have hadm : disk.Admits (disk.cwd ++ [serializationName]) :=
    FileTree.admits_concat disk.cwd_dir (by rw [hfile]; simp)
  have hopen : eval (JavaFile.openOutput .windows (FOLDER_NM ++ sanitize s)) disk =
      (.ok (disk.cwd ++ [serializationName]),
        (disk.place (disk.cwd ++ [serializationName]) (.file []) hadm).record
          (.wrote (disk.cwd ++ [serializationName]))) := by
    rw [JavaFile.openOutput, eval_ofStep, h.resolve]
    simp [FileTree.openNew, hadm, h.writable]
  rw [serialize, eval_bind_ok _ hopen]
  have hrest := (triple_write_mem_journal (.wrote (disk.cwd ++ [serializationName]))
    (disk.cwd ++ [serializationName]) (streams.writeObject obj).1).bind fun _ =>
      Triple.ofExcept ((streams.writeObject obj).2.elim (.ok (FOLDER_NM ++ sanitize s)) .error)
  exact hrest.eval_snd (by simp)

theorem Exposed.createNewFile {disk : Disk} {s : List Char} (h : Exposed disk s) :
    eval (JavaFile.createNewFile .windows (FOLDER_NM ++ sanitize s)) disk = (.ok false, disk) := by
  obtain ⟨content, hfile⟩ := (FileTree.isFile_iff ..).mp h.file
  rw [JavaFile.createNewFile, eval_ofStep, h.resolve]
  simp [FileTree.createNew, hfile]

theorem wrote_of_exposed {Obj : Type} (streams : ObjectStreams Obj) {disk : Disk} {s : List Char}
    (h : Exposed disk s) (now : CivilTime) (obj : Obj) :
    .wrote (disk.cwd ++ [serializationName]) ∈
      (eval (serializeObj .windows streams now obj (some s)) disk).2.journal := by
  obtain ⟨c, cs, rfl⟩ : ∃ c cs, s = c :: cs := by
    cases s with
    | nil => exact absurd h.dotdot (by decide)
    | cons c cs => exact ⟨c, cs, rfl⟩
  obtain ⟨disk₁, heval₁, hcwd₁, hro₁, hnode₁⟩ := eval_makeFolder_frame .windows disk FOLDER_NM
  have h₁ := h.frame hcwd₁ hro₁ hnode₁
  obtain ⟨disk₂, heval₂, hcwd₂, hro₂, hnode₂⟩ :=
    eval_makePathFolder_frame .windows disk₁ (sanitize (c :: cs))
  have h₂ := h₁.frame hcwd₂ hro₂ hnode₂
  have hrun : serializeObj .windows streams now obj (some (c :: cs)) = (do
      makeFolder .windows FOLDER_NM
      makePathFolder .windows (sanitize (c :: cs))
      let _ ← JavaFile.createNewFile .windows (FOLDER_NM ++ sanitize (c :: cs))
      serialize .windows streams obj (FOLDER_NM ++ sanitize (c :: cs))) := by
    simp only [serializeObj, createFile, choosePath, h.storagePath, bind_assoc, pure_bind]
  rw [hrun, eval_bind_ok _ heval₁, eval_bind_ok _ heval₂, eval_bind_ok _ h₂.createNewFile]
  have hwrote := h₂.wrote streams obj
  rwa [hcwd₂, hcwd₁] at hwrote

/-- Storing an object makes, opens and writes in the folder only, and leaves everything outside it as
it was, exactly when the path does not escape. -/
theorem serializeObj_confined_iff {Obj : Type} (streams : ObjectStreams Obj) {disk : Disk}
    (hdisk : disk.journal = []) (now : CivilTime) (obj : Obj) (filePath : Option (List Char)) :
    ((∀ change ∈ (eval (serializeObj p streams now obj filePath) disk).2.journal,
        Confined disk.cwd change) ∧
      ∀ loc, ¬ folder disk <+: loc → loc ≠ disk.cwd ++ [serializationName] →
        (eval (serializeObj p streams now obj filePath) disk).2.node loc = disk.node loc) ↔
      ¬ Escapes p disk filePath := by
  constructor
  · rintro ⟨hjournal, -⟩ hesc
    cases filePath with
    | none => exact hesc
    | some s =>
      obtain ⟨rfl, hdotdot, hfile, hro⟩ := hesc
      obtain ⟨rest, hrest⟩ := hjournal _ (wrote_of_exposed streams ⟨hdotdot, hfile, hro⟩ now obj)
      exact absurd (congrArg List.length hrest) (by simp)
  · intro hesc
    have h := confining_serializeObj streams hdisk now obj filePath hesc
    exact ⟨h.journal, fun loc hout hloc => h.node_outside hout hloc⟩

theorem serializeObj_confined_dotdot_slash :
    ((∀ change ∈ (eval (serializeObj .windows byteStreams .epoch [1] (some "../a.ser".toList))
        FileTree.root).2.journal, Confined (FileTree.root : Disk).cwd change) ∧
      ∀ loc, ¬ folder FileTree.root <+: loc →
        loc ≠ (FileTree.root : Disk).cwd ++ [serializationName] →
        (eval (serializeObj .windows byteStreams .epoch [1] (some "../a.ser".toList))
          FileTree.root).2.node loc = (FileTree.root : Disk).node loc) ↔
      ¬ Escapes .windows FileTree.root (some "../a.ser".toList) :=
  serializeObj_confined_iff byteStreams rfl .epoch [1] (some "../a.ser".toList)

-- a working directory with a file in place of `serialization`
def fileInPlace : Disk :=
  FileTree.place FileTree.root [serializationName] (.file [0]) (by decide)

/-- On Windows the path `..` overwrites the file in place of `serialization`. -/
theorem serializeObj_dotdot_overwrites :
    ¬ ∀ change ∈ (eval (serializeObj .windows byteStreams .epoch [1] (some "..".toList))
        fileInPlace).2.journal, Confined fileInPlace.cwd change := by
  intro h
  have hexposed : Exposed fileInPlace "..".toList := by
    refine ⟨by decide, ?_, rfl⟩
    rw [FileTree.isFile_iff]
    exact ⟨[0], FileTree.node_place_self ..⟩
  have hprefix : fileInPlace.cwd ++ [serializationName, tmpName] <+:
      fileInPlace.cwd ++ [serializationName] :=
    h _ (wrote_of_exposed byteStreams hexposed .epoch [1])
  exact absurd hprefix.length_le (by simp)

end Run

end UtilsRepo.Serialization
