import UtilsRepo.Lib.Interleaving
import UtilsRepo.Serialization.Sanitize

/-!
# Storing an object step by step

`serializeObj` as the operating system sees it, one file operation at a time and one directory at a time
where several are made, so that other calls can come in between.  On its own it is `serializeObj`; among
calls that store elsewhere, what it has returned can be read back.
-/

namespace UtilsRepo.Serialization

open Fallible SerializationUtil

namespace Steps

variable (p : Platform)

abbrev Call := Process JavaException Disk

def mkdirsFrom (loc : List Name) : List Name → Call Unit
  | [] => pure ()
  | name :: names =>
      .step (·.mkdir (loc ++ [name])) fun disk =>
        if (disk.mkdir (loc ++ [name])).isDir (loc ++ [name]) then mkdirsFrom (loc ++ [name]) names
        else pure ()

-- `File.mkdirs()`
def mkdirs (path : List Char) : Call Unit :=
  .step id fun disk =>
    if '\x00' ∈ path then pure () else mkdirsFrom [] (JavaFile.canonical p disk path)

def makeFolder (path : List Char) : Call Unit := do
  if !(← .atomic (JavaFile.present p path)) then mkdirs p path

def makePathFolder (filePath : List Char) : Call Unit :=
  match lastSeparator filePath with
  | some index => makeFolder p (FOLDER_NM ++ filePath.take index)
  | none => pure ()

def choosePath (now : CivilTime) : Option (List Char) → Call (List Char)
  | none | some [] => pure (FOLDER_NM ++ idGenerator now ++ EXTENSION_NM)
  | some (c :: cs) => do
      makePathFolder p (sanitize (c :: cs))
      pure (storagePath now (sanitize (c :: cs)))

def createFile (now : CivilTime) (filePath : Option (List Char)) : Call (List Char) := do
  makeFolder p FOLDER_NM
  let path ← choosePath p now filePath
  let _ ← .atomic (JavaFile.createNewFile p path)
  return path

variable {Obj : Type} (streams : ObjectStreams Obj)

def serialize (obj : Obj) (filePath : List Char) : Call (List Char) := do
  let loc ← .atomic (JavaFile.openOutput p filePath)
  .atomic (JavaFile.write loc (streams.writeObject obj).1)
  .done ((streams.writeObject obj).2.elim (.ok filePath) .error)

def serializeObj (now : CivilTime) (obj : Obj) (filePath : Option (List Char)) :
    Call (List Char) := do
  serialize p streams obj (← createFile p now filePath)

/-! ## 1. A call on its own -/

theorem alone_mkdirsFrom (loc names : List Name) (disk : Disk) :
    (mkdirsFrom loc names).alone disk = (.ok (), disk.mkdirsFrom loc names) := by
  induction names generalizing loc disk with
  | nil => rfl
  | cons name names ih =>
    simp only [mkdirsFrom, Process.alone, FileTree.mkdirsFrom]
    split
    · exact ih ..
    · rfl

theorem alone_mkdirs (path : List Char) (disk : Disk) :
    (mkdirs p path).alone disk = eval (JavaFile.mkdirs p path) disk := by
  simp only [mkdirs, Process.alone, JavaFile.mkdirs, eval_ofStep, id]
  split
  · rfl
  · exact alone_mkdirsFrom ..

theorem alone_makeFolder (path : List Char) (disk : Disk) :
    (makeFolder p path).alone disk = eval (SerializationUtil.makeFolder p path) disk := by
  apply Process.alone_bind_eq fun _ => rfl
  intro present disk
  cases present
  · exact alone_mkdirs p path disk
  · rfl

theorem alone_makePathFolder (filePath : List Char) (disk : Disk) :
    (makePathFolder p filePath).alone disk =
      eval (SerializationUtil.makePathFolder p filePath) disk := by
  unfold makePathFolder SerializationUtil.makePathFolder
  cases lastSeparator filePath with
  | some index => exact alone_makeFolder ..
  | none => rfl

theorem alone_choosePath (now : CivilTime) (filePath : Option (List Char)) (disk : Disk) :
    (choosePath p now filePath).alone disk =
      eval (SerializationUtil.choosePath p now filePath) disk := by
  match filePath with
  | none | some [] => rfl
  | some (c :: cs) => exact Process.alone_bind_eq (alone_makePathFolder p _) (fun _ _ => rfl) disk

theorem alone_createFile (now : CivilTime) (filePath : Option (List Char)) (disk : Disk) :
    (createFile p now filePath).alone disk =
      eval (SerializationUtil.createFile p now filePath) disk := by
  apply Process.alone_bind_eq (alone_makeFolder p _)
  intro _ disk
  apply Process.alone_bind_eq (alone_choosePath p now filePath)
  intro path disk
  exact Process.alone_bind_eq (fun _ => rfl) (fun _ _ => rfl) disk

theorem alone_serialize (obj : Obj) (path : List Char) (disk : Disk) :
    (serialize p streams obj path).alone disk =
      eval (SerializationUtil.serialize p streams obj path) disk := by
  apply Process.alone_bind_eq fun _ => rfl
  intro loc disk
  apply Process.alone_bind_eq fun _ => rfl
  intro _ disk
  exact (eval_ofExcept ..).symm

/-- The steps of a call come to what `serializeObj` comes to. -/
theorem alone_serializeObj (now : CivilTime) (obj : Obj) (filePath : Option (List Char))
    (disk : Disk) :
    (serializeObj p streams now obj filePath).alone disk =
      eval (SerializationUtil.serializeObj p streams now obj filePath) disk :=
  Process.alone_bind_eq (alone_createFile p now filePath) (fun _ => alone_serialize p streams obj _)
    disk

end Steps

/-! ## 2. A call among others -/

/-- The path a call stores its object under. -/
def outputPath (now : CivilTime) : Option (List Char) → List Char
  | none | some [] => FOLDER_NM ++ idGenerator now ++ EXTENSION_NM
  | some (c :: cs) => storagePath now (sanitize (c :: cs))

/-- The file a path leads to holds the bytes. -/
structure HoldsAt (p : Platform) (path : List Char) (loc : List Name) (bytes : List UInt8)
    (disk : Disk) : Prop where
  resolve : JavaFile.resolve p disk path = some loc
  node : disk.node loc = some (.file bytes)

section Among

variable {p : Platform} {path : List Char} {loc : List Name} {bytes : List UInt8}
  {disk disk' : Disk}

theorem start_of_cwd (hcwd : disk'.cwd = disk.cwd) (path : List Char) :
    JavaFile.start p disk' path = JavaFile.start p disk path := by
  unfold JavaFile.start
  rw [hcwd]

theorem canonical_of_cwd (hcwd : disk'.cwd = disk.cwd) (path : List Char) :
    JavaFile.canonical p disk' path = JavaFile.canonical p disk path := by
  rw [JavaFile.canonical, start_of_cwd hcwd, JavaFile.canonical]

theorem resolve_of_keeps (h : FileTree.Keeps loc disk disk') {l : List Name}
    (hresolve : JavaFile.resolve p disk path = some l) :
    JavaFile.resolve p disk' path = some l := by
  unfold JavaFile.resolve at hresolve ⊢
  split at hresolve
  · cases hresolve
  · rename_i hnul
    rw [if_neg hnul]
    cases p with
    | posix =>
      simp only [start_of_cwd h.cwd]
      exact h.walk hresolve
    | windows => rw [← hresolve, canonical_of_cwd h.cwd]

theorem HoldsAt.keeps (h : HoldsAt p path loc bytes disk) (hkeeps : FileTree.Keeps loc disk disk') :
    HoldsAt p path loc bytes disk' :=
  ⟨resolve_of_keeps hkeeps h.resolve, hkeeps.file bytes h.node⟩

theorem HoldsAt.write (h : HoldsAt p path loc bytes disk) (content : List UInt8) :
    HoldsAt p path loc content (disk.fill loc content) := by
  rw [FileTree.fill_of_admits (FileTree.admits_of_file h.node)]
  refine ⟨?_, by rw [FileTree.node_record, FileTree.node_place_self]⟩
  -- the walk to the file only needs the directories, which stay
  have hne : loc ++ [[]] ≠ loc := by simp
  exact resolve_of_keeps ((FileTree.writesAt_place _ _ _).keeps hne.symm) h.resolve

/-- What is there is what is read. -/
theorem HoldsAt.deserializeObj {Obj : Type} (streams : ObjectStreams Obj) {obj : Obj}
    (h : HoldsAt p path loc bytes disk) (hread : streams.readObject bytes = .ok obj) :
    eval (SerializationUtil.deserializeObj p streams path) disk = (.ok obj, disk) := by
  have hinput : eval (JavaFile.openInput p path) disk = (.ok bytes, disk) := by
    rw [JavaFile.openInput, eval_ofStep, h.resolve, Option.bind_some, h.node]
  rw [SerializationUtil.deserializeObj, eval_bind_ok _ hinput, hread, eval_ofExcept]

end Among

namespace Steps

section Safe

variable {p : Platform} {path : List Char} {loc cwd : List Name} {disk : Disk}

/-- A call that leaves directories and the file at `loc` to others, and changes nothing else but what it
may itself: `loc`, and directories that are missing. -/
abbrev SafeAt {β : Type} (loc : List Name) (Q : β → Disk → Prop) (m : Call β) (disk : Disk) : Prop :=
  m.Safe (FileTree.Keeps loc) (FileTree.WritesAt loc) Q disk

theorem SafeAt.pure {β : Type} {Q : β → Disk → Prop} {b : β}
    (h : ∀ disk', FileTree.Keeps loc disk disk' → Q b disk') :
    SafeAt loc Q (Pure.pure b) disk := h

theorem SafeAt.bind {α β : Type} {Q : α → Disk → Prop} {Q' : β → Disk → Prop} {m : Call α}
    {f : α → Call β} (hm : SafeAt loc Q m disk)
    (hf : ∀ a disk', Q a disk' → SafeAt loc Q' (f a) disk') : SafeAt loc Q' (m >>= f) disk :=
  Process.Safe.bind (FileTree.Keeps.refl loc) hm hf

theorem safe_mkdirsFrom (hcwd : disk.cwd = cwd) (dir names : List Name) :
    SafeAt loc (fun _ disk => disk.cwd = cwd) (mkdirsFrom dir names) disk := by
  induction names generalizing dir disk with
  | nil => exact SafeAt.pure fun _ hkeeps => hkeeps.cwd.trans hcwd
  | cons name names ih =>
    intro disk' hkeeps
    refine ⟨FileTree.writesAt_mkdir .., ?_⟩
    have hcwd' : (disk'.mkdir (dir ++ [name])).cwd = cwd := by
      rw [FileTree.cwd_mkdir, hkeeps.cwd, hcwd]
    dsimp only
    split
    · exact ih hcwd' _
    · exact SafeAt.pure fun _ hkeeps' => hkeeps'.cwd.trans hcwd'

theorem safe_mkdirs (hcwd : disk.cwd = cwd) (target : List Char) :
    SafeAt loc (fun _ disk => disk.cwd = cwd) (mkdirs p target) disk := by
  intro disk' hkeeps
  refine ⟨FileTree.WritesAt.refl .., ?_⟩
  have hcwd' : disk'.cwd = cwd := hkeeps.cwd.trans hcwd
  dsimp only
  split
  · exact SafeAt.pure fun _ hkeeps' => hkeeps'.cwd.trans hcwd'
  · exact safe_mkdirsFrom hcwd' _ _

theorem safe_atomic {β : Type} {m : Fallible JavaException Disk β} (hcwd : disk.cwd = cwd)
    (hm : ∀ disk' : Disk, disk'.cwd = cwd → FileTree.WritesAt loc disk' (m.eval disk').2) :
    SafeAt loc (fun _ disk => disk.cwd = cwd) (.atomic m) disk := by
  apply Process.Safe.atomic
  · intro disk' hkeeps
    exact hm disk' (hkeeps.cwd.trans hcwd)
  · intro disk' _ disk'' hkeeps _ hkeeps'
    have hcwd' : disk'.cwd = cwd := hkeeps.cwd.trans hcwd
    rw [hkeeps'.cwd, (hm disk' hcwd').cwd, hcwd']

theorem safe_makeFolder (hcwd : disk.cwd = cwd) (target : List Char) :
    SafeAt loc (fun _ disk => disk.cwd = cwd) (makeFolder p target) disk := by
  apply SafeAt.bind (safe_atomic hcwd fun disk' _ => FileTree.WritesAt.refl ..)
  intro present disk' hcwd'
  cases present
  · exact safe_mkdirs hcwd' target
  · exact SafeAt.pure fun _ hkeeps => hkeeps.cwd.trans hcwd'

theorem safe_makePathFolder (hcwd : disk.cwd = cwd) (filePath : List Char) :
    SafeAt loc (fun _ disk => disk.cwd = cwd) (makePathFolder p filePath) disk := by
  unfold makePathFolder
  split
  · exact safe_makeFolder hcwd _
  · exact SafeAt.pure fun _ hkeeps => hkeeps.cwd.trans hcwd

theorem safe_choosePath (hcwd : disk.cwd = cwd) (now : CivilTime) (filePath : Option (List Char)) :
    SafeAt loc (fun path disk => path = outputPath now filePath ∧ disk.cwd = cwd)
      (choosePath p now filePath) disk := by
  match filePath with
  | none | some [] => exact SafeAt.pure fun _ hkeeps => ⟨rfl, hkeeps.cwd.trans hcwd⟩
  | some (c :: cs) =>
    apply SafeAt.bind (safe_makePathFolder hcwd _)
    intro _ disk' hcwd'
    exact SafeAt.pure fun _ hkeeps => ⟨rfl, hkeeps.cwd.trans hcwd'⟩

theorem safe_write {before : List UInt8} (h : HoldsAt p path loc before disk)
    (bytes : List UInt8) :
    SafeAt loc (fun _ disk => HoldsAt p path loc bytes disk) (.atomic (JavaFile.write loc bytes))
      disk := by
  apply Process.Safe.atomic
  · exact fun disk' _ => FileTree.writesAt_fill ..
  · exact fun disk' _ disk'' hkeeps _ hkeeps' => ((h.keeps hkeeps).write bytes).keeps hkeeps'

variable (hloc : ∀ disk : Disk, disk.cwd = cwd → JavaFile.canonical p disk path = loc)
include hloc

theorem writesAt_createNewFile (hcwd : disk.cwd = cwd) :
    FileTree.WritesAt loc disk (eval (JavaFile.createNewFile p path) disk).2 := by
  rw [JavaFile.createNewFile, eval_ofStep]
  cases hnew : (JavaFile.resolve p disk path).bind fun l => disk.createNew l [] with
  | none => exact FileTree.WritesAt.refl ..
  | some r =>
    obtain ⟨l, hl, hnew⟩ := Option.bind_eq_some_iff.mp hnew
    rw [eq_canonical_of_resolve p hl, hloc disk hcwd] at hnew
    exact FileTree.writesAt_createNew hnew

theorem openOutput_cases (hcwd : disk.cwd = cwd) :
    eval (JavaFile.openOutput p path) disk = (.error JavaFile.fileNotFoundException, disk) ∨
      ∃ disk', eval (JavaFile.openOutput p path) disk = (.ok loc, disk') ∧
        FileTree.WritesAt loc disk disk' ∧ HoldsAt p path loc [] disk' ∧
          disk.readOnly loc = false := by
  rw [JavaFile.openOutput, eval_ofStep]
  cases hopen : (JavaFile.resolve p disk path).bind fun l => (disk.openNew l []).map (l, ·) with
  | none => exact .inl rfl
  | some r =>
    obtain ⟨l, hl, hmap⟩ := Option.bind_eq_some_iff.mp hopen
    obtain ⟨disk', hopen', rfl⟩ := Option.map_eq_some_iff.mp hmap
    obtain rfl : l = loc := by rw [eq_canonical_of_resolve p hl, hloc disk hcwd]
    have hwrites := FileTree.writesAt_openNew hopen'
    obtain ⟨hadm, hro, rfl⟩ := FileTree.openNew_cases hopen'
    have hnode : ((disk.place l (.file []) hadm).record (.wrote l)).node l = some (.file []) :=
      FileTree.node_place_self _ _ _ hadm
    refine .inr ⟨_, rfl, hwrites, ⟨?_, hnode⟩, hro⟩
    -- nothing the path leads through has changed: all of it are directories
    have hne : l ++ [[]] ≠ l := by simp
    exact resolve_of_keeps (hwrites.keeps hne.symm) hl

theorem safe_openOutput (hcwd : disk.cwd = cwd) :
    SafeAt loc (fun l disk => l = loc ∧ HoldsAt p path loc [] disk)
      (.atomic (JavaFile.openOutput p path)) disk := by
  apply Process.Safe.atomic
  · intro disk' hkeeps
    rcases openOutput_cases hloc (hkeeps.cwd.trans hcwd) with heval | ⟨_, heval, hwrites, -⟩
    · rw [heval]
      exact FileTree.WritesAt.refl ..
    · rwa [heval]
  · intro disk' l disk'' hkeeps hok hkeeps'
    rcases openOutput_cases hloc (hkeeps.cwd.trans hcwd) with heval | ⟨_, heval, -, hholds, -⟩
    · rw [heval] at hok
      cases hok
    · rw [heval] at hok hkeeps'
      cases hok
      exact ⟨rfl, hholds.keeps hkeeps'⟩

variable {Obj : Type} (streams : ObjectStreams Obj)

theorem safe_serialize (hcwd : disk.cwd = cwd) (obj : Obj) :
    SafeAt loc (fun r disk => r = path ∧ HoldsAt p path loc (streams.writeObject obj).1 disk)
      (serialize p streams obj path) disk := by
  apply SafeAt.bind (safe_openOutput hloc hcwd)
  rintro l disk₁ ⟨rfl, h₁⟩
  apply SafeAt.bind (safe_write h₁ _)
  intro _ disk₂ h₂
  cases (streams.writeObject obj).2 with
  | none => exact SafeAt.pure fun _ hkeeps => ⟨rfl, h₂.keeps hkeeps⟩
  | some e => exact True.intro

end Safe

-- where the path leads from the working directory, which no call changes
def outputLocation (p : Platform) (disk : Disk) (now : CivilTime) (filePath : Option (List Char)) :
    List Name :=
  JavaFile.canonical p disk (outputPath now filePath)

theorem safe_createFile (p : Platform) (now : CivilTime) (filePath : Option (List Char))
    (disk : Disk) :
    SafeAt (outputLocation p disk now filePath)
      (fun path disk' => path = outputPath now filePath ∧ disk'.cwd = disk.cwd)
      (createFile p now filePath) disk := by
  apply SafeAt.bind (safe_makeFolder rfl FOLDER_NM)
  intro _ disk₁ hcwd₁
  apply SafeAt.bind (safe_choosePath hcwd₁ now filePath)
  rintro path disk₂ ⟨rfl, hcwd₂⟩
  apply SafeAt.bind (safe_atomic hcwd₂ fun _ hcwd =>
    writesAt_createNewFile (fun _ h => canonical_of_cwd h _) hcwd)
  intro _ disk₃ hcwd₃
  exact SafeAt.pure fun _ hkeeps => ⟨rfl, hkeeps.cwd.trans hcwd₃⟩

/-- The call returns the path it has to store under, and what it has written stays there. -/
theorem safe_serializeObj (p : Platform) {Obj : Type} (streams : ObjectStreams Obj) (now : CivilTime)
    (obj : Obj) (filePath : Option (List Char)) (disk : Disk) :
    SafeAt (outputLocation p disk now filePath)
      (fun r disk' => r = outputPath now filePath ∧
        HoldsAt p (outputPath now filePath) (outputLocation p disk now filePath)
          (streams.writeObject obj).1 disk')
      (serializeObj p streams now obj filePath) disk := by
  apply SafeAt.bind (safe_createFile p now filePath disk)
  rintro path disk' ⟨rfl, hcwd⟩
  exact safe_serialize (fun _ h => canonical_of_cwd h _) streams hcwd obj

end Steps

/-- What `createFile` returns is the path chosen. -/
theorem outputPath_of_createFile {p : Platform} {now : CivilTime} {filePath : Option (List Char)}
    {disk disk' : Disk} {path : List Char}
    (h : eval (createFile p now filePath) disk = (.ok path, disk')) :
    path = outputPath now filePath ∧ disk'.cwd = disk.cwd := by
  rw [← Steps.alone_createFile] at h
  exact (Steps.safe_createFile p now filePath disk).alone (FileTree.Keeps.refl _) h

/-- What `serializeObj` returns is the path the object can be read back from. -/
theorem deserializeObj_of_serializeObj {p : Platform} {Obj : Type} {streams : ObjectStreams Obj}
    {now : CivilTime} {obj : Obj} {filePath : Option (List Char)} {disk disk' : Disk}
    {path : List Char} {bytes : List UInt8}
    (h : eval (serializeObj p streams now obj filePath) disk = (.ok path, disk'))
    (hwrite : streams.writeObject obj = (bytes, none)) (hread : streams.readObject bytes = .ok obj) :
    path = outputPath now filePath ∧
      eval (deserializeObj p streams path) disk' = (.ok obj, disk') := by
  rw [← Steps.alone_serializeObj] at h
  obtain ⟨rfl, hholds⟩ := (Steps.safe_serializeObj p streams now obj filePath disk).alone
    (FileTree.Keeps.refl _) h
  rw [hwrite] at hholds
  exact ⟨rfl, hholds.deserializeObj streams hread⟩

end UtilsRepo.Serialization
