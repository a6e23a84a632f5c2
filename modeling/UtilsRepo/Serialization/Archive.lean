import UtilsRepo.Lib.Simulation
import UtilsRepo.Serialization.Confinement
import UtilsRepo.Serialization.Steps

/-!
# The archive behind the paths

What the callers of `SerializationUtil` may rely on, whatever the disk is like and in whatever order they
store, read and clone: bytes are kept at locations, a location holds what was last written there, and a
path that has been returned can be read from then on.
-/

namespace UtilsRepo.Serialization

open Fallible SerializationUtil

/-! ## 1. The archive -/

/-- A call of one of the public methods, where `none` is `null`; `serializeObj(T obj)` is the first with
a path of its own. -/
inductive Operation (Obj : Type) where
  | serializeObj (now : CivilTime) (obj : Option Obj) (filePath : Option (List Char))
  | deserializeObj (filePath : Option (List Char))
  | cloneObj (obj : Option Obj)

inductive Answer (Obj : Type) where
  | path (result : Except JavaException (List Char))
  | object (result : Except JavaException (Option Obj))
  deriving DecidableEq

-- `new FileInputStream((String) null)`
def nullPath : JavaException := ⟨.nullPointerException, none⟩

/-- The bytes at each location, and the paths returned, all of which have bytes. -/
structure Archive {Loc : Type} (locate : List Char → Loc) where
  content : Loc → Option (List UInt8)
  returned : List (List Char)
  kept : ∀ path ∈ returned, (content (locate path)).isSome

namespace Archive

variable {Loc : Type} {locate : List Char → Loc}

/-- Before the first call. -/
def found (content : Loc → Option (List UInt8)) : Archive locate where
  content := content
  returned := []
  kept := by simp

variable [DecidableEq Loc]

def put (a : Archive locate) (path : List Char) (bytes : List UInt8) : Archive locate where
  content := Function.update a.content (locate path) (some bytes)
  returned := a.returned
  kept path' hpath' := by
    by_cases hloc : locate path' = locate path
    · rw [hloc, Function.update_self]
      rfl
    · rw [Function.update_of_ne hloc]
      exact a.kept path' hpath'

@[simp] theorem content_put (a : Archive locate) (path : List Char) (bytes : List UInt8) :
    (a.put path bytes).content = Function.update a.content (locate path) (some bytes) := rfl

def store (a : Archive locate) (path : List Char) (bytes : List UInt8) : Archive locate where
  content := (a.put path bytes).content
  returned := path :: a.returned
  kept := by
    rw [List.forall_mem_cons]
    refine ⟨?_, (a.put path bytes).kept⟩
    rw [content_put, Function.update_self]
    rfl

/-- What may be answered, and what becomes of the archive. -/
inductive Step {Obj : Type} (streams : ObjectStreams (Option Obj)) :
    Archive locate → Operation Obj → Answer Obj → Archive locate → Prop
  /-- The file cannot be made or opened, where nothing was ever stored: nothing is lost. -/
  | refuse {a : Archive locate} {now : CivilTime} {obj : Option Obj} {filePath : Option (List Char)}
      {e : JavaException} (h : outputPath now filePath ∉ a.returned)
      (he : e = JavaFile.ioException ∨ e = JavaFile.fileNotFoundException) :
      Step streams a (.serializeObj now obj filePath) (.path (.error e)) a
  | store {a : Archive locate} {now : CivilTime} {obj : Option Obj} {filePath : Option (List Char)}
      {bytes : List UInt8} (h : streams.writeObject obj = (bytes, none)) :
      Step streams a (.serializeObj now obj filePath) (.path (.ok (outputPath now filePath)))
        (a.store (outputPath now filePath) bytes)
  /-- The object cannot be written: what was there before is lost. -/
  | spoil {a : Archive locate} {now : CivilTime} {obj : Option Obj} {filePath : Option (List Char)}
      {bytes : List UInt8} {e : JavaException} (h : streams.writeObject obj = (bytes, some e)) :
      Step streams a (.serializeObj now obj filePath) (.path (.error e))
        (a.put (outputPath now filePath) bytes)
  | read {a : Archive locate} {path : List Char} {bytes : List UInt8}
      (h : a.content (locate path) = some bytes) :
      Step streams a (.deserializeObj (some path)) (.object (streams.readObject bytes)) a
  /-- Only a path that was never returned may lead nowhere. -/
  | miss {a : Archive locate} {path : List Char} (h : path ∉ a.returned) :
      Step streams a (.deserializeObj (some path))
        (.object (.error JavaFile.fileNotFoundException)) a
  | nowhere {a : Archive locate} :
      Step streams a (.deserializeObj none) (.object (.error nullPath)) a
  | clone {a : Archive locate} {obj : Option Obj} :
      Step streams a (.cloneObj obj) (.object (SerializationUtil.cloneObj streams obj)) a

end Archive

/-! ## 2. The disk keeps an archive -/

section Answer

variable (p : Platform) {Obj : Type} (streams : ObjectStreams (Option Obj))

def answer (disk : Disk) : Operation Obj → Answer Obj × Disk
  | .serializeObj now obj filePath =>
      let r := eval (serializeObj p streams now obj filePath) disk
      (.path r.1, r.2)
  | .deserializeObj (some filePath) =>
      let r := eval (deserializeObj p streams filePath) disk
      (.object r.1, r.2)
  | .deserializeObj none => (.object (.error nullPath), disk)
  | .cloneObj obj => (.object (cloneObj streams obj), disk)

end Answer

variable {p : Platform} {disk disk' : Disk} {path : List Char}

/-- Directories are made at most. -/
def MakesDirs (disk disk' : Disk) : Prop :=
  ∀ loc, FileTree.WritesAt loc disk disk'

theorem MakesDirs.refl (disk : Disk) : MakesDirs disk disk :=
  fun loc => FileTree.WritesAt.refl loc disk

theorem MakesDirs.trans {disk'' : Disk} (h : MakesDirs disk disk') (h' : MakesDirs disk' disk'') :
    MakesDirs disk disk'' :=
  fun loc => (h loc).trans (h' loc)

theorem MakesDirs.content (h : MakesDirs disk disk') : disk'.content = disk.content := by
  funext l
  have hne : l ≠ l ++ [[]] := by simp
  exact (h _).content_of_ne hne

theorem makesDirs_makeFolder (p : Platform) (disk : Disk) (target : List Char) :
    ∃ disk', eval (makeFolder p target) disk = (.ok (), disk') ∧ MakesDirs disk disk' := by
  obtain ⟨disk', heval, hcases⟩ := eval_makeFolder p disk target
  refine ⟨disk', heval, ?_⟩
  rcases hcases with ⟨rfl, -⟩ | ⟨-, rfl⟩
  · exact MakesDirs.refl disk'
  · exact fun loc => FileTree.writesAt_mkdirs ..

theorem makesDirs_choosePath (p : Platform) (now : CivilTime) (filePath : Option (List Char))
    (disk : Disk) :
    ∃ disk', eval (choosePath p now filePath) disk = (.ok (outputPath now filePath), disk') ∧
      MakesDirs disk disk' := by
  match filePath with
  | none | some [] => exact ⟨disk, rfl, MakesDirs.refl disk⟩
  | some (c :: cs) =>
    rw [choosePath, makePathFolder]
    split
    · obtain ⟨disk', heval, hmakes⟩ := makesDirs_makeFolder p disk _
      exact ⟨disk', eval_bind_ok _ heval, hmakes⟩
    · exact ⟨disk, rfl, MakesDirs.refl disk⟩

/-- The file a path leads to is written, and nothing else but directories made. -/
structure Stores (p : Platform) (path : List Char) (bytes : List UInt8) (disk disk' : Disk) :
    Prop where
  writesAt : FileTree.WritesAt (JavaFile.canonical p disk path) disk disk'
  holdsAt : HoldsAt p path (JavaFile.canonical p disk path) bytes disk'
  writable : disk.readOnly (JavaFile.canonical p disk path) = false

theorem Stores.content {bytes : List UInt8} (h : Stores p path bytes disk disk') :
    disk'.content = Function.update disk.content (JavaFile.canonical p disk path) (some bytes) :=
  h.writesAt.content h.holdsAt.node

theorem Stores.after {disk'' : Disk} {bytes : List UInt8} (h : Stores p path bytes disk' disk'')
    (hwrites : FileTree.WritesAt (JavaFile.canonical p disk path) disk disk') :
    Stores p path bytes disk disk'' := by
  have hloc : JavaFile.canonical p disk' path = JavaFile.canonical p disk path :=
    canonical_of_cwd hwrites.cwd path
  obtain ⟨hwrites', hholds, hro⟩ := h
  rw [hloc] at hwrites' hholds hro
  exact ⟨hwrites.trans hwrites', hholds, hwrites.readOnly ▸ hro⟩

theorem resolve_of_writesAt {loc l : List Name} (h : FileTree.WritesAt loc disk disk')
    (hresolve : JavaFile.resolve p disk path = some l) :
    JavaFile.resolve p disk' path = some l := by
  -- a path only needs the directories, and those stay
  have hne : loc ≠ loc ++ [[]] := by simp
  exact resolve_of_keeps (h.keeps hne) hresolve

/-- A file that is there is not made again. -/
theorem createNewFile_of_holdsAt {loc : List Name} {bytes : List UInt8}
    (h : HoldsAt p path loc bytes disk) :
    eval (JavaFile.createNewFile p path) disk = (.ok false, disk) := by
  rw [JavaFile.createNewFile, eval_ofStep, h.resolve, Option.bind_some,
    FileTree.createNew_of_isSome (by rw [h.node]; rfl)]

theorem openOutput_of_holdsAt {loc : List Name} {bytes : List UInt8}
    (h : HoldsAt p path loc bytes disk) (hro : disk.readOnly loc = false) :
    eval (JavaFile.openOutput p path) disk ≠ (.error JavaFile.fileNotFoundException, disk) := by
  rw [JavaFile.openOutput, eval_ofStep, h.resolve, Option.bind_some,
    FileTree.openNew_of_admits (FileTree.admits_of_file h.node) hro, Option.map_some]
  intro heq
  cases heq

section Cases

variable {Obj : Type} (streams : ObjectStreams Obj)

theorem serialize_cases (p : Platform) (obj : Obj) (path : List Char) (disk : Disk) :
    eval (JavaFile.openOutput p path) disk = (.error JavaFile.fileNotFoundException, disk) ∨
      ∃ disk', eval (serialize p streams obj path) disk =
        ((streams.writeObject obj).2.elim (.ok path) .error, disk') ∧
          Stores p path (streams.writeObject obj).1 disk disk' := by
  have hloc : ∀ d : Disk, d.cwd = disk.cwd →
      JavaFile.canonical p d path = JavaFile.canonical p disk path :=
    fun d hcwd => canonical_of_cwd hcwd path
  rcases Steps.openOutput_cases hloc rfl with herror | ⟨disk₁, heval, hwrites, hholds, hro⟩
  · exact .inl herror
  · refine .inr ⟨disk₁.fill (JavaFile.canonical p disk path) (streams.writeObject obj).1, ?_, ?_⟩
    · have hwrite : eval (JavaFile.write (JavaFile.canonical p disk path)
          (streams.writeObject obj).1) disk₁ = (.ok (), disk₁.fill _ _) := rfl
      rw [serialize, eval_bind_ok _ heval, eval_bind_ok _ hwrite, eval_ofExcept]
    · exact ⟨hwrites.trans (FileTree.writesAt_fill ..), hholds.write _, hro⟩

/-- A file that could be made can be opened. -/
theorem openOutput_of_createNewFile
    (h : eval (JavaFile.createNewFile p path) disk = (.ok true, disk')) :
    eval (JavaFile.openOutput p path) disk' ≠
      (.error JavaFile.fileNotFoundException, disk') := by
  rw [JavaFile.createNewFile, eval_ofStep] at h
  split at h
  case h_2 => cases h
  case h_1 made disk₁ hnew =>
    cases h
    obtain ⟨loc, hresolve, hnew⟩ := Option.bind_eq_some_iff.mp hnew
    have hresolve' := resolve_of_writesAt (FileTree.writesAt_createNew hnew) hresolve
    rcases FileTree.createNew_cases hnew with ⟨hmade, -⟩ | ⟨-, hadm, -, hro, rfl⟩
    · cases hmade
    · have hnode : ((disk.place loc (.file []) hadm).record (.madeFile loc)).node loc =
          some (.file []) := FileTree.node_place_self _ _ _ hadm
      exact openOutput_of_holdsAt ⟨hresolve', hnode⟩ hro

theorem createNewFile_cases (p : Platform) (path : List Char) (disk : Disk) :
    eval (JavaFile.createNewFile p path) disk = (.error JavaFile.ioException, disk) ∨
      eval (JavaFile.createNewFile p path) disk = (.ok false, disk) ∨
        ∃ disk', eval (JavaFile.createNewFile p path) disk = (.ok true, disk') ∧
          FileTree.WritesAt (JavaFile.canonical p disk path) disk disk' := by
  have hloc : ∀ d : Disk, d.cwd = disk.cwd →
      JavaFile.canonical p d path = JavaFile.canonical p disk path :=
    fun d hcwd => canonical_of_cwd hcwd path
  have hwrites := Steps.writesAt_createNewFile hloc rfl
  rw [JavaFile.createNewFile, eval_ofStep] at hwrites ⊢
  split
  case h_2 => exact .inl rfl
  case h_1 made disk' hnew =>
    obtain ⟨l, -, hcreate⟩ := Option.bind_eq_some_iff.mp hnew
    rw [hnew] at hwrites
    rcases FileTree.createNew_cases hcreate with ⟨rfl, rfl, -⟩ | ⟨rfl, -⟩
    · exact .inr (.inl rfl)
    · exact .inr (.inr ⟨disk', rfl, hwrites⟩)

/-- A call either fails before anything is written, at a path that has no file to be written, or comes to
writing the object. -/
theorem serializeObj_cases (p : Platform) (now : CivilTime) (obj : Obj)
    (filePath : Option (List Char)) (disk : Disk) :
    (∃ e disk', eval (serializeObj p streams now obj filePath) disk = (.error e, disk') ∧
        (e = JavaFile.ioException ∨ e = JavaFile.fileNotFoundException) ∧ MakesDirs disk disk' ∧
          ∀ loc bytes, HoldsAt p (outputPath now filePath) loc bytes disk' →
            disk'.readOnly loc = true) ∨
      ∃ disk', eval (serializeObj p streams now obj filePath) disk =
        ((streams.writeObject obj).2.elim (.ok (outputPath now filePath)) .error, disk') ∧
          Stores p (outputPath now filePath) (streams.writeObject obj).1 disk disk' := by
  obtain ⟨disk₁, hfolder, hmakes₁⟩ := makesDirs_makeFolder p disk FOLDER_NM
  obtain ⟨disk₂, hpath, hmakes₂⟩ := makesDirs_choosePath p now filePath disk₁
  have hmakes := hmakes₁.trans hmakes₂
  simp only [serializeObj, createFile, bind_assoc, pure_bind]
  rw [eval_bind_ok _ hfolder, eval_bind_ok _ hpath]
  generalize outputPath now filePath = path
  rcases createNewFile_cases p path disk₂ with hcreate | hcreate | ⟨disk₃, hcreate, hwrites⟩
  · refine .inl ⟨_, disk₂, eval_bind_error _ hcreate, .inl rfl, hmakes, fun loc bytes hholds => ?_⟩
    rw [createNewFile_of_holdsAt hholds] at hcreate
    cases hcreate
  · rw [eval_bind_ok _ hcreate]
    rcases serialize_cases streams p obj path disk₂ with hopen | ⟨disk', heval, hstores⟩
    · refine .inl ⟨_, disk₂, eval_bind_error _ hopen, .inr rfl, hmakes, fun loc bytes hholds => ?_⟩
      exact Bool.of_not_eq_false fun hro => openOutput_of_holdsAt hholds hro hopen
    · exact .inr ⟨disk', heval, hstores.after (hmakes _)⟩
  · rw [eval_bind_ok _ hcreate]
    rcases serialize_cases streams p obj path disk₃ with hopen | ⟨disk', heval, hstores⟩
    · exact absurd hopen (openOutput_of_createNewFile hcreate)
    · exact .inr ⟨disk', heval, (hstores.after hwrites).after (hmakes _)⟩

end Cases

theorem openInput_cases (p : Platform) (path : List Char) (disk : Disk) :
    (∃ bytes, eval (JavaFile.openInput p path) disk = (.ok bytes, disk) ∧
        disk.content (JavaFile.canonical p disk path) = some bytes) ∨
      eval (JavaFile.openInput p path) disk = (.error JavaFile.fileNotFoundException, disk) ∧
        ∀ loc bytes, ¬ HoldsAt p path loc bytes disk := by
  rw [JavaFile.openInput, eval_ofStep]
  split
  case h_1 bytes hnode =>
    obtain ⟨loc, hresolve, hnode⟩ := Option.bind_eq_some_iff.mp hnode
    rw [eq_canonical_of_resolve p hresolve] at hnode
    exact .inl ⟨bytes, rfl, FileTree.content_eq_some.mpr hnode⟩
  case h_2 hnone =>
    refine .inr ⟨rfl, fun loc bytes hholds => hnone bytes ?_⟩
    rw [hholds.resolve, Option.bind_some, hholds.node]

/-! ## 3. Every run -/

variable {Obj : Type} (streams : ObjectStreams (Option Obj))

/-- The archive is what the disk holds, and the paths returned lead where they led. -/
structure Behind (p : Platform) (disk₀ disk : Disk) (a : Archive (JavaFile.canonical p disk₀)) :
    Prop where
  cwd : disk.cwd = disk₀.cwd
  content : disk.content = a.content
  resolve : ∀ path ∈ a.returned,
    JavaFile.resolve p disk path = some (JavaFile.canonical p disk₀ path)
  writable : ∀ path ∈ a.returned, disk.readOnly (JavaFile.canonical p disk₀ path) = false

namespace Behind

variable {disk₀ : Disk} {a : Archive (JavaFile.canonical p disk₀)}

theorem start (p : Platform) (disk₀ : Disk) : Behind p disk₀ disk₀ (.found disk₀.content) where
  cwd := rfl
  content := rfl
  resolve _ hpath := nomatch hpath
  writable _ hpath := nomatch hpath

theorem canonical (h : Behind p disk₀ disk a) (path : List Char) :
    JavaFile.canonical p disk path = JavaFile.canonical p disk₀ path :=
  canonical_of_cwd h.cwd path

theorem makesDirs (h : Behind p disk₀ disk a) (hmakes : MakesDirs disk disk') :
    Behind p disk₀ disk' a where
  cwd := (hmakes []).cwd.trans h.cwd
  content := hmakes.content.trans h.content
  resolve path hpath := resolve_of_writesAt (hmakes []) (h.resolve path hpath)
  writable path hpath := by rw [(hmakes []).readOnly, h.writable path hpath]

theorem put (h : Behind p disk₀ disk a) {bytes : List UInt8}
    (hstores : Stores p path bytes disk disk') : Behind p disk₀ disk' (a.put path bytes) where
  cwd := hstores.writesAt.cwd.trans h.cwd
  content := by rw [hstores.content, h.content, h.canonical, Archive.content_put]
  resolve path' hpath' := resolve_of_writesAt hstores.writesAt (h.resolve path' hpath')
  writable path' hpath' := by rw [hstores.writesAt.readOnly, h.writable path' hpath']

theorem store (h : Behind p disk₀ disk a) {bytes : List UInt8}
    (hstores : Stores p path bytes disk disk') : Behind p disk₀ disk' (a.store path bytes) where
  cwd := (h.put hstores).cwd
  content := (h.put hstores).content
  resolve := by
    show ∀ path' ∈ path :: a.returned, _
    rw [List.forall_mem_cons, ← h.canonical]
    exact ⟨hstores.holdsAt.resolve, (h.put hstores).resolve⟩
  writable := by
    show ∀ path' ∈ path :: a.returned, _
    rw [List.forall_mem_cons, hstores.writesAt.readOnly, ← h.canonical]
    refine ⟨hstores.writable, fun path' hpath' => ?_⟩
    rw [h.writable path' hpath']

/-- A path returned leads to a file. -/
theorem exists_holdsAt (h : Behind p disk₀ disk a) (hpath : path ∈ a.returned) :
    ∃ bytes, HoldsAt p path (JavaFile.canonical p disk₀ path) bytes disk := by
  obtain ⟨bytes, hbytes⟩ := Option.isSome_iff_exists.mp (a.kept path hpath)
  rw [← h.content] at hbytes
  exact ⟨bytes, h.resolve path hpath, FileTree.content_eq_some.mp hbytes⟩

theorem serializeObj (h : Behind p disk₀ disk a) (now : CivilTime) (obj : Option Obj)
    (filePath : Option (List Char)) :
    ∃ a', Archive.Step streams a (.serializeObj now obj filePath)
        (answer p streams disk (.serializeObj now obj filePath)).1 a' ∧
      Behind p disk₀ (answer p streams disk (.serializeObj now obj filePath)).2 a' := by
  simp only [answer]
  rcases serializeObj_cases streams p now obj filePath disk with
    ⟨e, disk', heval, he, hmakes, hreadOnly⟩ | ⟨disk', heval, hstores⟩
  · rw [heval]
    have hbehind := h.makesDirs hmakes
    refine ⟨a, .refuse (fun hreturned => ?_) he, hbehind⟩
    -- where something was stored before, there is a file that can be written
    obtain ⟨bytes, hholds⟩ := hbehind.exists_holdsAt hreturned
    have hro := hbehind.writable _ hreturned
    rw [hreadOnly _ bytes hholds] at hro
    cases hro
  · rw [heval]
    cases hwrite : streams.writeObject obj with
    | mk bytes thrown =>
      rw [hwrite] at hstores
      cases thrown with
      | none => exact ⟨_, .store hwrite, h.store hstores⟩
      | some e => exact ⟨_, .spoil hwrite, h.put hstores⟩

theorem deserializeObj (h : Behind p disk₀ disk a) (path : List Char) :
    Archive.Step streams a (.deserializeObj (some path))
        (answer p streams disk (.deserializeObj (some path))).1 a ∧
      (answer p streams disk (.deserializeObj (some path))).2 = disk := by
  simp only [answer, SerializationUtil.deserializeObj]
  rcases openInput_cases p path disk with ⟨bytes, hinput, hbytes⟩ | ⟨hinput, hnot⟩
  · rw [eval_bind_ok _ hinput, eval_ofExcept]
    rw [h.content, h.canonical] at hbytes
    exact ⟨.read hbytes, rfl⟩
  · rw [eval_bind_error _ hinput]
    refine ⟨.miss fun hreturned => ?_, rfl⟩
    obtain ⟨bytes, hholds⟩ := h.exists_holdsAt hreturned
    exact hnot _ bytes hholds

theorem answer (h : Behind p disk₀ disk a) (operation : Operation Obj) :
    ∃ a', Archive.Step streams a operation (answer p streams disk operation).1 a' ∧
      Behind p disk₀ (Serialization.answer p streams disk operation).2 a' := by
  match operation with
  | .serializeObj now obj filePath => exact h.serializeObj streams now obj filePath
  | .deserializeObj (some path) =>
    obtain ⟨hstep, hdisk⟩ := h.deserializeObj streams path
    exact ⟨a, hstep, hdisk.symm ▸ h⟩
  | .deserializeObj none => exact ⟨a, .nowhere, h⟩
  | .cloneObj obj => exact ⟨a, .clone, h⟩

end Behind

/-- Whatever is called in whatever order, the answers are those of an archive, and the files hold what it
holds. -/
theorem archived (p : Platform) (disk : Disk) (operations : List (Operation Obj)) :
    ∃ a, Simulation.Allows (Archive.Step streams) (.found disk.content)
        (Simulation.run (answer p streams) disk operations).1 a ∧
      Behind p disk (Simulation.run (answer p streams) disk operations).2 a :=
  Simulation.allows_run (fun _ _ operation h => h.answer streams operation) (Behind.start p disk)
    operations

/-! ## 4. What a returned path reads -/

variable {streams}

namespace Archive.Step

variable {Loc : Type} [DecidableEq Loc] {locate : List Char → Loc} {a a' : Archive locate}
  {operation : Operation Obj} {reply : Answer Obj} {loc : Loc}

theorem content_eq (h : Archive.Step streams a operation reply a')
    (helsewhere : ∀ now obj filePath, operation = .serializeObj now obj filePath →
      locate (outputPath now filePath) ≠ loc) : a'.content loc = a.content loc := by
  cases h with
  | refuse | read | miss | nowhere | clone => rfl
  | store | spoil => exact Function.update_of_ne (helsewhere _ _ _ rfl).symm _ _

theorem returned_subset (h : Archive.Step streams a operation reply a') :
    a.returned ⊆ a'.returned := by
  cases h with
  | refuse | read | miss | nowhere | clone | spoil => exact List.Subset.refl _
  | store => exact List.subset_cons_self ..

end Archive.Step

/-- The object stored under a path is there. -/
structure Archive.Has {Loc : Type} {locate : List Char → Loc} (a : Archive locate)
    (path : List Char) (bytes : List UInt8) : Prop where
  content : a.content (locate path) = some bytes
  returned : path ∈ a.returned

theorem Archive.Has.reply {Loc : Type} [DecidableEq Loc] {locate : List Char → Loc}
    {a a' : Archive locate} {bytes : List UInt8} {reply : Answer Obj} (h : a.Has path bytes)
    (hstep : Archive.Step streams a (.deserializeObj (some path)) reply a') :
    reply = .object (streams.readObject bytes) := by
  cases hstep with
  | read hbytes =>
    have hsame := hbytes.symm.trans h.content
    rw [Option.some.inj hsame]
  | miss hnot => exact absurd h.returned hnot

theorem Archive.Step.has {Loc : Type} [DecidableEq Loc] {locate : List Char → Loc}
    {a a' : Archive locate} {now : CivilTime} {obj : Option Obj} {filePath : Option (List Char)}
    (hstep : Archive.Step streams a (.serializeObj now obj filePath) (.path (.ok path)) a') :
    ∃ bytes, streams.writeObject obj = (bytes, none) ∧ a'.Has path bytes := by
  cases hstep with
  | store hwrite => exact ⟨_, hwrite, Function.update_self .., List.mem_cons_self⟩

variable (streams) in
/-- A path that has been returned reads what was written there, be it `null`, whatever was done before,
and whatever is done afterwards that does not store at the same place. -/
theorem reload (p : Platform) (disk : Disk) (before between : List (Operation Obj))
    (now : CivilTime) (obj : Option Obj) (filePath : Option (List Char))
    (hstored : (answer p streams (Simulation.run (answer p streams) disk before).2
      (.serializeObj now obj filePath)).1 = .path (.ok path))
    (helsewhere : ∀ now' obj' filePath', .serializeObj now' obj' filePath' ∈ between →
      JavaFile.canonical p disk (outputPath now' filePath') ≠ JavaFile.canonical p disk path) :
    ∃ bytes, streams.writeObject obj = (bytes, none) ∧
      (answer p streams (Simulation.run (answer p streams) disk
        (before ++ .serializeObj now obj filePath :: between)).2 (.deserializeObj (some path))).1 =
        .object (streams.readObject bytes) := by
  obtain ⟨a, -, hbehind⟩ := Simulation.allows_run
    (fun _ _ operation h => h.answer streams operation) (Behind.start p disk) before
  rw [Simulation.snd_run_append, Simulation.snd_run_cons]
  generalize (Simulation.run (answer p streams) disk before).2 = disk₁ at hstored hbehind ⊢
  obtain ⟨a₁, hstep, hbehind₁⟩ := hbehind.answer streams (.serializeObj now obj filePath)
  rw [hstored] at hstep
  obtain ⟨bytes, hwrite, hhas⟩ := hstep.has
  generalize (answer p streams disk₁ (.serializeObj now obj filePath)).2 = disk₂ at hbehind₁ ⊢
  obtain ⟨a₂, hallows, hbehind₂⟩ :=
    Simulation.allows_run (fun _ _ operation h => h.answer streams operation) hbehind₁ between
  -- what is stored elsewhere leaves the object there
  have hhas₂ : a₂.Has path bytes := by
    refine hallows.keeps (P := fun a => a.Has path bytes) (fun t io t' hmem hnext ht => ?_) hhas
    have hoperation : io.1 ∈ between := by
      rw [← Simulation.map_fst_run (answer p streams) disk₂ between]
      exact List.mem_map_of_mem hmem
    refine ⟨(hnext.content_eq fun now' obj' filePath' heq => ?_).trans ht.content,
      hnext.returned_subset ht.returned⟩
    exact helsewhere now' obj' filePath' (heq ▸ hoperation)
  exact ⟨bytes, hwrite, hhas₂.reply (hbehind₂.deserializeObj streams path).1⟩

variable (streams) in
/-- For an object other than `null`, which `cloneObj` refuses, that is what `cloneObj` makes of it. -/
theorem reload_eq_clone (p : Platform) (disk : Disk) (before between : List (Operation Obj))
    (now : CivilTime) (obj : Obj) (filePath : Option (List Char))
    (hstored : (answer p streams (Simulation.run (answer p streams) disk before).2
      (.serializeObj now (some obj) filePath)).1 = .path (.ok path))
    (helsewhere : ∀ now' obj' filePath', .serializeObj now' obj' filePath' ∈ between →
      JavaFile.canonical p disk (outputPath now' filePath') ≠ JavaFile.canonical p disk path) :
    (answer p streams (Simulation.run (answer p streams) disk
        (before ++ .serializeObj now (some obj) filePath :: between)).2
        (.deserializeObj (some path))).1 =
      .object (cloneObj streams (some obj)) := by
  obtain ⟨bytes, hwrite, hreply⟩ :=
    reload streams p disk before between now (some obj) filePath hstored helsewhere
  rw [hreply, cloneObj, hwrite]

-- two files written in turns, the second one twice
def turns : List (Operation (List UInt8)) :=
  [.serializeObj .epoch (some [2]) (some "b.ser".toList), .deserializeObj (some "b.ser".toList),
    .serializeObj .epoch none (some "b.ser".toList)]

theorem reload_eq_clone_turns :
    (answer .posix referenceStreams (Simulation.run (answer .posix referenceStreams) FileTree.root
        (turns ++ .serializeObj .epoch (some [1]) (some "a.ser".toList) :: turns)).2
        (.deserializeObj (some "serialization/tmp/a.ser".toList))).1 =
      .object (cloneObj referenceStreams (some [1])) := by
  apply reload_eq_clone referenceStreams .posix FileTree.root turns turns .epoch [1]
    (some "a.ser".toList)
  · decide
  · intro now' obj' filePath' hmem
    simp only [turns, List.mem_cons, List.not_mem_nil, or_false, reduceCtorEq, false_or,
      Operation.serializeObj.injEq] at hmem
    rcases hmem with ⟨rfl, rfl, rfl⟩ | ⟨rfl, rfl, rfl⟩ <;> decide

-- `null` is stored and read back, where `cloneObj` throws
example : (answer .posix referenceStreams (answer .posix referenceStreams FileTree.root
      (.serializeObj .epoch none (some "n.ser".toList))).2
      (.deserializeObj (some "serialization/tmp/n.ser".toList))).1 = .object (.ok none) ∧
    (cloneObj referenceStreams none).isOk = false := by decide

end UtilsRepo.Serialization
