import UtilsRepo.Java.Exception
import UtilsRepo.Lib.Fallible
import UtilsRepo.Lib.FileTree
import UtilsRepo.Lib.Path

/-!
# `java.io.File`, `FileOutputStream` and `FileInputStream`

The file operations `SerializationUtil` uses, on a tree of files without links, in their two
documented readings: POSIX has one separator and walks `..` through the tree, Windows has two and
removes `..` lexically.  A path is the list of its characters.
-/

namespace UtilsRepo.Serialization

abbrev Name := List Char

abbrev Disk := FileTree Name (List UInt8)

inductive Platform where
  | posix
  | windows
  deriving DecidableEq

def Platform.isSeparator : Platform → Char → Bool
  | .posix, c => c == '/'
  | .windows, c => c == '/' || c == '\\'

def step (name : Name) : Step Name :=
  if name = ['.'] then .stay
  else if name = ['.', '.'] then .up
  else .down name

namespace JavaFile

variable (p : Platform)

/-- The abstract pathname: doubled and trailing separators are dropped. -/
def steps (path : List Char) : List (Step Name) :=
  (Path.components p.isSeparator path).map step

def start (disk : Disk) (path : List Char) : List Name :=
  -- an absolute path begins with a separator
  if path.head?.any p.isSeparator then [] else disk.cwd

/-- The path read lexically, as `getCanonicalFile` reads it where nothing is a link. -/
def canonical (disk : Disk) (path : List Char) : List Name :=
  FileTree.lexical (start p disk path) (steps p path)

/-- The location the operating system takes the path for, if it can be reached. -/
def resolve (disk : Disk) (path : List Char) : Option (List Name) :=
  -- refused by `File.isInvalid()` before the operating system is asked
  if '\x00' ∈ path then none
  else match p with
    | .posix => disk.walk (start p disk path) (steps p path)
    | .windows => some (canonical p disk path)

/-! ## 1. `File` -/

-- `File.exists()`
def present (path : List Char) : Fallible JavaException Disk Bool :=
  Fallible.ofStep fun disk =>
    (.ok ((resolve p disk path).any fun loc => (disk.node loc).isSome), disk)

-- `File.mkdirs()`, whose answer is not used
def mkdirs (path : List Char) : Fallible JavaException Disk Unit :=
  Fallible.ofStep fun disk =>
    if '\x00' ∈ path then (.ok (), disk) else (.ok (), disk.mkdirs (canonical p disk path))

def ioException : JavaException where
  exceptionClass := .ioException
  message := none

-- `File.createNewFile()`
def createNewFile (path : List Char) : Fallible JavaException Disk Bool :=
  Fallible.ofStep fun disk =>
    match (resolve p disk path).bind fun loc => disk.createNew loc [] with
    | some (made, disk') => (.ok made, disk')
    | none => (.error ioException, disk)

/-! ## 2. Streams -/

def fileNotFoundException : JavaException where
  exceptionClass := .fileNotFoundException
  message := none

-- `new FileOutputStream(path)`, which answers the location of the open file
def openOutput (path : List Char) : Fallible JavaException Disk (List Name) :=
  Fallible.ofStep fun disk =>
    match (resolve p disk path).bind fun loc => (disk.openNew loc []).map (loc, ·) with
    | some (loc, disk') => (.ok loc, disk')
    | none => (.error fileNotFoundException, disk)

-- the bytes written to an open file by the time it is closed
def write (loc : List Name) (bytes : List UInt8) : Fallible JavaException Disk Unit :=
  Fallible.ofStep fun disk => (.ok (), disk.fill loc bytes)

-- `new FileInputStream(path)`, which answers the bytes of the file
def openInput (path : List Char) : Fallible JavaException Disk (List UInt8) :=
  Fallible.ofStep fun disk =>
    match (resolve p disk path).bind disk.node with
    | some (.file bytes) => (.ok bytes, disk)
    | _ => (.error fileNotFoundException, disk)

end JavaFile

end UtilsRepo.Serialization
