import UtilsRepo.Lib.Scan
import UtilsRepo.Serialization.JavaFile

/-!
# `SerializationUtil`

Where an object is stored (`createFile`), and the storing and reading back.
-/

namespace UtilsRepo.Serialization

/-- The fields `SimpleDateFormat` prints of a clock reading, in the machine's time zone. -/
structure CivilTime where
  year : ℕ
  month : ℕ
  day : ℕ
  hour : ℕ
  minute : ℕ
  second : ℕ
  millis : ℕ
  month_le : month ≤ 12
  day_le : day ≤ 31
  hour_lt : hour < 24
  minute_lt : minute < 60
  second_lt : second < 60
  millis_lt : millis < 1000

/-- Java object streams, over objects or over references with `null` among them: the bytes that reach the
stream, with the exception that cut them short, if any; and what is read back from bytes. -/
structure ObjectStreams (Obj : Type) where
  writeObject : Obj → List UInt8 × Option JavaException
  readObject : List UInt8 → Except JavaException Obj

/-- Byte sequences as objects that are their own serialization. -/
def byteStreams : ObjectStreams (List UInt8) where
  writeObject bytes := (bytes, none)
  readObject bytes := .ok bytes

/-- References to such objects: `TC_NULL` for `null`, `TC_OBJECT` before an object. -/
def referenceStreams : ObjectStreams (Option (List UInt8)) where
  writeObject
    | none => ([0x70], none)
    | some bytes => (0x73 :: bytes, none)
  readObject
    | [0x70] => .ok none
    | 0x73 :: bytes => .ok (some bytes)
    | _ => .error { exceptionClass := .ioException, message := none }

def CivilTime.epoch : CivilTime where
  year := 1970
  month := 1
  day := 1
  hour := 0
  minute := 0
  second := 0
  millis := 0
  month_le := by decide
  day_le := by decide
  hour_lt := by decide
  minute_lt := by decide
  second_lt := by decide
  millis_lt := by decide

namespace SerializationUtil

def FOLDER_NM : List Char := "serialization/tmp/".toList

def EXTENSION_NM : List Char := ".ser".toList

def padded (width n : ℕ) : List Char :=
  List.replicate (width - (Nat.toDigits 10 n).length) '0' ++ Nat.toDigits 10 n

/-- `idGenerator`: the pattern `yyyyMMddHHmmssSSS`. -/
def idGenerator (now : CivilTime) : List Char :=
  padded 4 now.year ++ padded 2 now.month ++ padded 2 now.day ++ padded 2 now.hour ++
    padded 2 now.minute ++ padded 2 now.second ++ padded 3 now.millis

/-- The match of the regular expression `[\.]+/|[\.]+\\` at the front: a run of dots and the
separator after it. -/
def dotsAndSeparator (s : List Char) : ℕ :=
  let dots := (s.takeWhile (· == '.')).length
  if dots = 0 then 0
  else match s.drop dots with
    | c :: _ => if c = '/' ∨ c = '\\' then dots + 1 else 0
    | [] => 0

-- `filePath.replaceAll("[\\.]+/|[\\.]+\\\\", "")`
def sanitize (filePath : List Char) : List Char :=
  Scan.deleteMatches dotsAndSeparator filePath

/-- The last separator, as `createFile` looks for it. -/
def lastSeparator (filePath : List Char) : Option ℕ :=
  -- a slash anywhere goes before a backslash
  match Path.lastIndexOf '/' filePath with
  | some index => some index
  | none => Path.lastIndexOf '\\' filePath

variable (p : Platform)

-- `file = new File(path); if (!file.exists()) { file.mkdirs(); }`
def makeFolder (path : List Char) : Fallible JavaException Disk Unit := do
  if !(← JavaFile.present p path) then JavaFile.mkdirs p path

/-- The path a sanitised `filePath` is stored at. -/
def storagePath (now : CivilTime) (filePath : List Char) : List Char :=
  if '.' ∈ filePath then
    -- case2: a file name was given
    FOLDER_NM ++ filePath
  else
    -- case3: only a directory, for example `tmp`, `tmp/`, `/tmp`
    FOLDER_NM ++ filePath ++ ['/'] ++ idGenerator now ++ EXTENSION_NM

/-- The folder named by what stands before the last separator. -/
def makePathFolder (filePath : List Char) : Fallible JavaException Disk Unit :=
  match lastSeparator filePath with
  | some index => makeFolder p (FOLDER_NM ++ filePath.take index)
  | none => pure ()

/-- The middle of `createFile`: the path is chosen and its folder made. -/
def choosePath (now : CivilTime) :
    Option (List Char) → Fallible JavaException Disk (List Char)
  | none | some [] =>
      -- case1: no path
      pure (FOLDER_NM ++ idGenerator now ++ EXTENSION_NM)
  | some (c :: cs) => do
      makePathFolder p (sanitize (c :: cs))
      pure (storagePath now (sanitize (c :: cs)))

/-- `createFile(String filePath)`; the clock is read at most once. -/
def createFile (now : CivilTime) (filePath : Option (List Char)) :
    Fallible JavaException Disk (List Char) := do
  makeFolder p FOLDER_NM
  let path ← choosePath p now filePath
  let _ ← JavaFile.createNewFile p path
  return path

variable {Obj : Type} (streams : ObjectStreams Obj)

-- `serialize(T obj, String filePath)`
def serialize (obj : Obj) (filePath : List Char) : Fallible JavaException Disk (List Char) := do
  let loc ← JavaFile.openOutput p filePath
  -- the try-with-resources block closes the stream also when `writeObject` throws
  JavaFile.write loc (streams.writeObject obj).1
  Fallible.ofExcept ((streams.writeObject obj).2.elim (.ok filePath) .error)

-- `serializeObj(T obj, String filePath)`
def serializeObj (now : CivilTime) (obj : Obj) (filePath : Option (List Char)) :
    Fallible JavaException Disk (List Char) := do
  serialize p streams obj (← createFile p now filePath)

/-- `serializeObj(T obj)`, which hands `createFile` a path that has the folder in it already. -/
def serializeObjHere (now : CivilTime) (obj : Obj) : Fallible JavaException Disk (List Char) :=
  serializeObj p streams now obj (some (FOLDER_NM ++ idGenerator now ++ EXTENSION_NM))

-- `deserializeObj(String filePath)`
def deserializeObj (filePath : List Char) : Fallible JavaException Disk Obj := do
  let bytes ← JavaFile.openInput p filePath
  Fallible.ofExcept (streams.readObject bytes)

/-- `cloneObj(T obj)` over references, where `none` is `null`. -/
def cloneObj (streams : ObjectStreams (Option Obj)) (obj : Option Obj) :
    Except JavaException (Option Obj) :=
  match obj with
  | none => .error
      { exceptionClass := .nullPointerException, message := some "parameter can not be null" }
  | some obj =>
      match streams.writeObject (some obj) with
      | (_, some e) => .error e
      | (bytes, none) => streams.readObject bytes

end SerializationUtil

end UtilsRepo.Serialization
