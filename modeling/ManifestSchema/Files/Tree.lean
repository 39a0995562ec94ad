import ManifestSchema.Dict
import ManifestSchema.Text.Utf8

/-!
# A tree of files

The directory that a run works in, with everything below it. Places in it are named by paths as a
user writes them; around it there is a directory of which nothing else is known. Reading and writing
fail as they do on disk.
-/

namespace ManifestSchema

/-- What a file holds: text, or bytes that are none. -/
inductive Content
  | text (value : String)
  | binary (bytes : List UInt8)
deriving DecidableEq

namespace Content

/-- The content of some bytes. -/
def ofBytes (bytes : List UInt8) : Content :=
  match Utf8.decode? bytes with
  | some s => .text s
  | none => .binary bytes

/-- The content as text, whatever it is. -/
def shown : Content → String
  | .text s => s
  | .binary bytes => Utf8.decodeLossy bytes

end Content

/-- Why a file could not be read or written. -/
inductive FileFault
  | notFound
  | exists
  | notDirectory
  | isDirectory
  | nameTooLong
  | notText
  /-- A path with a zero byte in it, where paths end. -/
  | zeroByte
deriving DecidableEq, Repr

/-- The wording of a refusal. -/
def FileFault.message : FileFault → String
  | .notFound => "No such file or directory (os error 2)"
  | .exists => "File exists (os error 17)"
  | .notDirectory => "Not a directory (os error 20)"
  | .isDirectory => "Is a directory (os error 21)"
  | .nameTooLong => "File name too long (os error 36)"
  | .zeroByte => "file name contained an unexpected NUL byte"
  | .notText => "stream did not contain valid UTF-8"

/-- A place below the directory of the run: the names on the way to it. -/
abbrev Place := List String

/-- The place around the directory of the run. -/
def Place.outside : Place := [".."]

/-- All directories but the outermost, and all files, by their places. -/
structure FileTree where
  directories : List Place
  files : List (Place × Content)

/-- A path as written. -/
structure Path where
  absolute : Bool
  steps : List String
  /-- Whether the path can only name a directory. -/
  directory : Bool

namespace Path

/-- The parts between the slashes of a path. -/
def split (text : String) : List String := text.splitOn "/"

/-- The path of a text. -/
def ofText (text : String) : Path :=
  let parts := split text
  let last := parts.getLast?.getD ""
  ⟨text.toList.head? = some '/', parts.filter fun s => s ≠ "" && s ≠ ".",
    last = "" || last = "." || last = ".."⟩

/-- The number of bytes that a name may have. -/
def nameLimit : Nat := 255

/-- The number of bytes that a path may have. -/
def lengthLimit : Nat := 4095

/-- What is wrong with the text of a path, whatever there is on disk. -/
def textFault? (text : String) : Option FileFault :=
  if text.toList.contains '\x00' then some .zeroByte
  else if lengthLimit < text.utf8ByteSize then some .nameTooLong
  else if text.isEmpty then some .notFound
  else none

end Path

namespace FileTree

def empty : FileTree := ⟨[], []⟩

/-- Whether a place is a directory. -/
def isDirectoryAt (t : FileTree) (place : Place) : Bool :=
  place.isEmpty || place = Place.outside || t.directories.contains place

/-- The content of the file at a place. -/
def contentAt? (t : FileTree) (place : Place) : Option Content :=
  (t.files.find? fun f => f.1 = place).map Prod.snd

/-- Whether there is something at a place. -/
def existsAt (t : FileTree) (place : Place) : Bool :=
  t.isDirectoryAt place || (t.contentAt? place).isSome

/-- Follow steps from a place. -/
def follow (t : FileTree) : Place → (steps : List String) → Except FileFault Place
  | place, [] => .ok place
  | place, step :: rest =>
      if !t.isDirectoryAt place then .error .notDirectory
      else if step = ".." then
        let up := if place.isEmpty || place = Place.outside then Place.outside else place.dropLast
        t.follow up rest
      else if Path.nameLimit < step.utf8ByteSize then .error .nameTooLong
      else
        let next := place ++ [step]
        if t.existsAt next then t.follow next rest else .error .notFound

/-- The place that a path names. -/
def locate (t : FileTree) (path : String) : Except FileFault Place :=
  let p := Path.ofText path
  match Path.textFault? path with
  | some fault => .error fault
  | none =>
      if p.absolute then .error .notFound
      else do
        let place ← t.follow [] p.steps
        if p.directory && !t.isDirectoryAt place then throw .notDirectory else return place

/-- Whether a path names something. -/
def pathExists (t : FileTree) (path : String) : Bool := (t.locate path).isOk

/-- Whether a path names a directory. -/
def isDirectory (t : FileTree) (path : String) : Bool :=
  match t.locate path with
  | .ok place => t.isDirectoryAt place
  | .error _ => false

/-- Whether a path names a file. -/
def isFile (t : FileTree) (path : String) : Bool :=
  match t.locate path with
  | .ok place => (t.contentAt? place).isSome
  | .error _ => false

/-- The names in a directory in order. -/
def children (t : FileTree) (path : String) : List String :=
  match t.locate path with
  | .error _ => []
  | .ok place =>
      let all := t.directories ++ t.files.map Prod.fst
      (all.filterMap fun p => if p.dropLast = place then p.getLast? else none).mergeSort
        fun a b => decide (a ≤ b)

/-- Read a file. -/
def read (t : FileTree) (path : String) : Except FileFault Content := do
  let place ← t.locate path
  match t.contentAt? place with
  | some content => return content
  | none => throw .isDirectory

/-- Read a file that must be text. -/
def readText (t : FileTree) (path : String) : Except FileFault String := do
  match ← t.read path with
  | .text s => return s
  | .binary _ => throw .notText

/-! ## Writing -/

/-- Make a directory at the end of some steps. -/
def makeDirectory (t : FileTree) (steps : List String) : Except FileFault FileTree :=
  match steps.getLast? with
  | none => .error .exists
  | some last => do
      let parent ← t.follow [] steps.dropLast
      if !t.isDirectoryAt parent then throw .notDirectory
      else if Path.nameLimit < last.utf8ByteSize then throw .nameTooLong
      else if last = ".." || t.existsAt (parent ++ [last]) then throw .exists
      else return { t with directories := t.directories ++ [parent ++ [last]] }

/-- Whether some steps lead to a directory. -/
def leadsToDirectory (t : FileTree) (steps : List String) : Bool :=
  match t.follow [] steps with
  | .ok place => t.isDirectoryAt place
  | .error _ => false

/-- Make a directory and those around it that are missing; the steps are given from the last one. -/
def makeDirectories (t : FileTree) : (reversed : List String) → Except FileFault FileTree
  | [] => .ok t
  | last :: others =>
      let steps := (last :: others).reverse
      match t.makeDirectory steps with
      | .ok t => .ok t
      | .error .notFound => do
          let t ← t.makeDirectories others
          orPresent t steps (t.makeDirectory steps)
      | .error e => orPresent t steps (.error e)
where
  /-- A failure counts as success where the directory is there anyway. -/
  orPresent (t : FileTree) (steps : List String) :
      Except FileFault FileTree → Except FileFault FileTree
    | .ok t => .ok t
    | .error e => if t.leadsToDirectory steps then .ok t else .error e

/-- Make the directory that a file at a path goes into, and those around it. Nothing is made when
the path of that directory is too long. -/
def makeParents (t : FileTree) (path : String) : Except FileFault FileTree :=
  let parents := (Path.ofText path).steps.dropLast
  if Path.lengthLimit < ("/".intercalate parents).utf8ByteSize then .error .nameTooLong
  else t.makeDirectories parents.reverse

/-- Put a file at a place. -/
def put (t : FileTree) (place : Place) (content : Content) : FileTree :=
  if (t.contentAt? place).isSome then
    { t with files := t.files.map fun f => if f.1 = place then (place, content) else f }
  else { t with files := t.files ++ [(place, content)] }

/-- Write text to a file. -/
def write (t : FileTree) (path text : String) : Except FileFault FileTree := do
  let p := Path.ofText path
  if let some fault := Path.textFault? path then throw fault
  if p.absolute then throw .notFound
  match p.steps.getLast? with
  | none => throw .isDirectory
  | some last =>
      let parent ← t.follow [] p.steps.dropLast
      if !t.isDirectoryAt parent then throw .notDirectory
      if Path.nameLimit < last.utf8ByteSize then throw .nameTooLong
      if p.directory then
        if (path.splitOn "/").getLast? = some "" then throw .isDirectory
        else
          let place ← t.locate path
          if t.isDirectoryAt place then throw .isDirectory else throw .notDirectory
      else if t.isDirectoryAt (parent ++ [last]) then throw .isDirectory
      else return t.put (parent ++ [last]) (.text text)

/-- Put a file at a place and make the directories around it. -/
def plant (t : FileTree) (path : String) (content : Content) : FileTree :=
  let steps := (Path.ofText path).steps
  match t.makeDirectories steps.dropLast.reverse with
  | .ok t => t.put steps content
  | .error _ => t

/-- Make a directory at a place and those around it. -/
def plantDirectory (t : FileTree) (path : String) : FileTree :=
  match t.makeDirectories (Path.ofText path).steps.reverse with
  | .ok t => t
  | .error _ => t

/-- The files that are new or hold something else than before, in the order of their paths. -/
def changesSince (t before : FileTree) : List (String × Content) :=
  let changed := t.files.filter fun f => before.contentAt? f.1 ≠ some f.2
  (changed.map fun f => ("/".intercalate f.1, f.2)).mergeSort fun a b => decide (a.1 ≤ b.1)

/-- Whether a path leads to something in the directory of the run. -/
def isWithin (path : String) : Bool := (Path.ofText path).steps.head? ≠ some ".."

end FileTree

end ManifestSchema
