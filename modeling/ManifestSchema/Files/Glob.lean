import ManifestSchema.Files.Pattern
import ManifestSchema.Files.Tree

/-!
# Files that match a pattern

A pattern is matched component by component, depth first, the names of a directory in order. A
component without wildcards is looked up and not listed. Any directories match no directory too; at
the end of a pattern they match the directories themselves.
-/

namespace ManifestSchema

/-- Whether inputs of this form are patterns. -/
def looksLikePattern (text : String) : Bool :=
  text.toList.any fun c => ['*', '?', '[', '\x7b'].contains c

namespace Glob

/-- A path to be looked at, its last name, and the components that are left for it; without any the
path has been found. -/
structure Candidate where
  path : String
  name : String
  left : List Pattern

/-- The path of a name in a directory. -/
def join (directory name : String) : String :=
  if directory.toList.getLast? = some '/' then directory ++ name else directory ++ "/" ++ name

/-- Whether a path names the directory of the run itself, by points only. -/
def isHere (path : String) : Bool :=
  path.toList.head? = some '.' && (path.splitOn "/").all fun s => s = "." || s = ""

/-- The path of a name in a directory, where the directory of the run itself is not written. -/
def step (directory name : String) : String :=
  if isHere directory then name else join directory name

/-- The candidates for some components in a directory, in the order in which they are taken up. -/
def candidates (t : FileTree) : (components : List Pattern) → (directory : String) → List Candidate
  | [], _ => []
  | p :: more, directory =>
      let found (path : String) : List Candidate :=
        if more.isEmpty then [⟨path, "", []⟩] else candidates t more path
      match p.literal? with
      | some name =>
          let path := step directory name
          if name = "." ∨ name = ".." then
            if t.isDirectory directory then found path else []
          else if t.pathExists path then found path
          else []
      | none =>
          if t.isDirectory directory then
            let special :=
              if p.head? = some (.char '.') then
                ["..", "."].flatMap fun name =>
                  if p.matchesName name then found (join directory name) else []
              else []
            special ++ (t.children directory).map fun name => ⟨step directory name, name, p :: more⟩
          else []

/-- The components after those for any directories at the front. -/
def dropRecursive : (components : List Pattern) → List Pattern
  | [] => []
  | p :: more => if p.isRecursive then dropRecursive more else p :: more

/-- The matches of a candidate, within a number of steps into the tree. -/
def matchesOf (t : FileTree) (onlyDirectories : Bool) : (steps : Nat) → Candidate → List String
  | 0, _ => []
  | steps + 1, c =>
      let inner := fun cs => cs.flatMap (matchesOf t onlyDirectories steps)
      let plain (components : List Pattern) : List String × List Candidate :=
        match components with
        | [] => ([], [])
        | p :: more =>
            if p.matchesName c.name then
              if more.isEmpty then
                (if !onlyDirectories || t.isDirectory c.path then [c.path] else [], [])
              else ([], candidates t more c.path)
            else ([], [])
      match c.left with
      | [] => if !onlyDirectories || t.isDirectory c.path then [c.path] else []
      | p :: more =>
          if p.isRecursive then
            let rest := dropRecursive (p :: more)
            if t.isDirectory c.path then
              let below := candidates t ((p :: more).drop (more.length - rest.length)) c.path
              if rest.isEmpty then c.path :: inner below
              else
                let (here, next) := plain rest
                here ++ inner (next ++ below)
            else if rest.isEmpty then []
            else
              let (here, next) := plain rest
              here ++ inner next
          else
            let (here, next) := plain (p :: more)
            here ++ inner next

/-- The components of a pattern. -/
def components (text : String) : Except PatternError (List Pattern) :=
  let body := if text.toList.head? = some '/' then String.ofList (text.toList.drop 1) else text
  let parts := body.splitOn "/"
  let parts := if parts.getLast? = some "" then parts.dropLast else parts
  parts.mapM Pattern.ofText

/-- The paths that match a pattern, in order. -/
def paths (t : FileTree) (text : String) : Except PatternError (List String) := do
  let _ ← Pattern.ofText text
  let parts ← components text
  let start := if text.toList.head? = some '/' then "/" else "."
  let onlyDirectories := text.toList.getLast? = some '/'
  let steps := (parts.length + 1) * (t.directories.length + t.files.length + 2)
  return (candidates t parts start).flatMap (matchesOf t onlyDirectories steps)

end Glob

end ManifestSchema
