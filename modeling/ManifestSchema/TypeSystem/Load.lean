import ManifestSchema.Files.Glob
import ManifestSchema.Filter.Run
import ManifestSchema.TypeSystem

/-!
# Loading manifests

The inputs of a run are paths and patterns. All of them are resolved before a file is read. A filter
may turn a file into any number of manifests, which are numbered behind the name of the file.
-/

namespace ManifestSchema

/-- What to load: paths and patterns, and a filter for each file. -/
structure LoadOptions where
  inputs : List String
  filter : Option String

namespace LoadOptions

/-- The paths that an input stands for. -/
def pathsOf (t : FileTree) (input : String) : Except ManifestError (List String) :=
  if looksLikePattern input then
    match Glob.paths t input with
    | .error e => .error (.pattern input e.position e.fault)
    | .ok [] => .error (.noMatches input)
    | .ok paths => .ok paths
  else .ok [input]

/-- The manifests among the outputs of a filter, numbered from `index` on. -/
def decodeOutputs (path : String) : (index : Nat) → List Json →
    Except ManifestError (List (String × Assembly))
  | _, [] => .ok []
  | index, v :: rest => do
      let origin := path ++ "#" ++ toString index
      match Assembly.ofJson v with
      | .error e => throw (.ofValue origin e)
      | .ok assembly =>
          let others ← decodeOutputs path (index + 1) rest
          return (origin, assembly) :: others

/-- The manifests in a file. -/
def assembliesIn (t : FileTree) (filter : Option String) (path : String) :
    Except ManifestError (List (String × Assembly)) := do
  match t.readText path with
  | .error fault => throw (.io path fault)
  | .ok text =>
    match filter with
    | none =>
        match Assembly.ofText text with
        | .error e => throw (.ofText path text e)
        | .ok assembly => return [(path, assembly)]
    | some filter =>
        match Json.ofText text with
        | .error e => throw (.ofText path text e)
        | .ok input =>
          match Filter.run filter input with
          | .error _ => throw (.filter path)
          | .ok outputs => decodeOutputs path 0 outputs

/-- Load files in order into a type system. -/
def loadPaths (t : FileTree) (filter : Option String) : TypeSystem → List String →
    Except ManifestError TypeSystem
  | ts, [] => .ok ts
  | ts, path :: rest => do
      let files ← assembliesIn t filter path
      let ts ← ts.addFiles files
      loadPaths t filter ts rest

/-- Load all inputs. -/
def load (o : LoadOptions) (t : FileTree) : Except ManifestError TypeSystem := do
  let paths ← o.inputs.mapM (pathsOf t)
  loadPaths t o.filter .empty paths.flatten

end LoadOptions

end ManifestSchema
