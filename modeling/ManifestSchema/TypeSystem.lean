import ManifestSchema.Error
import ManifestSchema.Manifest.Decode

/-!
# The type system

All types of all manifests under their names, in the order of the files and of the types in them. A
name is declared once: a second declaration is an error that names both files.
-/

namespace ManifestSchema

/-- Every declared type, and the file that declared it. -/
structure TypeSystem where
  types : Dict Definition
  origins : Dict String

namespace TypeSystem

def empty : TypeSystem := ⟨[], []⟩

/-- Add types in order up to the first that is already there. -/
def addAll (origin : String) : TypeSystem → List (String × Definition) →
    Except ManifestError Unit × TypeSystem
  | ts, [] => (.ok (), ts)
  | ts, (fqn, definition) :: rest =>
      match ts.origins.find? fqn with
      | some first => (.error (.duplicateType fqn first origin), ts)
      | none =>
          addAll origin
            ⟨ts.types.insert fqn definition, ts.origins.insert fqn origin⟩ rest

/-- Add the types of a manifest. The types before a duplicate stay added. -/
def add (ts : TypeSystem) (origin : String) (assembly : Assembly) :
    Except ManifestError Unit × TypeSystem :=
  addAll origin ts assembly.types

/-- Add manifests in order up to the first that fails. -/
def addFiles (ts : TypeSystem) : List (String × Assembly) → Except ManifestError TypeSystem
  | [] => .ok ts
  | (origin, assembly) :: rest =>
      match ts.add origin assembly with
      | (.ok (), ts) => addFiles ts rest
      | (.error e, _) => .error e

/-- The type system of some manifests. -/
def ofAssemblies (files : List (String × Assembly)) : Except ManifestError TypeSystem :=
  empty.addFiles files

/-- The number of types. -/
def size (ts : TypeSystem) : Nat := ts.types.length

/-- The type of a name. -/
def find? (ts : TypeSystem) (fqn : String) : Option Definition := ts.types.find? fqn

/-- The class of a name. -/
def findClass? (ts : TypeSystem) (fqn : String) : Option ClassType :=
  (ts.find? fqn).bind Definition.class?

/-- The classes in order. -/
def classes (ts : TypeSystem) : List ClassType := ts.types.filterMap fun p => p.2.class?

/-- Every type stands under the name that it gives itself. -/
def WellKeyed (ts : TypeSystem) : Prop := ∀ p ∈ ts.types, p.2.fqn = p.1

end TypeSystem

end ManifestSchema
