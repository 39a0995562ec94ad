import ManifestSchema.Diagnostics
import ManifestSchema.TypeSystem.Inheritance

/-!
# Root selection

Which classes get a resource entry of their own: those that descend from the base class and take
their properties, a named type, at a certain position of the initializer, unless their name starts
with one of the prefixes to skip.
-/

namespace ManifestSchema

/-- What makes a class a root. -/
structure RootSelection where
  baseClass : String
  propsIndex : Nat
  skipPrefixes : List String
deriving DecidableEq

/-- A root and the type of its properties. -/
structure Root where
  definition : ClassType
  props : TypeRef

/-- A root in one line of a listing. -/
def Root.summary (r : Root) : Json :=
  .obj [("fqn", .str r.definition.fqn),
    ("propsType", match r.props.fqn? with | some fqn => .str fqn | none => .null)]

namespace RootSelection

/-- What a class without a properties parameter is told. -/
def skippedWarning (index : Nat) : String :=
  "no properties parameter at initializer position " ++ toString index ++
    "; not constructible from a document"

/-- Whether a name starts with one of the prefixes to skip. -/
def skips (s : RootSelection) (fqn : String) : Bool :=
  s.skipPrefixes.any fun p => p.toList.isPrefixOf fqn.toList

/-- Select among classes in order. -/
def among (s : RootSelection) (ts : TypeSystem) : List ClassType → Diagnostics →
    List Root × Diagnostics
  | [], d => ([], d)
  | c :: rest, d =>
      if ts.classExtends c s.baseClass then
        match c.propsType? s.propsIndex with
        | none =>
            let (id, d) := d.child 0 "skipped" c.fqn
            s.among ts rest (d.warn id (skippedWarning s.propsIndex))
        | some props =>
            if s.skips c.fqn then s.among ts rest d
            else
              let (roots, d) := s.among ts rest d
              (⟨c, props⟩ :: roots, d)
      else s.among ts rest d

/-- Select the roots in the order of the manifests. Classes that descend from the base class but
cannot be constructed are noted. -/
def select (s : RootSelection) (ts : TypeSystem) (d : Diagnostics) :
    Except ManifestError (List Root × Diagnostics) :=
  match ts.findClass? s.baseClass with
  | none => .error (.unknownBaseClass s.baseClass)
  | some _ => .ok (s.among ts ts.classes d)

end RootSelection

end ManifestSchema
