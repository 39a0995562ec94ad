import ManifestSchema.Definitions.Registry
import ManifestSchema.Diagnostics
import ManifestSchema.Json.Printer
import ManifestSchema.Schema.Fragment
import ManifestSchema.TypeSystem.Inheritance

/-!
# Compiling type references

A reference becomes a schema. Classes and interfaces are registered as definitions, each under its
name, and come back as references, so a type is compiled once and recursive types end. What is wrong
with a single type is recorded as a diagnostic, and any value is accepted in its place.
-/

namespace ManifestSchema

/-- What a compilation has produced so far. -/
structure Compilation where
  registry : Registry
  diagnostics : Diagnostics
deriving DecidableEq

instance : HoldsRegistry Compilation :=
  ⟨Compilation.registry, fun c r => { c with registry := r }⟩

/-- What a compilation works from: the types, and the key of the definition that every property
offers next to its own schema. -/
structure Compiler where
  types : TypeSystem
  alternative : Option String

/-- A step of a compilation. -/
abbrev Compile (α : Type) := Work Compilation α

namespace Compile

/-- Record an error on a scope. -/
def error (scope : Nat) (message : String) : Compile Unit := fun c =>
  .ok () { c with diagnostics := c.diagnostics.error scope message }

/-- Record a warning on a scope. -/
def warn (scope : Nat) (message : String) : Compile Unit := fun c =>
  .ok () { c with diagnostics := c.diagnostics.warn scope message }

/-- Open a scope. -/
def child (parent : Nat) (kind identifier : String) : Compile Nat := fun c =>
  let (id, diagnostics) := c.diagnostics.child parent kind identifier
  .ok id { c with diagnostics }

/-- The definitions so far. -/
def registry : Compile Registry := fun c => .ok c.registry c

/-- Record errors on a scope, one for each name. -/
def errors (scope : Nat) (lead : String) : List String → Compile Unit
  | [] => pure ()
  | name :: rest => do
      error scope (lead ++ name)
      errors scope lead rest

end Compile

namespace Compiler

/-- What an interface without properties is told. -/
def markerInterfaceWarning : String :=
  "interface has no data properties; any object may satisfy it"

/-- Compile a name. `object` compiles the body of a class or interface in a scope. -/
def compileName (k : Compiler) (object : Definition → Nat → Compile Json) (fqn : String)
    (scope : Nat) : Compile Json := do
  match k.types.find? fqn with
  | none =>
      Compile.error scope ("unresolvable type reference " ++ fqn)
      return Fragment.any
  | some (.enumDef e) => return Fragment.enumeration e
  | some d =>
      match (← Compile.registry).owner? fqn with
      | some .resource => clash .resource
      | some .extension => clash .extension
      | some .type | none =>
          let inner ← Compile.child scope d.kind.text fqn
          Registry.define fqn .type (object d inner)
where
  /-- Record that another owner holds the key of a type. -/
  clash (owner : Owner) : Compile Json := do
    Compile.error scope
      ("type " ++ fqn ++ " clashes with the " ++ owner.text ++ " definition of the same key")
    return Fragment.any

mutual

/-- Compile a reference. `object` compiles the body of a class or interface in a scope. -/
def compileWith (k : Compiler) (object : Definition → Nat → Compile Json) (type : TypeRef)
    (scope : Nat) : Compile Json :=
  match type with
  | .primitive p => pure (Fragment.primitive p)
  | .named fqn => k.compileName object fqn scope
  | .union members => do return Fragment.anyOf (← k.compileEach object members scope)
  | .collection kind element => do
      return Fragment.collection kind (← k.compileWith object element scope)
  | .unsupported raw => do
      Compile.error scope ("unsupported type reference " ++ raw.compact)
      return Fragment.any

/-- Compile references in order. -/
def compileEach (k : Compiler) (object : Definition → Nat → Compile Json) (types : List TypeRef)
    (scope : Nat) : Compile (List Json) :=
  match types with
  | [] => pure []
  | type :: rest => do
      let schema ← k.compileWith object type scope
      let others ← k.compileEach object rest scope
      return schema :: others

end

/-- Offer the alternative next to a schema, if there is one. -/
def offerAlternative (k : Compiler) (schema : Json) : Compile Json := do
  match k.alternative with
  | none => return schema
  | some key =>
      if (← Compile.registry).contains key then return Fragment.anyOf [schema, reference key]
      else throw (.missingAlternative key)

/-- Compile properties in order, each to its name and schema. -/
def compileProperties (k : Compiler) (object : Definition → Nat → Compile Json) (scope : Nat) :
    Dict Property → Compile (Dict Json)
  | [] => pure []
  | (name, p) :: rest => do
      let schema ← k.compileWith object p.type scope
      let schema ← k.offerAlternative schema
      let others ← k.compileProperties object scope rest
      return (name, Fragment.describe p.summary schema) :: others

/-- The names of the properties that are not optional, in order. -/
def requiredNames (properties : Dict Property) : List String :=
  (properties.filter fun p => !p.2.optional).map Prod.fst

/-- Compile the body of a class or interface in a scope; at most `levels` types are begun inside
each other. -/
def compileObject (k : Compiler) : (levels : Nat) → Definition → (scope : Nat) → Compile Json
  | 0, d, _ => throw (.unresolvedDefinition d.fqn)
  | levels + 1, d, scope => do
      let flat := k.types.flatten d
      Compile.errors scope "inheritance cycle through " flat.cycles
      Compile.errors scope "unresolvable base type " flat.unresolved
      if flat.properties.isEmpty && d.kind == .interfaceKind then
        Compile.warn scope markerInterfaceWarning
        return Fragment.ofType "object"
      let properties ← k.compileProperties (k.compileObject levels) scope flat.properties
      return Fragment.object properties (requiredNames flat.properties) d.summary

/-- Compile a reference in a scope. A type that is begun has a key of its own, so no more types than
there are can be begun inside each other. -/
def compile (k : Compiler) (type : TypeRef) (scope : Nat) : Compile Json :=
  k.compileWith (k.compileObject (k.types.size + 1)) type scope

end Compiler

end ManifestSchema
