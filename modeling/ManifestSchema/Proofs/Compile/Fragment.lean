import ManifestSchema.Proofs.Registry

/-!
# The schemas that types compile to

What a compilation gives for a type does not depend on what was compiled before: it is a function of
the type system, of the alternative, and of the keys that others than types hold (`taken`). Here is
that function, without the registry that the compiler fills on the way.

* `Compiler.fragment`: the schema of a reference;
* `Compiler.definitionBody`: the body of a class or interface in the registry;
* `Compiler.leads`: the classes and interfaces that a definition refers to, in order.
-/

namespace ManifestSchema

/-! ## Names -/

namespace TypeRef

mutual

/-- The names that occur in a reference, in order. -/
def names : TypeRef → List String
  | .primitive _ => []
  | .named fqn => [fqn]
  | .union members => namesOfAll members
  | .collection _ element => names element
  | .unsupported _ => []

/-- The names that occur in references, in order. -/
def namesOfAll : List TypeRef → List String
  | [] => []
  | type :: rest => names type ++ namesOfAll rest

end

theorem namesOfAll_eq_flatMap (types : List TypeRef) : namesOfAll types = types.flatMap names := by
  induction types with
  | nil => rfl
  | cons type rest ih => rw [namesOfAll, ih, List.flatMap_cons]

end TypeRef

/-- What a name stands for in a compilation. -/
inductive Role
  /-- No type has the name. -/
  | undeclared
  | enumeration (definition : EnumType)
  /-- A class or interface, but its key belongs to someone else. -/
  | taken
  /-- A class or interface that has a definition. -/
  | object

namespace TypeSystem

/-- What a name stands for when others than types hold the keys in `taken`. -/
def role (ts : TypeSystem) (taken : String → Bool) (name : String) : Role :=
  match ts.find? name with
  | none => .undeclared
  | some (.enumDef e) => .enumeration e
  | some _ => if taken name then .taken else .object

/-- Whether a name is that of a class or interface that gets a definition. -/
def opens (ts : TypeSystem) (taken : String → Bool) (name : String) : Bool :=
  match ts.find? name with
  | some d => d.isObject && !taken name
  | none => false

/-- Whether a definition is an interface without properties. -/
def isMarker (ts : TypeSystem) (d : Definition) : Bool :=
  (ts.flatten d).properties.isEmpty && d.kind == .interfaceKind

/-- The names in the types of the properties of a definition, in order. -/
def propertyNames (ts : TypeSystem) (d : Definition) : List String :=
  (ts.flatten d).properties.flatMap fun p => p.2.type.names

/-- The classes and interfaces that get a definition among those that a name refers to. -/
def leads (ts : TypeSystem) (taken : String → Bool) (name : String) : List String :=
  match ts.find? name with
  | some d => (ts.propertyNames d).filter (ts.opens taken)
  | none => []

theorem opens_iff {ts : TypeSystem} {taken : String → Bool} {name : String} :
    ts.opens taken name = true ↔
      ∃ d, ts.find? name = some d ∧ d.isObject = true ∧ taken name = false := by
  cases found : ts.find? name <;> simp [opens, found]

theorem role_object_iff {ts : TypeSystem} {taken : String → Bool} {name : String} :
    ts.role taken name = .object ↔ ts.opens taken name = true := by
  unfold role opens
  cases ts.find? name with
  | none => simp
  | some d => cases d <;> by_cases h : taken name <;> simp [Definition.isObject, h]

theorem leads_of_find {ts : TypeSystem} {taken : String → Bool} {name : String} {d : Definition}
    (found : ts.find? name = some d) :
    ts.leads taken name = (ts.propertyNames d).filter (ts.opens taken) := by
  rw [leads, found]

theorem opens_of_mem_leads {ts : TypeSystem} {taken : String → Bool} {name other : String}
    (h : other ∈ ts.leads taken name) : ts.opens taken other = true := by
  unfold leads at h
  split at h
  · exact (List.mem_filter.1 h).2
  · simp at h

end TypeSystem

/-! ## Schemas -/

namespace Compiler

mutual

/-- The schema of a reference. -/
def fragment (k : Compiler) (taken : String → Bool) : TypeRef → Json
  | .primitive p => Fragment.primitive p
  | .named fqn =>
      match k.types.role taken fqn with
      | .undeclared | .taken => Fragment.any
      | .enumeration e => Fragment.enumeration e
      | .object => reference fqn
  | .union members => Fragment.anyOf (k.fragments taken members)
  | .collection kind element => Fragment.collection kind (k.fragment taken element)
  | .unsupported _ => Fragment.any

/-- The schemas of references. -/
def fragments (k : Compiler) (taken : String → Bool) : List TypeRef → List Json
  | [] => []
  | type :: rest => k.fragment taken type :: k.fragments taken rest

end

theorem fragment_of_undeclared {k : Compiler} {taken : String → Bool} {name : String}
    (missing : k.types.find? name = none) : k.fragment taken (.named name) = Fragment.any := by
  simp [fragment, TypeSystem.role, missing]

theorem fragment_of_enum {k : Compiler} {taken : String → Bool} {name : String} {e : EnumType}
    (found : k.types.find? name = some (.enumDef e)) :
    k.fragment taken (.named name) = Fragment.enumeration e := by
  simp [fragment, TypeSystem.role, found]

theorem fragment_of_taken {k : Compiler} {taken : String → Bool} {name : String} {d : Definition}
    (found : k.types.find? name = some d) (isObject : d.isObject = true)
    (held : taken name = true) : k.fragment taken (.named name) = Fragment.any := by
  cases d with
  | enumDef _ => cases isObject
  | classDef _ | interfaceDef _ => simp [fragment, TypeSystem.role, found, held]

theorem fragment_of_opens {k : Compiler} {taken : String → Bool} {name : String}
    (opens : k.types.opens taken name = true) :
    k.fragment taken (.named name) = reference name := by
  rw [fragment, TypeSystem.role_object_iff.2 opens]

theorem fragments_eq_map (k : Compiler) (taken : String → Bool) (types : List TypeRef) :
    k.fragments taken types = types.map (k.fragment taken) := by
  induction types with
  | nil => rfl
  | cons type rest ih => rw [fragments, ih, List.map_cons]

/-- A schema with the alternative beside it, if there is one. -/
def withAlternative (k : Compiler) (schema : Json) : Json :=
  match k.alternative with
  | none => schema
  | some key => Fragment.anyOf [schema, reference key]

/-- The schema of a property. -/
def propertySchema (k : Compiler) (taken : String → Bool) (p : Property) : Json :=
  Fragment.describe p.summary (k.withAlternative (k.fragment taken p.type))

/-- The names and schemas of properties. -/
def propertySchemas (k : Compiler) (taken : String → Bool) (properties : Dict Property) :
    Dict Json :=
  properties.map fun p => (p.1, k.propertySchema taken p.2)

/-- The schema of a class or interface. -/
def objectSchema (k : Compiler) (taken : String → Bool) (d : Definition) : Json :=
  if k.types.isMarker d then Fragment.ofType "object"
  else
    Fragment.object (k.propertySchemas taken (k.types.flatten d).properties)
      (requiredNames (k.types.flatten d).properties) d.summary

/-- The body of the definition of a class or interface. -/
def definitionBody (k : Compiler) (taken : String → Bool) (key : String) : Json :=
  match k.types.find? key with
  | some d => describedBy key (k.objectSchema taken d)
  | none => Fragment.any

theorem definitionBody_of_find {k : Compiler} {taken : String → Bool} {key : String}
    {d : Definition} (found : k.types.find? key = some d) :
    k.definitionBody taken key = describedBy key (k.objectSchema taken d) := by
  rw [definitionBody, found]

/-- The entry of a compiled class or interface in the registry. -/
def typeSlot (k : Compiler) (taken : String → Bool) (key : String) : String × Slot :=
  (key, ⟨.type, .resolved (k.definitionBody taken key)⟩)

end Compiler

end ManifestSchema
