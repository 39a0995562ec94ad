import ManifestSchema.Manifest.TypeRef

/-!
# Type definitions

The classes, interfaces and enums that a manifest declares, each under its fully qualified name
(`fqn`), with the documentation that ends up in the schema.
-/

namespace ManifestSchema

/-- A property of a class or interface. -/
structure Property where
  name : String
  type : TypeRef
  optional : Bool
  isStatic : Bool
  summary : Option String

/-- A parameter of an initializer. -/
structure Parameter where
  name : String
  type : TypeRef

/-- A class: what it extends and implements, how it is constructed, and its own properties. -/
structure ClassType where
  fqn : String
  base : Option String
  interfaces : List String
  initializer : Option (List Parameter)
  properties : List Property
  summary : Option String

/-- An interface: what it extends, and its own properties. -/
structure InterfaceType where
  fqn : String
  interfaces : List String
  properties : List Property
  summary : Option String

/-- An enum and the names of its members. -/
structure EnumType where
  fqn : String
  members : List String
  summary : Option String

/-- The parameter of the initializer at a position. -/
def ClassType.parameter? (c : ClassType) (index : Nat) : Option Parameter :=
  c.initializer.bind (·[index]?)

/-- The type of the parameter at a position, when it is a named type. -/
def ClassType.propsType? (c : ClassType) (index : Nat) : Option TypeRef :=
  (c.parameter? index).bind fun p =>
    match p.type with
    | .named fqn => some (.named fqn)
    | _ => none

/-- What a definition defines. -/
inductive Kind
  | classKind
  | interfaceKind
  | enumKind
deriving DecidableEq, Repr

namespace Kind

/-- The name of a kind. -/
def text : Kind → String
  | .classKind => "class"
  | .interfaceKind => "interface"
  | .enumKind => "enum"

def all : List Kind := [.classKind, .interfaceKind, .enumKind]

/-- The kind of a name. -/
def ofText? (name : String) : Option Kind := all.find? fun k => k.text = name

end Kind

/-- A declared type. -/
inductive Definition
  | classDef (definition : ClassType)
  | interfaceDef (definition : InterfaceType)
  | enumDef (definition : EnumType)

namespace Definition

/-- What the definition defines. -/
def kind : Definition → Kind
  | .classDef _ => .classKind
  | .interfaceDef _ => .interfaceKind
  | .enumDef _ => .enumKind

/-- The name that the definition gives itself. -/
def fqn : Definition → String
  | .classDef c => c.fqn
  | .interfaceDef i => i.fqn
  | .enumDef e => e.fqn

/-- The documentation of the definition. -/
def summary : Definition → Option String
  | .classDef c => c.summary
  | .interfaceDef i => i.summary
  | .enumDef e => e.summary

/-- The definition as a class. -/
def class? : Definition → Option ClassType
  | .classDef c => some c
  | _ => none

/-- Whether the definition is a class or an interface. -/
def isObject : Definition → Bool
  | .enumDef _ => false
  | _ => true

/-- The properties that the definition declares itself. -/
def properties : Definition → List Property
  | .classDef c => c.properties
  | .interfaceDef i => i.properties
  | .enumDef _ => []

/-- The names of the types that the definition inherits from: the base first, then the
interfaces. -/
def parents : Definition → List String
  | .classDef c => c.base.toList ++ c.interfaces
  | .interfaceDef i => i.interfaces
  | .enumDef _ => []

end Definition

/-- One manifest: named types in the order of the file. -/
structure Assembly where
  name : String
  types : Dict Definition

end ManifestSchema
