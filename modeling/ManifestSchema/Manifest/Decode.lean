import ManifestSchema.Json.Record
import ManifestSchema.Manifest.Definition

/-!
# Decoding manifests

A manifest is decoded straight from its text, or from a value that was read before. The content of a
type definition is gathered as a value first and decoded once its tag `kind` is known, so a fault in
the content is reported at the definition as a whole, after which the reader stands at the next
member of `types`.
-/

namespace ManifestSchema

/-! ## Records -/

def Docs.shape : Shape := ⟨"Docs", [.defaulted "summary" Json.asTextOrNull]⟩

/-- The summary of a documentation record. -/
def Docs.summaryOf (v : Json) : Except DecodeCause (Option String) := do
  let d ← Docs.shape.values v
  d.optionally "summary" none Json.asTextOrNull

/-- A type reference; every value is one. -/
def TypeRef.decode (v : Json) : Except DecodeCause TypeRef := .ok (TypeRef.ofJson v.collapse)

def Property.shape : Shape := ⟨"Property",
  [.needed "name" Json.asText, .needed "type" TypeRef.decode, .defaulted "optional" Json.asBool,
    .defaulted "static" Json.asBool, .defaulted "docs" Docs.summaryOf]⟩

/-- Decode a property. -/
def Property.decode (v : Json) : Except DecodeCause Property := do
  let d ← Property.shape.values v
  return {
    name := ← d.require "name" Json.asText
    type := ← d.require "type" TypeRef.decode
    optional := ← d.optionally "optional" false Json.asBool
    isStatic := ← d.optionally "static" false Json.asBool
    summary := ← d.optionally "docs" none Docs.summaryOf }

def Parameter.shape : Shape := ⟨"Parameter",
  [.needed "name" Json.asText, .needed "type" TypeRef.decode]⟩

/-- Decode a parameter. -/
def Parameter.decode (v : Json) : Except DecodeCause Parameter := do
  let d ← Parameter.shape.values v
  return {
    name := ← d.require "name" Json.asText
    type := ← d.require "type" TypeRef.decode }

def Initializer.shape : Shape := ⟨"Initializer",
  [.defaulted "parameters" (Json.asList Parameter.decode)]⟩

/-- The parameters of an initializer, or nothing. -/
def Initializer.parametersOf : Json → Except DecodeCause (Option (List Parameter))
  | .null => .ok none
  | v => do
      let d ← Initializer.shape.values v
      return some (← d.optionally "parameters" [] (Json.asList Parameter.decode))

def ClassType.shape : Shape := ⟨"ClassType",
  [.needed "fqn" Json.asText, .defaulted "base" Json.asTextOrNull,
    .defaulted "interfaces" (Json.asList Json.asText),
    .defaulted "initializer" Initializer.parametersOf,
    .defaulted "properties" (Json.asList Property.decode), .defaulted "docs" Docs.summaryOf]⟩

/-- Decode a class. -/
def ClassType.decode (v : Json) : Except DecodeCause ClassType := do
  let d ← ClassType.shape.values v
  return {
    fqn := ← d.require "fqn" Json.asText
    base := ← d.optionally "base" none Json.asTextOrNull
    interfaces := ← d.optionally "interfaces" [] (Json.asList Json.asText)
    initializer := ← d.optionally "initializer" none Initializer.parametersOf
    properties := ← d.optionally "properties" [] (Json.asList Property.decode)
    summary := ← d.optionally "docs" none Docs.summaryOf }

def InterfaceType.shape : Shape := ⟨"InterfaceType",
  [.needed "fqn" Json.asText, .defaulted "interfaces" (Json.asList Json.asText),
    .defaulted "properties" (Json.asList Property.decode), .defaulted "docs" Docs.summaryOf]⟩

/-- Decode an interface. -/
def InterfaceType.decode (v : Json) : Except DecodeCause InterfaceType := do
  let d ← InterfaceType.shape.values v
  return {
    fqn := ← d.require "fqn" Json.asText
    interfaces := ← d.optionally "interfaces" [] (Json.asList Json.asText)
    properties := ← d.optionally "properties" [] (Json.asList Property.decode)
    summary := ← d.optionally "docs" none Docs.summaryOf }

def EnumMember.shape : Shape := ⟨"EnumMember", [.needed "name" Json.asText]⟩

/-- The name of a member of an enum. -/
def EnumMember.nameOf (v : Json) : Except DecodeCause String := do
  let d ← EnumMember.shape.values v
  d.require "name" Json.asText

def EnumType.shape : Shape := ⟨"EnumType",
  [.needed "fqn" Json.asText, .defaulted "members" (Json.asList EnumMember.nameOf),
    .defaulted "docs" Docs.summaryOf]⟩

/-- Decode an enum. -/
def EnumType.decode (v : Json) : Except DecodeCause EnumType := do
  let d ← EnumType.shape.values v
  return {
    fqn := ← d.require "fqn" Json.asText
    members := ← d.optionally "members" [] (Json.asList EnumMember.nameOf)
    summary := ← d.optionally "docs" none Docs.summaryOf }

namespace Definition

/-- Decode the content of a definition of a known kind. -/
def decode (kind : Kind) (content : Json) : Except DecodeCause Definition :=
  match kind with
  | .classKind => (ClassType.decode content).map .classDef
  | .interfaceKind => (InterfaceType.decode content).map .interfaceDef
  | .enumKind => (EnumType.decode content).map .enumDef

/-- The member that names the kind of a definition. -/
def tagField : String := "kind"

/-- How a definition is called where something else stands in its place. -/
def expected : String := "internally tagged enum TypeDef"

/-- How the tag is called where something else stands in its place. -/
def tagExpected : String := "variant identifier"

/-- The kind that a tag names. -/
def kindOf (tag : String) : Except DecodeCause Kind :=
  match Kind.ofText? tag with
  | some kind => .ok kind
  | none => .error (.unknownVariant tag (Kind.all.map Kind.text))

end Definition

/-! ## From a text -/

namespace Located

/-- The error of a value that is not what is wanted: its own fault if it has one, its type if
not. -/
def mismatch (path : List PathStep) (expected : String) : Located → DecodeError
  | .null stop => ⟨path, .invalidType .null expected, some stop⟩
  | .bool b stop => ⟨path, .invalidType (.bool b) expected, some stop⟩
  | .num (.ok n) stop => ⟨path, .invalidType (.num n) expected, some stop⟩
  | .num (.error fault) _ => .ofStop path fault
  | .str (.ok s) stop => ⟨path, .invalidType (.str s) expected, some stop⟩
  | .str (.error fault) _ => .ofStop path fault
  | .arr start _ => ⟨path, .invalidType (.arr []) expected, some start⟩
  | .obj start _ => ⟨path, .invalidType (.obj []) expected, some start⟩
  | .broken reading _ => .ofStop path reading

/-- Read a string. -/
def readText (path : List PathStep) : Located → Except DecodeError String
  | .str (.ok s) _ => .ok s
  | other => .error (other.mismatch path "a string")

/-- Read the tag of a definition. -/
def readKind (path : List PathStep) : Located → Except DecodeError Kind
  | .str (.ok s) stop =>
      match Definition.kindOf s with
      | .ok kind => .ok kind
      | .error cause => .error ⟨path, cause, some stop⟩
  | other => .error (other.mismatch path Definition.tagExpected)

/-- The number of containers around the content of a definition. -/
def contentDepth : Nat := 3

/-- Read the members of a definition: its kind, wherever it stands, and the other members. -/
def readTagged (path : List PathStep) : (tag : Option Kind) → Members →
    Except DecodeError (Kind × List (String × Json))
  | none, .close stop => .error ⟨path, .missingField Definition.tagField, some stop⟩
  | some kind, .close _ => .ok (kind, [])
  | _, .broken reading _ => .error (.ofStop (path ++ [.unknown]) reading)
  | _, .noColon (.error stop) _ _ => .error (.ofStop (path ++ [.unknown]) stop)
  | _, .cons (.error stop) _ _ _ _ => .error (.ofStop (path ++ [.unknown]) stop)
  | tag, .noColon (.ok key) afterKey colon =>
      if key = Definition.tagField ∧ tag.isSome then
        .error ⟨path, .duplicateField Definition.tagField, some afterKey⟩
      else .error (.ofStop path colon)
  | tag, .cons (.ok key) afterKey value _ rest =>
      if key = Definition.tagField then
        match tag with
        | some _ => .error ⟨path, .duplicateField Definition.tagField, some afterKey⟩
        | none => do
            let kind ← readKind (path ++ [.key key]) value
            readTagged path (some kind) rest
      else do
        let value ← value.read (path ++ [.key key]) contentDepth
        let (kind, others) ← readTagged path tag rest
        return (kind, (key, value) :: others)

/-- Read a definition; `after` is where the reader stands once it is past the definition. -/
def readDefinition (path : List PathStep) (after : Nat) : Located → Except DecodeError Definition
  | .obj _ members => do
      let (kind, content) ← readTagged path none members
      conclude (Definition.decode kind (.obj content))
  | .arr _ (.close stop) => .error ⟨path, .missingField Definition.tagField, some stop⟩
  | .arr _ (.broken reading _) => .error (.ofStop path reading)
  | .arr _ (.cons _ tag rest) => do
      let kind ← readKind (path ++ [.index 0]) tag
      let content ← readAll path contentDepth 1 rest
      conclude (Definition.decode kind (.arr content))
  | other => .error (other.mismatch path Definition.expected)
where
  /-- Report a cause in the content at the definition. -/
  conclude (result : Except DecodeCause Definition) : Except DecodeError Definition :=
    match result with
    | .ok definition => .ok definition
    | .error cause => .error ⟨path, cause, some after⟩

/-- Read the members of `types` after those that were read before. -/
def readDefinitions (path : List PathStep) : (types : Dict Definition) → Members →
    Except DecodeError (Dict Definition)
  | types, .close _ => .ok types
  | _, .broken reading _ => .error (.ofStop (path ++ [.unknown]) reading)
  | _, .noColon (.error stop) _ _ => .error (.ofStop (path ++ [.unknown]) stop)
  | _, .cons (.error stop) _ _ _ _ => .error (.ofStop (path ++ [.unknown]) stop)
  | _, .noColon (.ok _) _ colon => .error (.ofStop path colon)
  | types, .cons (.ok key) _ value afterValue rest => do
      let definition ← readDefinition (path ++ [.key key]) afterValue value
      readDefinitions path (types.insert key definition) rest

/-- Read the map of types of an assembly. -/
def readTypes (path : List PathStep) : Located → Except DecodeError (Dict Definition)
  | .obj _ members => readDefinitions path [] members
  | other => .error (other.mismatch path "a map")

/-- The fields of an assembly that have been read. -/
structure AssemblyFields where
  name : Option String
  types : Option (Dict Definition)

/-- Whether a field of an assembly has been read before. -/
def AssemblyFields.has (fields : AssemblyFields) (key : String) : Bool :=
  (key = "name" && fields.name.isSome) || (key = "types" && fields.types.isSome)

/-- The assembly; a missing name is empty, and missing types are none. -/
def AssemblyFields.toAssembly (fields : AssemblyFields) : Assembly :=
  ⟨fields.name.getD "", fields.types.getD []⟩

/-- Read the members of an assembly. Unknown ones are skipped. -/
def readAssemblyFields : (fields : AssemblyFields) → Members → Except DecodeError AssemblyFields
  | fields, .close _ => .ok fields
  | _, .broken reading _ => .error (.ofStop [.unknown] reading)
  | _, .noColon (.error stop) _ _ => .error (.ofStop [.unknown] stop)
  | _, .cons (.error stop) _ _ _ _ => .error (.ofStop [.unknown] stop)
  | fields, .noColon (.ok key) afterKey colon =>
      if fields.has key then .error ⟨[], .duplicateField key, some afterKey⟩
      else .error (.ofStop [] colon)
  | fields, .cons (.ok key) afterKey value _ rest =>
      if fields.has key then .error ⟨[], .duplicateField key, some afterKey⟩
      else if key = "name" then do
        let name ← readText [.key key] value
        readAssemblyFields { fields with name := some name } rest
      else if key = "types" then do
        let types ← readTypes [.key key] value
        readAssemblyFields { fields with types := some types } rest
      else
        match value.skip with
        | some stop => .error (.ofStop [.key key] stop)
        | none => readAssemblyFields fields rest

/-- Read an assembly: an object, or an array of its name and types. -/
def readAssembly : Located → Except DecodeError Assembly
  | .obj _ members => do
      let fields ← readAssemblyFields ⟨none, none⟩ members
      return fields.toAssembly
  | .arr _ (.close _) => .ok ⟨"", []⟩
  | .arr _ (.broken reading _) => .error (.ofStop [] reading)
  | .arr _ (.cons _ name rest) => do
      let name ← readText [.index 0] name
      match rest with
      | .close _ => return ⟨name, []⟩
      | .broken reading _ => .error (.ofStop [] reading)
      | .cons _ types rest => do
          let types ← readTypes [.index 1] types
          match rest.surplus with
          | none => return ⟨name, types⟩
          | some stop => .error (.ofStop [] stop)
  | other => .error (other.mismatch [] "struct Assembly")

end Located

/-- Decode the assembly that a text starts with. -/
def Assembly.ofText (text : String) : Except DecodeError Assembly :=
  Located.readAssembly (Located.ofText text)

/-! ## From a value -/

namespace Definition

/-- Put a path to a cause. -/
def locate {α : Type} (path : List PathStep) : Except DecodeCause α → Except DecodeError α
  | .ok value => .ok value
  | .error cause => .error ⟨path, cause, none⟩

/-- The kind that a value names. -/
def kindOfJson : Json → Except DecodeCause Kind
  | .str tag => kindOf tag
  | other => .error (.invalidType other tagExpected)

/-- Decode a definition at a path. -/
def ofJson (path : List PathStep) : Json → Except DecodeError Definition
  | .obj members =>
      match Dict.find? members tagField with
      | none => locate path (.error (.missingField tagField))
      | some tag => do
          let kind ← locate (path ++ [.key tagField]) (kindOfJson tag)
          locate path (decode kind (.obj (members.filter fun m => m.1 ≠ tagField)))
  | .arr [] => locate path (.error (.missingField tagField))
  | .arr (tag :: content) => do
      let kind ← locate (path ++ [.index 0]) (kindOfJson tag)
      locate path (decode kind (.arr content))
  | other => locate path (.error (.invalidType other expected))

/-- Decode the members of `types` after those that were decoded before. -/
def allOfJson (path : List PathStep) : (types : Dict Definition) → List (String × Json) →
    Except DecodeError (Dict Definition)
  | types, [] => .ok types
  | types, (key, value) :: rest => do
      let definition ← ofJson (path ++ [.key key]) value
      allOfJson path (types.insert key definition) rest

/-- Decode a map of types. -/
def typesOfJson (path : List PathStep) : Json → Except DecodeError (Dict Definition)
  | .obj members => allOfJson path [] members
  | other => locate path (.error (.invalidType other "a map"))

end Definition

namespace Assembly

/-- Decode the members of an assembly one after the other. -/
def fieldsOfJson : (fields : Located.AssemblyFields) → List (String × Json) →
    Except DecodeError Located.AssemblyFields
  | fields, [] => .ok fields
  | fields, (key, value) :: rest =>
      if fields.has key then .error ⟨[], .duplicateField key, none⟩
      else if key = "name" then do
        let name ← Definition.locate [.key key] value.asText
        fieldsOfJson { fields with name := some name } rest
      else if key = "types" then do
        let types ← Definition.typesOfJson [.key key] value
        fieldsOfJson { fields with types := some types } rest
      else fieldsOfJson fields rest

/-- Decode an assembly from a value. -/
def ofJson : Json → Except DecodeError Assembly
  | .obj members => do
      let fields ← fieldsOfJson ⟨none, none⟩ members
      return fields.toAssembly
  | .arr [] => .ok ⟨"", []⟩
  | .arr [name] => do
      let name ← Definition.locate [.index 0] name.asText
      return ⟨name, []⟩
  | .arr (name :: types :: extra) => do
      let name ← Definition.locate [.index 0] name.asText
      let types ← Definition.typesOfJson [.index 1] types
      if extra.isEmpty then return ⟨name, types⟩
      else .error ⟨[], .surplusElements (extra.length + 2), none⟩
  | other => .error ⟨[], .invalidType other "struct Assembly", none⟩

end Assembly

end ManifestSchema
