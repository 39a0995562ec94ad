import ManifestSchema.Proofs.Compile.Fragment
import ManifestSchema.Proofs.Inheritance.Walk

/-!
# Legal schemas

A schema is an object whose keywords have values of the right form, with legal schemas wherever a
keyword holds schemas, or it is a truth value. The only rule that the fragments of types can break
is the one about alternatives, of which there has to be one at least: a union without members has
none. The rule is therefore kept apart from the others.

Results:

1. `Json.legal_obj` and the lemmas `Json.legal_...` beside it: when the fragments of types are legal;
2. `Compiler.legal_fragment`: the schema of a reference is legal, but for unions without members;
3. `TypeSystem.distinct_flatten`: a type has no two properties of one name;
4. `Compiler.legal_definitionBody`: so the definition of a type is legal, but for such unions in its
   properties.
-/

namespace ManifestSchema

/-! ## Keywords -/

namespace Keyword

/-- A text. -/
def isText : Json → Bool
  | .str _ => true
  | _ => false

/-- A non-negative integer. -/
def isCount : Json → Bool
  | .num (.int n) => decide (0 ≤ n)
  | _ => false

/-- Texts without repetitions. -/
def areNames : Json → Bool
  | .arr elements => elements.all isText && decide elements.Nodup
  | _ => false

/-- A list of values. -/
def areValues : Json → Bool
  | .arr _ => true
  | _ => false

/-- The name of a type of JSON values. -/
def isType : Json → Bool
  | .str name => ["array", "boolean", "integer", "null", "number", "object", "string"].contains name
  | _ => false

/-- The name of a type, or one name at least without repetitions. -/
def areTypes : Json → Bool
  | .arr elements => !elements.isEmpty && elements.all isType && decide elements.Nodup
  | value => isType value

/-- What stands behind a keyword: a plain value, or schemas in some arrangement. -/
inductive Form
  | plain (fits : Json → Bool)
  | schema
  | named
  | alternatives

/-- The form of the value of a keyword. Legal schemas have no keywords but these. -/
def form? : String → Option Form
  | "$schema" | "$ref" | "description" | "format" | "pattern" => some (.plain isText)
  | "minItems" | "maxItems" => some (.plain isCount)
  | "required" => some (.plain areNames)
  | "enum" => some (.plain areValues)
  | "type" => some (.plain areTypes)
  | "items" | "additionalProperties" => some .schema
  | "properties" | "patternProperties" | "definitions" => some .named
  | "anyOf" | "oneOf" => some .alternatives
  | _ => none

end Keyword

/-! ## Schemas -/

namespace Json

mutual

/-- Whether a value is a legal schema. Lists of alternatives may be empty unless the reading is
strict. -/
def legal (strict : Bool) : Json → Bool
  | .bool _ => true
  | .obj members => legalMembers strict members
  | .null | .num _ | .str _ | .arr _ => false

/-- Whether the members of a schema are legal, each in the form that its keyword asks for. -/
def legalMembers (strict : Bool) : List (String × Json) → Bool
  | [] => true
  | (key, value) :: rest =>
      (match Keyword.form? key with
        | some (.plain fits) => fits value
        | some .schema => legal strict value
        | some .named => legalNamed strict value
        | some .alternatives => legalAlternatives strict value
        | none => false) && legalMembers strict rest

/-- Whether a value maps names to legal schemas. -/
def legalNamed (strict : Bool) : Json → Bool
  | .obj members => legalValues strict members
  | .null | .bool _ | .num _ | .str _ | .arr _ => false

/-- Whether the values of members are legal schemas. -/
def legalValues (strict : Bool) : List (String × Json) → Bool
  | [] => true
  | (_, value) :: rest => legal strict value && legalValues strict rest

/-- Whether a value is a list of alternatives that are legal schemas. -/
def legalAlternatives (strict : Bool) : Json → Bool
  | .arr elements => !(strict && elements.isEmpty) && legalElements strict elements
  | .null | .bool _ | .num _ | .str _ | .obj _ => false

/-- Whether the elements of a list are legal schemas. -/
def legalElements (strict : Bool) : List Json → Bool
  | [] => true
  | value :: rest => legal strict value && legalElements strict rest

end

variable {strict : Bool}

@[simp] theorem legal_obj (members : Dict Json) :
    legal strict (.obj members) = legalMembers strict members := rfl

@[simp] theorem legal_bool (b : Bool) : legal strict (.bool b) = true := rfl

theorem legalElements_eq_all (elements : List Json) :
    legalElements strict elements = elements.all (legal strict) := by
  induction elements with
  | nil => rfl
  | cons value rest ih => rw [legalElements, ih, List.all_cons]

theorem legalValues_eq_all (members : Dict Json) :
    legalValues strict members = members.all fun p => legal strict p.2 := by
  induction members with
  | nil => rfl
  | cons p rest ih => rw [legalValues, ih, List.all_cons]

theorem legalMembers_append (d e : Dict Json) :
    legalMembers strict (d ++ e) = (legalMembers strict d && legalMembers strict e) := by
  induction d with
  | nil => rfl
  | cons p rest ih => rw [List.cons_append, legalMembers, legalMembers, ih, Bool.and_assoc]

/-- A description is legal wherever it stands. -/
theorem legalMembers_insertNew_description (members : Dict Json) (text : String) :
    legalMembers strict (Dict.insertNew members "description" (.str text)) =
      legalMembers strict members := by
  unfold Dict.insertNew
  split
  · rfl
  · rw [legalMembers_append]
    exact Bool.and_true _

@[simp] theorem legal_describedBy (key : String) (schema : Json) :
    legal strict (describedBy key schema) = legal strict schema := by
  cases schema with
  | obj members => exact legalMembers_insertNew_description members key
  | null | bool _ | num _ | str _ | arr _ => rfl

@[simp] theorem legal_describe (summary : Option String) (schema : Json) :
    legal strict (Fragment.describe summary schema) = legal strict schema := by
  cases schema with
  | obj members =>
      cases summary with
      | none => rfl
      | some text => exact legalMembers_insertNew_description members text
  | null | bool _ | num _ | str _ | arr _ => rfl

@[simp] theorem legal_reference (key : String) : legal strict (reference key) = true := rfl

@[simp] theorem legal_any : legal strict Fragment.any = true := rfl

theorem legal_anyOf (schemas : List Json) :
    legal strict (Fragment.anyOf schemas) =
      (!(strict && schemas.isEmpty) && schemas.all (legal strict)) := by
  rw [← legalElements_eq_all]
  exact Bool.and_true _

@[simp] theorem legal_collection (kind : CollectionKind) (element : Json) :
    legal strict (Fragment.collection kind element) = legal strict element := by
  cases kind <;> exact Bool.and_true _

@[simp] theorem legal_primitive (p : Primitive) : legal strict (Fragment.primitive p) = true := by
  cases p <;> rfl

@[simp] theorem legalMembers_description (summary : Option String) :
    legalMembers strict (Fragment.description summary) = true := by
  cases summary <;> rfl

@[simp] theorem legal_enumeration (e : EnumType) : legal strict (Fragment.enumeration e) = true := by
  rw [Fragment.enumeration, legal_obj, legalMembers_append, legalMembers_description]
  rfl

theorem areNames_strings {names : List String} (apart : names.Nodup) :
    Keyword.areNames (.strings names) = true := by
  have texts : (names.map Json.str).all Keyword.isText = true := by
    simp [Keyword.isText]
  have apart' : (names.map Json.str).Nodup :=
    List.pairwise_map.2 (apart.imp fun other same => other (Json.str.inj same))
  simp [strings, Keyword.areNames, texts, apart']

theorem legalMembers_required {names : List String} (apart : names.Nodup) :
    legalMembers strict (Fragment.required names) = true := by
  unfold Fragment.required
  split
  · rfl
  · simp [legalMembers, Keyword.form?, areNames_strings apart]

theorem legal_object {properties : Dict Json} {names : List String} (apart : names.Nodup)
    (summary : Option String) :
    legal strict (Fragment.object properties names summary) =
      properties.all fun p => legal strict p.2 := by
  rw [Fragment.object, legal_obj, legalMembers_append, legalMembers_append,
    legalMembers_required apart, legalMembers_description, Bool.and_true, Bool.and_true,
    ← legalValues_eq_all]
  exact Bool.and_true _

end Json

/-! ## References -/

namespace TypeRef

mutual

/-- Whether a union without members occurs in a reference. -/
def hollow : TypeRef → Bool
  | .union members => members.isEmpty || anyHollow members
  | .collection _ element => element.hollow
  | .primitive _ | .named _ | .unsupported _ => false

/-- Whether a union without members occurs in one of some references. -/
def anyHollow : List TypeRef → Bool
  | [] => false
  | type :: rest => type.hollow || anyHollow rest

end

end TypeRef

namespace Compiler

variable {strict : Bool}

mutual

/-- The schema of a reference is legal, but for unions without members. -/
theorem legal_fragment (k : Compiler) (taken : String → Bool) : (type : TypeRef) →
    (k.fragment taken type).legal strict = !(strict && type.hollow)
  | .primitive _ | .unsupported _ => by simp [fragment, TypeRef.hollow]
  | .named name => by
      rw [fragment, TypeRef.hollow]
      split <;> simp
  | .union members => by
      have few : (k.fragments taken members).isEmpty = members.isEmpty := by
        rw [fragments_eq_map, List.isEmpty_map]
      rw [fragment, Json.legal_anyOf, legal_fragments k taken members, few, TypeRef.hollow]
      cases strict <;> simp
  | .collection kind element => by
      rw [fragment, Json.legal_collection, legal_fragment k taken element, TypeRef.hollow]

theorem legal_fragments (k : Compiler) (taken : String → Bool) : (types : List TypeRef) →
    (k.fragments taken types).all (Json.legal strict) = !(strict && TypeRef.anyHollow types)
  | [] => by simp [fragments, TypeRef.anyHollow]
  | type :: rest => by
      rw [fragments, List.all_cons, legal_fragment k taken type, legal_fragments k taken rest,
        TypeRef.anyHollow]
      cases strict <;> simp

end

end Compiler

/-! ## Properties -/

namespace TypeSystem

variable {ts : TypeSystem}

/-- A type has no two properties of one name. -/
theorem distinct_flatten (ts : TypeSystem) (d : Definition) :
    (ts.flatten d).properties.Distinct := by
  have none : Dict.Distinct ([] : Dict Property) := List.nodup_nil
  have within : ∀ n path w, (ts.flattenWithin n path d w).1.Distinct := by
    intro n path w
    cases n with
    | zero => exact none
    | succ n =>
        rw [flattenWithin_succ]
        split
        · exact (Dict.distinct_ofList _).insertAllNew _
        · exact none
  exact within ts.walkBound [] ⟨[], [], []⟩

/-- Whether a union without members occurs in the properties of a type. -/
def hollow (ts : TypeSystem) (d : Definition) : Bool :=
  (ts.flatten d).properties.any fun p => p.2.type.hollow

end TypeSystem

/-! ## Definitions -/

namespace Compiler

variable {k : Compiler} {taken : String → Bool} {strict : Bool}

theorem nodup_requiredNames {properties : Dict Property} (distinct : properties.Distinct) :
    (requiredNames properties).Nodup :=
  (List.Sublist.map Prod.fst List.filter_sublist).nodup distinct

theorem legal_propertySchema (p : Property) :
    (k.propertySchema taken p).legal strict = !(strict && p.type.hollow) := by
  rw [propertySchema, Json.legal_describe, withAlternative, ← legal_fragment k taken]
  cases k.alternative with
  | none => rfl
  | some key => simp [Json.legal_anyOf]

theorem legal_objectSchema (d : Definition) :
    (k.objectSchema taken d).legal strict = !(strict && k.types.hollow d) := by
  unfold objectSchema TypeSystem.hollow
  split
  · next marker =>
      have empty := (Bool.and_eq_true _ _ ▸ marker).1
      rw [List.isEmpty_iff.1 empty, List.any_nil, Bool.and_false]
      rfl
  · rw [Json.legal_object (nodup_requiredNames (k.types.distinct_flatten d)), propertySchemas,
      List.all_map]
    simp only [Function.comp_def, legal_propertySchema]
    cases strict with
    | false => simp
    | true => simp [List.all_eq_not_any_not]

/-- The definition of a type is legal, but for unions without members in its properties. -/
theorem legal_definitionBody {key : String} {d : Definition}
    (found : k.types.find? key = some d) :
    (k.definitionBody taken key).legal strict = !(strict && k.types.hollow d) := by
  rw [definitionBody_of_find found, Json.legal_describedBy, legal_objectSchema]

end Compiler

end ManifestSchema
