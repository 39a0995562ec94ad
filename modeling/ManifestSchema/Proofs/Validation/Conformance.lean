import ManifestSchema.Proofs.Compile.Fragment
import ManifestSchema.TypeSystem.Inheritance

/-!
# Conformance

Which values a type stands for, said of the type system alone: no schema and no definition is looked
at. What a value of a broken or clashing name may be is not restricted.
-/

namespace ManifestSchema

/-- Whether a value is of a primitive type. A date is a text. -/
def Primitive.accepts : Primitive → Json → Bool
  | .string, .str _ | .date, .str _ | .number, .num _ | .boolean, .bool _ | .json, .obj _ => true
  | .any, _ => true
  | _, _ => false

/-- `ts.Conforms taken offered type v`: the value `v` is one of the type. Other owners hold the keys
in `taken`, and the values in `offered` may stand for any property.

* An object of a class or interface has properties of it only, each with a value of its type, and
  none that is required is missing; an interface without properties accepts any object.
* Parts of a value are smaller than the value, so a type may refer to itself. -/
def TypeSystem.Conforms (ts : TypeSystem) (taken : String → Bool) (offered : Json → Prop) :
    TypeRef → Json → Prop
  | .primitive p, v => p.accepts v = true
  | .named name, v =>
      match ts.find? name with
      | none => True
      | some (.enumDef e) => ∃ member ∈ e.members, v = .str member
      | some d =>
          taken name = true ∨
          match v with
          | .obj members =>
              ts.isMarker d = true ∨
              (∀ key w, (key, w) ∈ members → ∃ p, (ts.flatten d).properties.find? key = some p ∧
                (offered w ∨ ts.Conforms taken offered p.type w)) ∧
              ∀ p ∈ (ts.flatten d).properties, p.2.optional = false →
                Dict.contains members p.1 = true
          | _ => False
  | .union members, v => ∃ m, ∃ _ : m ∈ members, ts.Conforms taken offered m v
  | .collection .array element, .arr elements =>
      ∀ w, w ∈ elements → ts.Conforms taken offered element w
  | .collection .map element, .obj members =>
      ∀ key w, (key, w) ∈ members → ts.Conforms taken offered element w
  | .collection _ _, _ => False
  | .unsupported _, _ => True
termination_by type v => (sizeOf v, sizeOf type)
decreasing_by
  · exact Prod.Lex.left _ _ (Json.sizeOf_lt_of_mem ‹_›)
  · exact Prod.Lex.right _ (by
      have smaller := List.sizeOf_lt_of_mem ‹_›
      rw [TypeRef.union.sizeOf_spec]
      omega)
  · exact Prod.Lex.left _ _ (by
      have smaller := List.sizeOf_lt_of_mem ‹_›
      rw [Json.arr.sizeOf_spec]
      omega)
  · exact Prod.Lex.left _ _ (Json.sizeOf_lt_of_mem ‹_›)

namespace TypeSystem

variable {ts : TypeSystem} {taken : String → Bool} {offered : Json → Prop} {name : String}
  {v : Json}

theorem conforms_of_undeclared (missing : ts.find? name = none) :
    ts.Conforms taken offered (.named name) v := by
  rw [Conforms, missing]
  trivial

theorem conforms_enum_iff {e : EnumType} (found : ts.find? name = some (.enumDef e)) :
    ts.Conforms taken offered (.named name) v ↔ ∃ member ∈ e.members, v = .str member := by
  rw [Conforms, found]

theorem conforms_of_taken {d : Definition} (found : ts.find? name = some d)
    (isObject : d.isObject = true) (held : taken name = true) :
    ts.Conforms taken offered (.named name) v := by
  rw [Conforms, found]
  cases d with
  | enumDef _ => cases isObject
  | classDef _ | interfaceDef _ => exact .inl held

theorem conforms_object_iff {d : Definition} (found : ts.find? name = some d)
    (isObject : d.isObject = true) (free : taken name = false) :
    ts.Conforms taken offered (.named name) v ↔ ∃ members, v = .obj members ∧
      (ts.isMarker d = true ∨
        (∀ key w, (key, w) ∈ members → ∃ p, (ts.flatten d).properties.find? key = some p ∧
          (offered w ∨ ts.Conforms taken offered p.type w)) ∧
        ∀ p ∈ (ts.flatten d).properties, p.2.optional = false →
          Dict.contains members p.1 = true) := by
  rw [Conforms, found]
  cases d with
  | enumDef _ => cases isObject
  | classDef _ | interfaceDef _ => cases v <;> simp [free]

end TypeSystem

end ManifestSchema
