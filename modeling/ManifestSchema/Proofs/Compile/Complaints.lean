import ManifestSchema.Proofs.Compile.Fragment
import Mathlib.Algebra.GroupWithZero.Nat

/-!
# What is wrong with types

The messages that the compiler has for a reference and for a class or interface, apart from the
scopes that they are written to. A leaf of a reference is bad when nothing can be compiled for it;
each bad leaf is an error of the reference, and the errors of a type are those of its ancestors and
those of the references in its properties.

Results:

1. `Compiler.length_complaints`: there is one complaint for each bad leaf;
2. `Compiler.length_objectErrors` and `Compiler.length_objectWarnings`: the numbers of messages of a
   class or interface.
-/

namespace ManifestSchema

/-! ## Holders of keys -/

/-- Whether a key has a holder. -/
def isHeld (holder : String → Option Owner) (key : String) : Bool := (holder key).isSome

namespace Registry

/-- Who other than the types holds a key. -/
def holder? (r : Registry) (key : String) : Option Owner :=
  (r.owner? key).filter fun owner => owner != .type

theorem isHeld_holder? (r : Registry) : isHeld r.holder? = r.taken := by
  funext key
  unfold isHeld holder? taken
  cases r.owner? key with
  | none => rfl
  | some owner => cases owner <;> rfl

theorem holder?_append_types (r : Registry) {d : Dict Slot} (types : ∀ p ∈ d, p.2.owner = .type) :
    holder? ⟨r.slots ++ d⟩ = r.holder? := by
  funext key
  simp only [holder?, owner?, Dict.find?_append]
  cases r.slots.find? key with
  | some slot => rfl
  | none =>
      cases found : d.find? key with
      | none => rfl
      | some slot =>
          have owner := types _ (Dict.mem_of_find? found)
          simp only at owner
          simp [owner]

theorem holder?_adjust (r : Registry) (key : String) (f : Slot → Slot)
    (same : ∀ slot, (f slot).owner = slot.owner) : holder? ⟨r.slots.adjust key f⟩ = r.holder? := by
  funext other
  simp only [holder?, owner?, Dict.find?_adjust]
  split
  · cases r.slots.find? other <;> simp [same]
  · rfl

end Registry

/-! ## Leaves -/

namespace TypeRef

mutual

/-- The parts of a reference that are neither unions nor collections, in order. -/
def leaves : TypeRef → List TypeRef
  | .primitive p => [.primitive p]
  | .named name => [.named name]
  | .union members => leavesOfAll members
  | .collection _ element => leaves element
  | .unsupported raw => [.unsupported raw]

/-- The leaves of references, in order. -/
def leavesOfAll : List TypeRef → List TypeRef
  | [] => []
  | type :: rest => leaves type ++ leavesOfAll rest

end

end TypeRef

namespace Compiler

/-- Whether a leaf cannot be compiled: it has none of the known shapes, nothing has its name, or the
key of the class or interface belongs to someone else. -/
def isBad (k : Compiler) (taken : String → Bool) : TypeRef → Bool
  | .unsupported _ => true
  | .named name =>
      match k.types.role taken name with
      | .undeclared | .taken => true
      | .enumeration _ | .object => false
  | .primitive _ | .union _ | .collection _ _ => false

/-- The number of leaves of a reference that cannot be compiled. -/
def badLeaves (k : Compiler) (taken : String → Bool) (type : TypeRef) : Nat :=
  type.leaves.countP (k.isBad taken)

/-- What is said about a leaf that cannot be compiled. -/
def complaint? (k : Compiler) (holder : String → Option Owner) : TypeRef → Option String
  | .unsupported raw => some ("unsupported type reference " ++ raw.compact)
  | .named name =>
      match k.types.find? name with
      | none => some ("unresolvable type reference " ++ name)
      | some (.enumDef _) => none
      | some _ => (holder name).map fun owner =>
          "type " ++ name ++ " clashes with the " ++ owner.text ++ " definition of the same key"
  | .primitive _ | .union _ | .collection _ _ => none

/-- What is said about a reference. -/
def complaints (k : Compiler) (holder : String → Option Owner) (type : TypeRef) : List String :=
  type.leaves.filterMap (k.complaint? holder)

/-- The errors of a class or interface. -/
def objectErrors (k : Compiler) (holder : String → Option Owner) (d : Definition) : List String :=
  (k.types.flatten d).cycles.map ("inheritance cycle through " ++ ·) ++
    (k.types.flatten d).unresolved.map ("unresolvable base type " ++ ·) ++
    (k.types.flatten d).properties.flatMap fun p => k.complaints holder p.2.type

/-- The warnings of a class or interface. -/
def objectWarnings (k : Compiler) (d : Definition) : List String :=
  if k.types.isMarker d then [markerInterfaceWarning] else []

/-- The number of errors of the class or interface of a name. -/
def errorsOf (k : Compiler) (taken : String → Bool) (name : String) : Nat :=
  match k.types.find? name with
  | none => 0
  | some d =>
      (k.types.flatten d).cycles.length + (k.types.flatten d).unresolved.length +
        ((k.types.flatten d).properties.map fun p => k.badLeaves taken p.2.type).sum

/-- Whether a name is that of an interface without properties. -/
def namesMarker (k : Compiler) (name : String) : Bool := (k.types.find? name).any k.types.isMarker

variable {k : Compiler} {holder : String → Option Owner}

theorem isSome_complaint? (leaf : TypeRef) :
    (k.complaint? holder leaf).isSome = k.isBad (isHeld holder) leaf := by
  cases leaf with
  | primitive _ | union _ | collection _ _ | unsupported _ => rfl
  | named name =>
      simp only [complaint?, isBad, TypeSystem.role, isHeld]
      cases k.types.find? name with
      | none => rfl
      | some d =>
          cases d with
          | enumDef _ => rfl
          | classDef _ | interfaceDef _ =>
              by_cases held : (holder name).isSome = true <;> simp [held]

theorem length_complaints (type : TypeRef) :
    (k.complaints holder type).length = k.badLeaves (isHeld holder) type := by
  unfold complaints badLeaves
  rw [List.length_filterMap_eq_countP]
  simp only [isSome_complaint?]

theorem length_objectErrors {name : String} {d : Definition}
    (found : k.types.find? name = some d) :
    (k.objectErrors holder d).length = k.errorsOf (isHeld holder) name := by
  simp only [errorsOf, found, objectErrors, List.length_append, List.length_map,
    List.length_flatMap, length_complaints]

theorem length_objectWarnings {name : String} {d : Definition}
    (found : k.types.find? name = some d) :
    (k.objectWarnings d).length = if k.namesMarker name then 1 else 0 := by
  unfold objectWarnings namesMarker
  rw [found, Option.any_some]
  split <;> rfl

end Compiler

end ManifestSchema
