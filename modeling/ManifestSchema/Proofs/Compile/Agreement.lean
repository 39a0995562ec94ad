import ManifestSchema.Proofs.Compile.Complaints
import ManifestSchema.Proofs.Compile.Locality

/-!
# Compilers that agree

Two compilers that find the same definition under every name compile every type alike, however the
definitions are ordered. It is enough that the keys of declared types are held by others on both
sides or on neither side.

Results:

1. `Compiler.Agree.fragment` and `Compiler.Agree.definitionBody`: references and definitions have
   the same schemas;
2. `Compiler.Agree.leads`: definitions lead to the same definitions;
3. `Compiler.Agree.badLeaves`, `Compiler.Agree.errorsOf` and `Compiler.Agree.namesMarker`: the same
   is wrong with them.
-/

namespace ManifestSchema

namespace Compiler

variable {k k' : Compiler} {taken taken' : String → Bool}

/-- Two compilers find the same types, offer the same alternative, and see the same keys of types
taken. -/
structure Agree (k k' : Compiler) (taken taken' : String → Bool) : Prop where
  keyed : k.types.WellKeyed
  keyed' : k'.types.WellKeyed
  found : ∀ name, k.types.find? name = k'.types.find? name
  alternative : k.alternative = k'.alternative
  holders : ∀ name d, k.types.find? name = some d → taken name = taken' name

theorem Agree.role (h : Agree k k' taken taken') (name : String) :
    k.types.role taken name = k'.types.role taken' name := by
  unfold TypeSystem.role
  rw [← h.found name]
  cases found : k.types.find? name with
  | none => rfl
  | some d => rw [h.holders name d found]

theorem Agree.opens (h : Agree k k' taken taken') :
    k.types.opens taken = k'.types.opens taken' := by
  funext name
  rw [Bool.eq_iff_iff, ← TypeSystem.role_object_iff, ← TypeSystem.role_object_iff, h.role]

theorem Agree.flatten (h : Agree k k' taken taken') {name : String} {d : Definition}
    (found : k.types.find? name = some d) : k.types.flatten d = k'.types.flatten d :=
  TypeSystem.flatten_congr h.keyed h.keyed' found fun other _ => h.found other

theorem Agree.leads (h : Agree k k' taken taken') :
    k.types.leads taken = k'.types.leads taken' := by
  funext name
  unfold TypeSystem.leads TypeSystem.propertyNames
  rw [← h.found name, h.opens]
  cases found : k.types.find? name with
  | none => rfl
  | some d => simp only [h.flatten found]

theorem Agree.fragment (h : Agree k k' taken taken') :
    k.fragment taken = k'.fragment taken' := by
  funext type
  exact fragment_congr type fun name _ => h.role name

theorem Agree.definitionBody (h : Agree k k' taken taken') :
    k.definitionBody taken = k'.definitionBody taken' := by
  funext name
  cases found : k.types.find? name with
  | none => rw [Compiler.definitionBody, Compiler.definitionBody, ← h.found name, found]
  | some d =>
      exact definitionBody_congr h.keyed h.keyed' h.alternative found
        ⟨fun other _ => h.found other, fun _ _ other _ => h.role other⟩

theorem Agree.typeSlot (h : Agree k k' taken taken') :
    k.typeSlot taken = k'.typeSlot taken' := by
  funext name
  rw [Compiler.typeSlot, Compiler.typeSlot, h.definitionBody]

theorem Agree.badLeaves (h : Agree k k' taken taken') :
    k.badLeaves taken = k'.badLeaves taken' := by
  have bad : k.isBad taken = k'.isBad taken' := by
    funext leaf
    cases leaf with
    | named name => rw [isBad, isBad, h.role name]
    | primitive _ | union _ | collection _ _ | unsupported _ => rfl
  funext type
  rw [Compiler.badLeaves, Compiler.badLeaves, bad]

theorem Agree.errorsOf (h : Agree k k' taken taken') :
    k.errorsOf taken = k'.errorsOf taken' := by
  funext name
  unfold Compiler.errorsOf
  rw [← h.found name, h.badLeaves]
  cases found : k.types.find? name with
  | none => rfl
  | some d => simp only [h.flatten found]

theorem Agree.namesMarker (h : Agree k k' taken taken') : k.namesMarker = k'.namesMarker := by
  funext name
  unfold Compiler.namesMarker
  rw [← h.found name]
  cases found : k.types.find? name with
  | none => rw [Option.any_none, Option.any_none]
  | some d =>
      rw [Option.any_some, Option.any_some, TypeSystem.isMarker, TypeSystem.isMarker,
        h.flatten found]

end Compiler

end ManifestSchema
