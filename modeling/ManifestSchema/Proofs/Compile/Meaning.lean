import ManifestSchema.Proofs.Compile.Run
import ManifestSchema.Proofs.Validation.Conformance
import ManifestSchema.Proofs.Validation.Lemmas
import Mathlib.Logic.Basic

/-!
# Compilation preserves meaning

The schema of a type accepts exactly the values that conform to the type. Schemas of recursive types
refer to each other through the definitions; a value that goes around such a circle gets smaller on
the way, so the two readings are compared by induction on the value and, inside a union, on the
type.

Results:

1. `Compiler.valid_fragment_iff`: with the right definitions, the schema of a type accepts the
   values of the type;
2. `Compiler.Run.valid_iff_conforms`: every run leaves the right definitions behind.
-/

namespace ManifestSchema

namespace Compiler

variable {k : Compiler} {taken : String → Bool} {offered : Json → Prop} {definitions : Dict Json}
  {keys : List String}

/-- Definitions that the schemas of types can be read with: they hold the bodies of the classes and
interfaces in `keys`, to which nothing that these lead to is missing, and what the alternative
accepts is `offered`. -/
structure Describes (k : Compiler) (taken : String → Bool) (offered : Json → Prop)
    (keys : List String) (definitions : Dict Json) : Prop where
  bodies : ∀ key ∈ keys, definitions.find? key = some (k.definitionBody taken key)
  closed : ∀ key ∈ keys, k.types.leads taken key ⊆ keys
  alternative : ∀ v, offered v ↔
    ∃ key, k.alternative = some key ∧ Valid definitions (reference key) v

theorem valid_primitive_iff {p : Primitive} {v : Json} :
    Valid definitions (Fragment.primitive p) v ↔ p.accepts v = true := by
  cases p with
  | any =>
      have accepts : Primitive.any.accepts v = true := by cases v <;> rfl
      exact iff_of_true (valid_any v) accepts
  | string | number | boolean | json =>
      rw [Fragment.primitive, valid_ofType_iff]
      cases v <;> simp [Primitive.accepts, Json.hasType]
  | date =>
      have date : Valid definitions
          (.obj [("type", .str "string"), ("format", .str "date-time")]) v ↔ _ :=
        valid_obj_iff (by simp [Dict.find?_cons])
      rw [Fragment.primitive, date]
      cases v <;>
        simp [Primitive.accepts, Keyword.meetsType, Keyword.meetsEnum, Keyword.meetsRequired,
          Keyword.choices?, Keyword.parts, Keyword.memberSchema?, Dict.find?_cons, Json.hasType]

theorem elements?_fragment (type : TypeRef) : (k.fragment taken type).elements? = none := by
  cases type with
  | primitive p => cases p <;> rfl
  | named name =>
      rw [fragment]
      split <;> rfl
  | union _ | unsupported _ => rfl
  | collection kind _ => cases kind <;> rfl

theorem valid_withAlternative_iff (describes : k.Describes taken offered keys definitions)
    {schema v : Json} :
    Valid definitions (k.withAlternative schema) v ↔ offered v ∨ Valid definitions schema v := by
  rw [withAlternative, describes.alternative]
  cases k.alternative with
  | none => simp
  | some key =>
      rw [valid_anyOf_iff]
      simp [or_comm]

theorem valid_propertySchema_iff (describes : k.Describes taken offered keys definitions)
    {p : Property} {v : Json} :
    Valid definitions (k.propertySchema taken p) v ↔
      offered v ∨ Valid definitions (k.fragment taken p.type) v := by
  rw [propertySchema, valid_describe_iff, valid_withAlternative_iff describes]

theorem forall_requiredNames_iff {properties : Dict Property} {P : String → Prop} :
    (∀ name ∈ requiredNames properties, P name) ↔
      ∀ p ∈ properties, p.2.optional = false → P p.1 := by
  simp [requiredNames]

/-- A reference to a class or interface leads to its properties. -/
theorem valid_object_reference_iff (describes : k.Describes taken offered keys definitions)
    {name : String} {d : Definition} (found : k.types.find? name = some d) (member : name ∈ keys)
    {v : Json} :
    Valid definitions (reference name) v ↔ ∃ members, v = .obj members ∧
      (k.types.isMarker d = true ∨
        (∀ key w, (key, w) ∈ members → ∃ p, (k.types.flatten d).properties.find? key = some p ∧
          (offered w ∨ Valid definitions (k.fragment taken p.type) w)) ∧
        ∀ p ∈ (k.types.flatten d).properties, p.2.optional = false →
          Dict.contains members p.1 = true) := by
  have body := describes.bodies name member
  rw [definitionBody_of_find found] at body
  rw [valid_reference_iff, body]
  simp only [Option.some.injEq, exists_eq_left', valid_describedBy_iff, objectSchema]
  by_cases marker : k.types.isMarker d = true
  · rw [if_pos marker, valid_ofType_iff]
    simp only [marker, true_or, and_true]
    cases v <;> simp [Json.hasType]
  · have member : ∀ m : String × Json, (∃ s, (k.propertySchemas taken
        (k.types.flatten d).properties).find? m.1 = some s ∧ Valid definitions s m.2) ↔
        ∃ p, (k.types.flatten d).properties.find? m.1 = some p ∧
          (offered m.2 ∨ Valid definitions (k.fragment taken p.type) m.2) := by
      intro m
      rw [propertySchemas, Dict.find?_map]
      simp only [Option.map_eq_some_iff, exists_exists_and_eq_and,
        valid_propertySchema_iff describes]
    rw [if_neg marker, valid_object_iff]
    simp only [member, forall_requiredNames_iff, marker, Bool.false_eq_true, false_or, Prod.forall]

/-- The schema of a name accepts the values of its type, when this holds of the types of properties
for all smaller values. -/
theorem valid_name_iff (describes : k.Describes taken offered keys definitions) {name : String}
    {v : Json} (named : k.types.opens taken name = true → name ∈ keys)
    (parts : ∀ (type : TypeRef) (w : Json), sizeOf w < sizeOf v →
      (∀ other ∈ type.names, k.types.opens taken other = true → other ∈ keys) →
      (Valid definitions (k.fragment taken type) w ↔ k.types.Conforms taken offered type w)) :
    Valid definitions (k.fragment taken (.named name)) v ↔
      k.types.Conforms taken offered (.named name) v := by
  cases found : k.types.find? name with
  | none =>
      rw [fragment_of_undeclared found]
      exact iff_of_true (valid_any v) (TypeSystem.conforms_of_undeclared found)
  | some d =>
      by_cases isObject : d.isObject = true
      · cases held : taken name with
        | true =>
            rw [fragment_of_taken found isObject held]
            exact iff_of_true (valid_any v) (TypeSystem.conforms_of_taken found isObject held)
        | false =>
            have opens := TypeSystem.opens_iff.2 ⟨d, found, isObject, held⟩
            have defined := named opens
            rw [fragment_of_opens opens, valid_object_reference_iff describes found defined,
              TypeSystem.conforms_object_iff found isObject held]
            -- both sides differ only in what the value of a member has to be
            refine exists_congr fun members => and_congr_right fun shape => or_congr_right
              (and_congr_left fun _ => forall_congr' fun key => forall_congr' fun w =>
                forall_congr' fun hw => exists_congr fun p => and_congr_right fun declared =>
                  or_congr_right ?_)
            -- the type of a property may be any, but its value is a part of the object
            have smaller : sizeOf w < sizeOf v := shape ▸ Json.sizeOf_lt_of_mem hw
            refine parts p.type w smaller fun other h opens' => describes.closed name defined ?_
            rw [TypeSystem.leads_of_find found]
            exact List.mem_filter.2
              ⟨List.mem_flatMap.2 ⟨(key, p), Dict.mem_of_find? declared, h⟩, opens'⟩
      · cases d with
        | classDef _ | interfaceDef _ => simp [Definition.isObject] at isObject
        | enumDef e =>
            rw [fragment_of_enum found, valid_enumeration_iff, TypeSystem.conforms_enum_iff found]

/-- The schema of a reference accepts the values of its type, when all classes and interfaces that
it names are defined. -/
theorem valid_fragment_iff (describes : k.Describes taken offered keys definitions) :
    (type : TypeRef) → (v : Json) →
      (∀ name ∈ type.names, k.types.opens taken name = true → name ∈ keys) →
      (Valid definitions (k.fragment taken type) v ↔ k.types.Conforms taken offered type v)
  | .primitive p, v, _ => by
      rw [fragment, TypeSystem.Conforms, valid_primitive_iff]
  | .unsupported _, v, _ => by
      rw [fragment, TypeSystem.Conforms]
      exact iff_of_true (valid_any v) trivial
  | .union members, v, named => by
      rw [fragment, TypeSystem.Conforms, valid_anyOf_iff, fragments_eq_map]
      simp only [List.mem_map, exists_exists_and_eq_and, exists_prop]
      refine exists_congr fun m => and_congr_right fun hm => ?_
      have smaller := List.sizeOf_lt_of_mem hm
      refine valid_fragment_iff describes m v fun name h => named name ?_
      rw [TypeRef.names, TypeRef.namesOfAll_eq_flatMap]
      exact List.mem_flatMap.2 ⟨m, hm, h⟩
  | .collection .array element, v, named => by
      rw [fragment, valid_array_iff (elements?_fragment element)]
      cases v with
      | arr elements =>
          simp only [TypeSystem.Conforms, Json.arr.injEq, exists_eq_left']
          refine forall_congr' fun w => forall_congr' fun hw => ?_
          have smaller := List.sizeOf_lt_of_mem hw
          exact valid_fragment_iff describes element w named
      | null | bool _ | num _ | str _ | obj _ => simp [TypeSystem.Conforms]
  | .collection .map element, v, named => by
      rw [fragment, valid_map_iff]
      cases v with
      | obj members =>
          simp only [TypeSystem.Conforms, Json.obj.injEq, exists_eq_left', Prod.forall]
          refine forall_congr' fun key => forall_congr' fun w => forall_congr' fun hw => ?_
          have smaller := Json.sizeOf_lt_of_mem hw
          exact valid_fragment_iff describes element w named
      | null | bool _ | num _ | str _ | arr _ => simp [TypeSystem.Conforms]
  | .named name, v, named =>
      valid_name_iff describes (named name List.mem_cons_self)
        fun type w _ named => valid_fragment_iff describes type w named
termination_by type v => (sizeOf v, sizeOf type)
decreasing_by
  · refine Prod.Lex.right _ ?_
    rw [TypeRef.union.sizeOf_spec]
    omega
  · refine Prod.Lex.left _ _ ?_
    rw [Json.arr.sizeOf_spec]
    omega
  · exact Prod.Lex.left _ _ smaller
  · exact Prod.Lex.left _ _ ‹_›

/-! ## Runs -/

/-- What the alternative of a compiler accepts, with its body from a registry and references looked
up among definitions. -/
def Offered (k : Compiler) (r : Registry) (definitions : Dict Json) (v : Json) : Prop :=
  ∃ key, k.alternative = some key ∧ ∃ body, r.body? key = some body ∧ Valid definitions body v

/-- The definitions that a run leaves behind are those that the schemas of types are about. -/
theorem describes_of_walk {r r' : Registry} {names added : List String}
    (holds : ∀ key, k.alternative = some key → r.contains key = true)
    (noTypes : r.NoTypes) (slots : r'.slots = r.slots ++ added.map (k.typeSlot r.taken))
    (fresh : ∀ key ∈ added, key ∉ r.slots.keys)
    (walk : DepthFirst (k.types.leads r.taken) [] names added)
    (finished : r'.definitions = .ok definitions) :
    k.Describes r.taken (k.Offered r definitions) added definitions where
  bodies key member := by
    rw [Registry.find?_definitions finished, Registry.body?, Registry.entry?,
      (type_entry_iff noTypes slots fresh).2 ⟨member, rfl⟩]
    rfl
  closed key member := walk.closed key member List.not_mem_nil
  alternative v := by
    refine exists_congr fun key => and_congr_right fun isAlternative => ?_
    -- the alternative was there before the run, so its body is the one that was offered
    have old : key ∉ added := fun h =>
      fresh key h (Dict.contains_iff.1 (holds key isAlternative))
    rw [valid_reference_iff, Registry.find?_definitions finished, Registry.body?, Registry.body?,
      Registry.entry?, Registry.entry?, find?_of_grown slots fresh, if_neg old]

theorem pending_of_grown {r r' : Registry} {added : List String} (finished : r.pending = [])
    (slots : r'.slots = r.slots ++ added.map (k.typeSlot taken)) : r'.pending = [] := by
  have same : r' = ⟨r.slots ++ added.map (k.typeSlot taken)⟩ := by rw [← slots]
  rw [same, Registry.pending_append, finished, List.nil_append]
  simp [Registry.pending, typeSlot]

/-- After a run on a registry without types, in which nothing is pending and the alternative is
there, all definitions are finished, and each answer accepts exactly the values of the type that was
asked for. -/
theorem Run.valid_iff_conforms {c c' : Compilation} {answers : List (TypeRef × Json)}
    (noTypes : c.registry.NoTypes) (finished : c.registry.pending = [])
    (holds : ∀ key, k.alternative = some key → c.registry.contains key = true)
    (run : k.Run c answers c') :
    ∃ definitions, c'.registry.definitions = .ok definitions ∧
      ∀ a ∈ answers, ∀ v, Valid definitions a.2 v ↔
        k.types.Conforms c.registry.taken (k.Offered c.registry definitions) a.1 v := by
  obtain ⟨added, slots, fresh, walk⟩ := (run.grows rfl).exists_walk noTypes
  obtain ⟨definitions, hd⟩ := Registry.exists_definitions (pending_of_grown finished slots)
  have describes := describes_of_walk holds noTypes slots fresh walk hd
  refine ⟨definitions, hd, fun a member v => ?_⟩
  rw [run.fragments rfl a member]
  refine valid_fragment_iff describes a.1 v fun name h opens => walk.todo_subset ?_
  exact List.mem_filter.2 ⟨List.mem_flatMap.2 ⟨a, member, h⟩, opens⟩

/-- In the example an order holds lines that may hold orders. -/
theorem Run.valid_iff_conforms_shop : Shop.start.registry.NoTypes ∧
    Shop.start.registry.pending = [] ∧
    (∀ key, Shop.compiler.alternative = some key → Shop.start.registry.contains key = true) ∧
    (∃ d, Shop.compiler.Run Shop.start Shop.answers ⟨Shop.finished, d⟩) ∧
    ∃ definitions, Shop.finished.definitions = .ok definitions ∧
      ∀ v, Valid definitions (reference "shop.Order") v ↔
        Shop.types.Conforms Shop.start.registry.taken
          (Shop.compiler.Offered Shop.start.registry definitions) (.named "shop.Order") v := by
  have holds : ∀ key, Shop.compiler.alternative = some key →
      Shop.start.registry.contains key = true := by
    rintro key ⟨rfl⟩
    decide
  obtain ⟨d, run⟩ := Shop.exists_run
  obtain ⟨definitions, finished, meaning⟩ :=
    Run.valid_iff_conforms Shop.noTypes (by decide) holds run
  refine ⟨Shop.noTypes, by decide, holds, ⟨d, run⟩, definitions, finished, fun v => ?_⟩
  exact meaning (.named "shop.Order", reference "shop.Order") List.mem_cons_self v

/-- A line of an order may hold an order or a reference by name, but no order without lines. -/
example : Shop.finished.definitions.toOption.map (fun definitions =>
    [[("lines", Json.arr [])], [("Ref", .str "a")], []].map fun inner => validWithin definitions 20
      (reference "shop.Order") (.obj [("lines", .arr [.obj [("order", .obj inner)]])])) =
    some [true, true, false] := by
  decide +kernel

end Compiler

end ManifestSchema
