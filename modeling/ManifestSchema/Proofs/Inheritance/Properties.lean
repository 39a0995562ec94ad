import ManifestSchema.Proofs.Inheritance.Walk
import ManifestSchema.Proofs.Legality.Basic

/-!
# The properties of a type

A type has its own properties and those of its ancestors. An ancestor that is reached on several
paths passes its properties on along the first of them only, and one that closes a cycle passes
nothing on, but in the end no property is lost: the names are those that the type and its ancestors
declare, in the order in which a depth-first walk first comes to them. Among the types that declare
a name, the one that is left last is chosen.

Results:

1. `Forest.keys_gather` and `Forest.find?_gather`: names and values of what a forest passes on;
2. `TypeSystem.flatten_gathers_declared`: the properties of a type.
-/

namespace ManifestSchema

/-! ## What a forest passes on -/

namespace Forest

variable {α : Type} {own : String → Dict α}

/-- The keys that a forest passes on are those of its types in the order in which they are
entered. -/
theorem keys_gather {names : String → List String}
    (declares : ∀ name, (own name).keys = appendNew [] (names name)) :
    (f : Forest) → (inherited : Dict α) →
      (f.gather own inherited).keys = appendNew inherited.keys (f.entered.flatMap names)
  | empty, _ => rfl
  | tree name inside rest, inherited => by
      rw [gather, keys_gather declares rest, Dict.keys_insertAll_eq, Dict.keys_insertAllNew,
        keys_gather declares inside, declares, entered, List.flatMap_cons, List.flatMap_append]
      simp only [appendNew_append, appendNew_appendNew]
      rfl

/-- For each key, the type that is left last among those that have it passes on its value. -/
theorem find?_gather (distinct : ∀ name, (own name).Distinct) (key : String) :
    (f : Forest) → (inherited : Dict α) →
      (f.gather own inherited).find? key =
        (f.left.reverse.findSome? fun name => (own name).find? key).or (inherited.find? key)
  | empty, _ => rfl
  | tree name inside rest, inherited => by
      have passed := (distinct name).insertAllNew (inside.gather own [])
      rw [gather, find?_gather distinct key rest, Dict.find?_insertAll passed,
        Dict.find?_insertAllNew, find?_gather distinct key inside, left]
      simp only [List.reverse_append, List.reverse_cons, List.findSome?_append,
        List.findSome?_singleton, Option.or_assoc]
      rfl

/-- The type whose value is chosen for a key, and those that are left after it. -/
theorem exists_chosen (distinct : ∀ name, (own name).Distinct) {f : Forest} {key : String}
    {value : α} (found : (f.gather own []).find? key = some value) :
    ∃ before type after, f.left = before ++ type :: after ∧
      (own type).find? key = some value ∧ ∀ other ∈ after, (own other).find? key = none := by
  rw [find?_gather distinct, Dict.find?_nil, Option.or_none] at found
  obtain ⟨after, type, before, split, chosen, none⟩ := List.findSome?_eq_some_iff.1 found
  refine ⟨before.reverse, type, after.reverse, ?_, chosen, fun other h => ?_⟩
  · rw [List.reverse_eq_iff] at split
    simpa using split
  · exact none other (List.mem_reverse.1 h)

end Forest

/-! ## Declarations -/

/-- The properties of the instances themselves that a type declares, in order. -/
def Definition.instanceProperties (d : Definition) : List Property :=
  d.properties.filter fun p => !p.isStatic

namespace Definition

variable {d : Definition}

/-- Of declarations with one name the last one counts. -/
theorem find?_ownProperties (d : Definition) (name : String) :
    d.ownProperties.find? name = (d.instanceProperties.filter fun p => p.name = name).getLast? := by
  rw [ownProperties, Dict.find?_ofList, List.filter_map, List.getLast?_map, Option.map_map]
  simp [Function.comp_def, instanceProperties]

theorem distinct_ownProperties (d : Definition) : d.ownProperties.Distinct :=
  Dict.distinct_ofList _

theorem keys_ownProperties (d : Definition) :
    d.ownProperties.keys = appendNew [] (d.instanceProperties.map Property.name) := by
  rw [ownProperties, Dict.ofList, Dict.keys_insertAll_eq]
  simp [Dict.keys, Function.comp_def, instanceProperties]

theorem declared_of_find? {name : String} {p : Property}
    (found : d.ownProperties.find? name = some p) : p ∈ d.instanceProperties ∧ p.name = name := by
  rw [find?_ownProperties] at found
  simpa using List.mem_filter.1 (List.mem_of_getLast? found)

end Definition

namespace TypeSystem

variable {ts : TypeSystem}

/-- The properties of instances that the type of a name declares, in order. -/
def declaredBy (ts : TypeSystem) (name : String) : List Property :=
  ((ts.find? name).map Definition.instanceProperties).getD []

/-- The names of the properties of instances that the type of a name declares, in order. -/
def declaredNames (ts : TypeSystem) (name : String) : List String :=
  (ts.declaredBy name).map Property.name

theorem distinct_ownBy {α : Type} (ts : TypeSystem) {own : Definition → Dict α}
    (distinct : ∀ d, (own d).Distinct) (name : String) : (ts.ownBy own name).Distinct := by
  unfold ownBy
  cases ts.find? name with
  | none => exact List.nodup_nil
  | some d => exact distinct d

theorem keys_ownBy_ownProperties (ts : TypeSystem) (name : String) :
    (ts.ownBy Definition.ownProperties name).keys = appendNew [] (ts.declaredNames name) := by
  unfold ownBy declaredNames declaredBy
  cases ts.find? name with
  | none => rfl
  | some d => exact d.keys_ownProperties

theorem declared_of_ownBy {type name : String} {p : Property}
    (found : (ts.ownBy Definition.ownProperties type).find? name = some p) :
    p ∈ ts.declaredBy type ∧ p.name = name := by
  unfold ownBy at found
  unfold declaredBy
  cases declared : ts.find? type with
  | none => simp [declared] at found
  | some d => exact Definition.declared_of_find? (by simpa [declared] using found)

/-- The properties of a type. Their names are those that the type and its ancestors declare for
instances, each once, in the order in which they first come up when the declarations are listed
along a depth-first walk. The property of a name is one that is declared under it by the type or an
ancestor, and the last one that the type declares itself, if there is one. -/
theorem flatten_gathers_declared (keyed : ts.WellKeyed) {key : String} {d : Definition}
    (found : ts.find? key = some d) (isObject : d.isObject = true) :
    (∃ order, DepthFirst ts.supertypes [] [key] order ∧
      (ts.flatten d).properties.keys = (order.flatMap ts.declaredNames).eraseDups) ∧
    (ts.flatten d).properties.Distinct ∧
    (∀ name, name ∈ (ts.flatten d).properties.keys ↔
      ∃ type, ReachedFrom ts.supertypes [key] type ∧ name ∈ ts.declaredNames type) ∧
    (∀ name p, (ts.flatten d).properties.find? name = some p →
      p.name = name ∧ ∃ type, ReachedFrom ts.supertypes [key] type ∧ p ∈ ts.declaredBy type) ∧
    ∀ name p, (d.instanceProperties.filter fun p => p.name = name).getLast? = some p →
      (ts.flatten d).properties.find? name = some p := by
  obtain ⟨f, tour, gathered⟩ := exists_tour_flatten keyed found isObject
  have order := tour.order (namesObject_iff.2 ⟨d, found, isObject⟩)
  have apart := ts.distinct_ownBy Definition.distinct_ownProperties
  have passed := gathered Property Definition.ownProperties d.distinct_ownProperties
  rw [gather_ownProperties] at passed
  have names : (ts.flatten d).properties.keys =
      ((Forest.tree key f .empty).entered.flatMap ts.declaredNames).eraseDups := by
    rw [passed, Forest.keys_gather ts.keys_ownBy_ownProperties, ← appendNew_nil]
    rfl
  refine ⟨⟨_, order, names⟩, ts.distinct_flatten d, fun name => ?_, fun name p chosen => ?_,
    fun name p last => ?_⟩
  · rw [names, List.mem_eraseDups, List.mem_flatMap]
    exact exists_congr fun type => and_congr_left fun _ => order.mem_iff
  · rw [passed] at chosen
    obtain ⟨before, type, after, split, declared, _⟩ :=
      Forest.exists_chosen apart chosen
    obtain ⟨member, named⟩ := declared_of_ownBy declared
    have entered := Forest.mem_left_iff.1 (split ▸ List.mem_append_right _ List.mem_cons_self)
    exact ⟨named, type, order.mem_iff.1 entered, member⟩
  · -- the type itself is the last one to be left
    rw [passed, Forest.find?_gather apart, Forest.left, Forest.left,
      List.reverse_append, List.reverse_singleton, List.singleton_append, List.findSome?_cons,
      ownBy_of_find _ found, d.find?_ownProperties, last]
    rfl

/-- The trailer has its own axles, the properties of the vehicle, which both it and its coupling
extend, and the pin of its coupling, which extends it in turn. -/
theorem flatten_gathers_depot : Depot.types.WellKeyed ∧
    Depot.types.find? "depot.Trailer" = some Depot.trailer ∧ Depot.trailer.isObject = true ∧
    (Depot.types.flatten Depot.trailer).properties.keys = ["axles", "name", "wheels", "pin"] ∧
    ∃ order, DepthFirst Depot.types.supertypes [] ["depot.Trailer"] order ∧
      (order.flatMap Depot.types.declaredNames).eraseDups = ["axles", "name", "wheels", "pin"] ∧
      ∃ type, ReachedFrom Depot.types.supertypes ["depot.Trailer"] type ∧
        "pin" ∈ Depot.types.declaredNames type := by
  have found : Depot.types.find? "depot.Trailer" = some Depot.trailer := rfl
  have names : (Depot.types.flatten Depot.trailer).properties.keys =
      ["axles", "name", "wheels", "pin"] := by decide +kernel
  obtain ⟨⟨order, walk, listed⟩, _, declares, _⟩ := flatten_gathers_declared Depot.keyed found rfl
  rw [names] at listed declares
  exact ⟨Depot.keyed, found, rfl, names, order, walk, listed.symm, (declares "pin").1 (by simp)⟩

end TypeSystem

end ManifestSchema
