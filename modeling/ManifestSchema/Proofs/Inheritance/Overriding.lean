import ManifestSchema.Proofs.Inheritance.Cycles
import ManifestSchema.Proofs.Inheritance.Properties

/-!
# Overriding

Of two types side by side the later one wins, and a shared ancestor is visited on the first path
that leads to it, so an inherited declaration is gathered before or after the one that overrides it,
depending on the order of parents. The overriding declaration is chosen all the same: where nothing
is inherited in a circle, a type is left behind all its ancestors, and the type that is left last is
the one that is chosen.

To say which type a property comes from, declarations carry the name of the type that they stand in
through the same walk (`TypeSystem.chosen`).

Results:

1. `Forest.gather_map`: what a forest passes on may be changed value by value, so that without the
   names the chosen declarations are the properties;
2. `TypeSystem.Tour.after_of_descendant`: a type is left after all its ancestors;
3. `TypeSystem.flatten_prefers_derived`: no declaration is chosen that another one overrides.
-/

namespace ManifestSchema

/-! ## Where declarations stand -/

/-- A property, and the type that declares it. -/
structure Declaration where
  declarer : String
  property : Property

/-- The properties of the instances themselves under their names, each with the name of the type. -/
def Definition.declarations (d : Definition) : Dict Declaration :=
  d.ownProperties.map fun p => (p.1, ⟨d.fqn, p.2⟩)

/-- What a forest passes on is changed value by value. -/
theorem Forest.gather_map {α β : Type} (g : α → β) (own : String → Dict α) :
    (f : Forest) → (inherited : Dict α) →
      f.gather (fun name => (own name).map fun p => (p.1, g p.2))
          (inherited.map fun p => (p.1, g p.2)) =
        (f.gather own inherited).map fun p => (p.1, g p.2)
  | empty, _ => rfl
  | tree name inside rest, inherited => by
      have within := gather_map g own inside []
      rw [List.map_nil] at within
      rw [gather, within, ← Dict.map_insertAllNew, ← Dict.map_insertAll, gather_map g own rest,
        gather]

namespace TypeSystem

variable {ts : TypeSystem} {us cs : List String} {f : Forest} {key : String}

/-- The declarations that are chosen for the properties of a type. -/
def chosen (ts : TypeSystem) (d : Definition) : Dict Declaration :=
  ts.gather Definition.declarations d

theorem ownBy_declarations (ts : TypeSystem) :
    (fun name => (ts.ownBy Definition.declarations name).map fun p => (p.1, p.2.property)) =
      ts.ownBy Definition.ownProperties := by
  funext name
  unfold ownBy
  cases ts.find? name with
  | none => rfl
  | some d => simp [Definition.declarations, Function.comp_def]

/-- A declaration that is listed under a name by a type is a property of it and names the type. -/
theorem find?_ownBy_declarations (keyed : ts.WellKeyed) (type name : String) :
    (ts.ownBy Definition.declarations type).find? name =
      ((ts.ownBy Definition.ownProperties type).find? name).map (Declaration.mk type) := by
  unfold ownBy
  cases found : ts.find? type with
  | none => rfl
  | some d =>
      have named : d.fqn = type := keyed _ (Dict.mem_of_find? found)
      rw [← named]
      exact Dict.find?_map (Declaration.mk d.fqn) d.ownProperties name

theorem not_mem_declaredNames (keyed : ts.WellKeyed) {type name : String}
    (none : (ts.ownBy Definition.declarations type).find? name = none) :
    name ∉ ts.declaredNames type := by
  rw [find?_ownBy_declarations keyed, Option.map_eq_none_iff, Dict.find?_eq_none_iff,
    keys_ownBy_ownProperties] at none
  exact fun declared => none (mem_appendNew_iff.2 (.inr declared))

theorem distinct_declarations (d : Definition) : d.declarations.Distinct := by
  unfold Dict.Distinct
  rw [Definition.declarations, Dict.keys_map (Declaration.mk d.fqn)]
  exact d.distinct_ownProperties

/-! ## The order of types -/

/-- Where no parent closes a cycle, what is left before a type is left has all its ancestors. -/
theorem Tour.before_of_ancestor (tour : ts.Tour [] [] [key] f us [])
    (object : ts.namesObject key = true) {before after : List String}
    (split : f.left = before ++ after) {type ancestor : String} (member : type ∈ before)
    (h : Relation.TransGen ts.Extends type ancestor) : ancestor ∈ before := by
  have order := tour.left_pairwise (List.nil_subset _)
  rw [split] at order
  have closed : ∀ a ∈ before, ∀ b, ts.Extends a b → b ∈ before := by
    intro a ha b e
    have entered : a ∈ f.entered := Forest.mem_left_iff.1 (split ▸ List.mem_append_left _ ha)
    have met : b ∈ before ++ after := split ▸ Forest.mem_left_iff.2
      ((tour.order object).closed a entered List.not_mem_nil e)
    refine (List.mem_append.1 met).resolve_right fun behind => ?_
    exact List.not_mem_nil ((List.pairwise_append.1 order).2.2 a ha b behind e)
  induction h with
  | single e => exact closed _ member _ e
  | tail _ e ih => exact closed _ ih _ e

/-- Where no parent closes a cycle, a type that descends from another one is left after it. -/
theorem Tour.after_of_descendant (tour : ts.Tour [] [] [key] f us [])
    (object : ts.namesObject key = true) {before after : List String} {type other : String}
    (split : f.left = before ++ type :: after) (entered : other ∈ f.entered)
    (apart : other ≠ type) (h : Relation.TransGen ts.Extends other type) : other ∈ after := by
  have once : f.left.Nodup :=
    f.left_perm_entered.nodup_iff.2 (tour.entered_new (List.nil_subset _)).1
  rw [split] at once
  rcases List.mem_append.1 (split ▸ Forest.mem_left_iff.2 entered) with earlier | behind
  · have again := tour.before_of_ancestor object split earlier h
    exact absurd rfl ((List.nodup_append.1 once).2.2 type again type List.mem_cons_self)
  · exact (List.mem_cons.1 behind).resolve_left apart

/-- An inherited declaration is never chosen over one that overrides it. Where the ancestors of a
type do not inherit from each other in a circle, each of its properties is a declaration of the type
or of an ancestor, and no other type among these that descends from the declarer declares a property
of the name. -/
theorem flatten_prefers_derived (keyed : ts.WellKeyed) {d : Definition}
    (found : ts.find? key = some d) (isObject : d.isObject = true)
    (acyclic : ∀ cycle, ¬ts.IsCycle key cycle) :
    (ts.flatten d).properties = (ts.chosen d).map (fun p => (p.1, p.2.property)) ∧
    ∀ name declaration, (ts.chosen d).find? name = some declaration →
      ReachedFrom ts.supertypes [key] declaration.declarer ∧
      declaration.property ∈ ts.declaredBy declaration.declarer ∧
      declaration.property.name = name ∧
      ∀ other, ReachedFrom ts.supertypes [key] other → other ≠ declaration.declarer →
        Relation.TransGen ts.Extends other declaration.declarer →
        name ∉ ts.declaredNames other := by
  have object := namesObject_iff.2 ⟨d, found, isObject⟩
  obtain ⟨f, tour, gathered⟩ := exists_tour_flatten keyed found isObject
  rw [cycles_nil_of_not_isCycle keyed found isObject acyclic] at tour
  have passed : ts.chosen d = (Forest.tree key f .empty).gather (ts.ownBy Definition.declarations)
      [] := gathered Declaration Definition.declarations (distinct_declarations d)
  refine ⟨?_, fun name declaration chosen => ?_⟩
  · rw [← gather_ownProperties, gathered Property _ d.distinct_ownProperties, passed,
      ← ownBy_declarations, ← Forest.gather_map]
    rfl
  rw [passed] at chosen
  obtain ⟨before, type, after, split, declared, later⟩ :=
    Forest.exists_chosen (ts.distinct_ownBy distinct_declarations) chosen
  rw [find?_ownBy_declarations keyed] at declared
  obtain ⟨p, own, rfl⟩ := Option.map_eq_some_iff.1 declared
  obtain ⟨member, named⟩ := declared_of_ownBy own
  have entered := Forest.mem_left_iff.1 (split ▸ List.mem_append_right _ List.mem_cons_self)
  refine ⟨(tour.order object).mem_iff.1 entered, member, named, fun other reached apart h => ?_⟩
  have behind := tour.after_of_descendant object split
    ((tour.order object).mem_iff.2 reached) apart h
  exact not_mem_declaredNames keyed (later other behind)

/-- The truck reaches the vehicle first, but it takes its name from the motor, which declares it once
more than the vehicle. -/
theorem flatten_prefers_motor : Depot.types.WellKeyed ∧
    Depot.types.find? "depot.Truck" = some Depot.truck ∧ Depot.truck.isObject = true ∧
    (∀ cycle, ¬Depot.types.IsCycle "depot.Truck" cycle) ∧
    ∃ declaration, (Depot.types.chosen Depot.truck).find? "name" = some declaration ∧
      declaration.declarer = "depot.Motor" ∧
      declaration.property ∈ Depot.types.declaredBy "depot.Motor" ∧
      "name" ∈ Depot.types.declaredNames "depot.Vehicle" ∧
      ∀ other, ReachedFrom Depot.types.supertypes ["depot.Truck"] other →
        other ≠ declaration.declarer →
        Relation.TransGen Depot.types.Extends other declaration.declarer →
        "name" ∉ Depot.types.declaredNames other := by
  have found : Depot.types.find? "depot.Truck" = some Depot.truck := rfl
  have acyclic := not_isCycle_of_cycles_nil Depot.keyed found rfl (by decide +kernel)
  have fromMotor : ((Depot.types.chosen Depot.truck).find? "name").map Declaration.declarer =
      some "depot.Motor" := by decide +kernel
  obtain ⟨declaration, chosen, declarer⟩ := Option.map_eq_some_iff.1 fromMotor
  obtain ⟨_, prefers⟩ := flatten_prefers_derived Depot.keyed found rfl acyclic
  obtain ⟨_, declared, _, overriding⟩ := prefers _ _ chosen
  exact ⟨Depot.keyed, found, rfl, acyclic, declaration, chosen, declarer, declarer ▸ declared,
    by decide +kernel, overriding⟩

end TypeSystem

end ManifestSchema
