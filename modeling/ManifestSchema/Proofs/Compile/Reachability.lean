import ManifestSchema.Proofs.Compile.Run

/-!
# Which types are defined, and in which order

The compiler searches the types while it fills the registry: a key that is there already cuts the
search off. On a registry without types it nevertheless defines exactly the classes and interfaces
that can be reached, in the order in which a depth-first walk first meets them.

Results:

1. `Compiler.Run.defines_reachable_in_order`.
-/

namespace ManifestSchema

namespace Compiler

variable {k : Compiler} {c c' : Compilation} {answers : List (TypeRef × Json)}

/-- The classes and interfaces that requests name and that get a definition, in order. -/
def requestedTypes (k : Compiler) (taken : String → Bool) (answers : List (TypeRef × Json)) :
    List String :=
  (requestedNames answers).filter (k.types.opens taken)

/-- After a run on a registry without types, new keys stand behind those that were there, in
depth-first order of their first encounter. They are the keys that belong to types; each is there
once, has its body, is the name of a class or interface, and can be reached from the requests
through the types of properties; and every class or interface that can be so reached is there. -/
theorem Run.defines_reachable_in_order (noTypes : c.registry.NoTypes)
    (run : k.Run c answers c') :
    ∃ added, c'.registry.slots.keys = c.registry.slots.keys ++ added ∧
      (∀ order, DepthFirst (k.types.leads c.registry.taken) []
        (k.requestedTypes c.registry.taken answers) order ↔ order = added) ∧
      (added.Nodup ∧ ∀ key ∈ added, key ∉ c.registry.slots.keys) ∧
      (∀ key, c'.registry.owner? key = some .type ↔ key ∈ added) ∧
      (∀ key, key ∈ added ↔ ReachedFrom (k.types.leads c.registry.taken)
        (k.requestedTypes c.registry.taken answers) key) ∧
      ∀ key ∈ added, (∃ d, k.types.find? key = some d ∧ d.isObject = true) ∧
        ∃ body, c'.registry.body? key = some body := by
  obtain ⟨added, slots, fresh, walk⟩ := (run.grows rfl).exists_walk noTypes
  obtain ⟨_, rfl, nodup, _⟩ := walk.exists_added
  have owner : ∀ key, c'.registry.owner? key = some .type ↔ key ∈ added := by
    intro key
    have iff : ∀ entry, c'.registry.slots.find? key = some ⟨.type, entry⟩ ↔ _ :=
      fun entry => type_entry_iff noTypes slots fresh
    constructor
    · intro h
      obtain ⟨⟨_, entry⟩, found, rfl⟩ := Option.map_eq_some_iff.1 h
      exact ((iff entry).1 found).1
    · intro h
      rw [Registry.owner?, (iff _).2 ⟨h, rfl⟩, Option.map_some]
  refine ⟨added, keys_of_slots slots, fun order => ⟨fun h => h.unique walk, ?_⟩,
    ⟨nodup, fresh⟩, owner, fun key => walk.mem_iff, fun key member => ?_⟩
  · rintro rfl
    exact walk
  · obtain ⟨⟨_, entry⟩, found, rfl⟩ := Option.map_eq_some_iff.1 ((owner key).2 member)
    obtain ⟨opens, rfl⟩ := run.body_eq noTypes found
    obtain ⟨d, declared, isObject, _⟩ := TypeSystem.opens_iff.1 opens
    exact ⟨⟨d, declared, isObject⟩, _, by rw [Registry.body?, Registry.entry?, found]; rfl⟩

/-- In the example the line stands before the record, as it is met inside the order, and the class
whose key is held by someone else is left out. -/
theorem Run.defines_shop_in_order : Shop.start.registry.NoTypes ∧
    (∃ d, Shop.compiler.Run Shop.start Shop.answers ⟨Shop.finished, d⟩) ∧
    DepthFirst (Shop.types.leads Shop.start.registry.taken) []
      (Shop.compiler.requestedTypes Shop.start.registry.taken Shop.answers)
      ["shop.Order", "shop.Line", "shop.Record", "shop.Mark"] := by
  obtain ⟨d, run⟩ := Shop.exists_run
  obtain ⟨added, keys, order, _⟩ := Run.defines_reachable_in_order Shop.noTypes run
  refine ⟨Shop.noTypes, ⟨d, run⟩, (order _).2 ?_⟩
  exact List.append_cancel_left (Shop.keys_finished.symm.trans keys)

end Compiler

end ManifestSchema
