import ManifestSchema.Proofs.Enumeration

/-!
# Entries and types side by side

The entry of a root and the schema of its class stand in one registry, under keys of two kinds, and
are compiled in between each other: a class may be met as a type before its own entry, inside it or
after it. Each entry and each schema is compiled with the keys that others hold at that time. In the
end more keys are held, those of the roots that came later, but none of these was met as a type
before, so every body is what the final registry would make of it.

Results:

1. `Compiler.role_of_staysIn`: what a name stands for does not change any more once it was met;
2. `Compiler.Completed.enters`: what the entry of one root adds to what is complete;
3. `Compiler.compileRoots_owner` and `Compiler.compileRoots_completed`: who holds which key after
   all roots, and what is there then.
-/

namespace ManifestSchema

namespace Registry

/-- Everything that a registry holds is in another one as it is. -/
def StaysIn (r r' : Registry) : Prop :=
  ∀ key slot, r.slots.find? key = some slot → r'.slots.find? key = some slot

variable {r r' r'' : Registry}

theorem StaysIn.trans (h : r.StaysIn r') (h' : r'.StaysIn r'') : r.StaysIn r'' :=
  fun key slot found => h' key slot (h key slot found)

theorem StaysIn.owner? (stays : r.StaysIn r') {key : String} {owner : Owner}
    (held : r.owner? key = some owner) : r'.owner? key = some owner := by
  obtain ⟨slot, found, rfl⟩ := Option.map_eq_some_iff.1 held
  exact congrArg (Option.map Slot.owner) (stays key slot found)

theorem StaysIn.subset (stays : r.StaysIn r') : r.slots.keys ⊆ r'.slots.keys := by
  intro key member
  obtain ⟨slot, found⟩ := Option.isSome_iff_exists.1 (Dict.contains_iff.2 member)
  exact Dict.mem_keys_of_find? (stays key slot found)

theorem StaysIn.taken_eq (stays : r.StaysIn r') {key : String} (member : key ∈ r.slots.keys) :
    r.taken key = r'.taken key := by
  obtain ⟨slot, found⟩ := Option.isSome_iff_exists.1 (Dict.contains_iff.2 member)
  have owner : r.owner? key = some slot.owner := congrArg (Option.map Slot.owner) found
  rw [taken, taken, owner, stays.owner? owner]

theorem taken_iff {key : String} :
    r.taken key = true ↔ r.owner? key = some .resource ∨ r.owner? key = some .extension := by
  unfold taken
  cases r.owner? key with
  | none => simp
  | some owner => cases owner <;> simp

end Registry

namespace Compiler

variable {k : Compiler} {c c' : Compilation} {root : Root} {roots : List Root}
  {added : List String} {r r' : Registry}

/-! ## What names stand for -/

/-- A name that is a key of the registry wherever it is that of a definition stands for the same
thing later on. -/
theorem role_of_staysIn (stays : r.StaysIn r') {name : String}
    (met : k.types.opens r.taken name = true → name ∈ r.slots.keys) :
    k.types.role r.taken name = k.types.role r'.taken name := by
  by_cases member : name ∈ r.slots.keys
  · rw [TypeSystem.role, TypeSystem.role, stays.taken_eq member]
  · -- nobody holds the key, so the name could only be closed by what is declared under it
    have free : r.taken name = false := by
      rw [Registry.taken, Registry.owner?, Dict.find?_eq_none_iff.2 member, Option.map_none]
    have closed : ¬k.types.opens r.taken name = true := fun opens => member (met opens)
    rw [TypeSystem.opens_iff] at closed
    unfold TypeSystem.role
    cases found : k.types.find? name with
    | none => rfl
    | some d =>
        cases d with
        | enumDef _ => rfl
        | classDef _ | interfaceDef _ => exact absurd ⟨_, found, rfl, free⟩ closed

theorem opens_congr {taken taken' : String → Bool} {name : String}
    (same : k.types.role taken name = k.types.role taken' name) :
    k.types.opens taken name = k.types.opens taken' name := by
  rw [Bool.eq_iff_iff, ← TypeSystem.role_object_iff, ← TypeSystem.role_object_iff, same]

/-! ## The entry of one root -/

theorem Enters.staysIn (h : k.Enters root c c' added) : c.registry.StaysIn c'.registry := by
  intro key slot found
  rw [h.slots, Dict.find?_append, found, Option.some_or]

/-- The types behind the entry of a root take no key from each other. -/
theorem Enters.taken_eq (h : k.Enters root c c' added) :
    c'.registry.taken = (reserved root c.registry).taken := by
  funext key
  refine Registry.taken_of_owner? ?_
  rw [h.owner?_eq, reserved, Registry.owner?_append]
  cases c.registry.owner? key with
  | some owner => simp
  | none =>
      by_cases same : root.key = key
      · simp [same, Registry.owner?, Dict.find?_cons]
      · by_cases member : key ∈ added <;> simp [same, member, Registry.owner?, Dict.find?_cons]

/-- The walk that the entry of a root starts, in terms of the keys that are held after it. -/
theorem Enters.visits (h : k.Enters root c c' added) :
    DepthFirst (k.types.leads c'.registry.taken) (c.registry.slots.keys ++ [root.key])
      (root.props.names.filter (k.types.opens c'.registry.taken)) c'.registry.slots.keys := by
  have keys : c'.registry.slots.keys = c.registry.slots.keys ++ [root.key] ++ added := by
    rw [h.keys, List.append_assoc, List.singleton_append]
  rw [keys, h.taken_eq]
  exact h.walk

/-- The types behind the entry of a root are new, each of them once. -/
theorem Enters.fresh (h : k.Enters root c c' added) :
    added.Nodup ∧ ∀ key ∈ added, key ∉ c.registry.slots.keys ++ [root.key] := by
  obtain ⟨others, same, nodup, fresh⟩ := h.walk.exists_added
  obtain rfl := List.append_cancel_left same
  exact ⟨nodup, fresh⟩

theorem Enters.mem_keys (h : k.Enters root c c' added) {key : String} (member : key ∈ added) :
    key ∈ c'.registry.slots.keys := by
  rw [h.keys]
  exact List.mem_append_right _ (List.mem_cons_of_mem _ member)

theorem Enters.find?_added (h : k.Enters root c c' added) {key : String} (member : key ∈ added) :
    c'.registry.slots.find? key = some (k.typeSlot c'.registry.taken key).2 := by
  have new := h.fresh.2 key member
  rw [List.mem_append, List.mem_singleton, not_or] at new
  rw [h.taken_eq, h.slots, Dict.find?_append, Dict.find?_eq_none_iff.2 new.1, Option.none_or,
    rootSlot, Dict.find?_cons, if_neg (Ne.symm new.2), find?_map_typeSlot, if_pos member]

/-- What a registry has after some roots: their entries, and every definition that a root or a type
in it leads to, all as the registry itself would make them. -/
structure Completed (k : Compiler) (roots : List Root) (r : Registry) : Prop where
  entries : ∀ root ∈ roots, r.slots.find? root.key = some (k.rootSlot r.taken root).2
  requests : ∀ root ∈ roots, ∀ name ∈ root.props.names,
    k.types.opens r.taken name = true → name ∈ r.slots.keys
  types : ∀ key, r.owner? key = some .type →
    r.slots.find? key = some (k.typeSlot r.taken key).2
  leads : ∀ key, r.owner? key = some .type → k.types.leads r.taken key ⊆ r.slots.keys
  reached : ∀ key, r.owner? key = some .type →
    ReachedFrom (k.types.leads r.taken) (k.rootedTypes r.taken roots) key

theorem Completed.perm {others : List Root} (h : k.Completed others r) (same : others.Perm roots) :
    k.Completed roots r where
  entries root member := h.entries root (same.mem_iff.2 member)
  requests root member := h.requests root (same.mem_iff.2 member)
  types := h.types
  leads := h.leads
  reached key held := (h.reached key held).trans fun _ start =>
    .start ((same.flatMap_right _).mem_iff.1 start)

/-- The names in the properties of a type stand for the same things later on. -/
theorem Completed.role_eq (h : k.Completed roots r) (stays : r.StaysIn r') {key : String}
    (held : r.owner? key = some .type) {d : Definition} (found : k.types.find? key = some d) :
    ∀ name ∈ k.types.propertyNames d,
      k.types.role r.taken name = k.types.role r'.taken name := by
  intro name member
  refine role_of_staysIn stays fun opens => h.leads key held ?_
  rw [TypeSystem.leads_of_find found]
  exact List.mem_filter.2 ⟨member, opens⟩

theorem Completed.leads_eq (h : k.Completed roots r) (stays : r.StaysIn r') {key : String}
    (held : r.owner? key = some .type) :
    k.types.leads r.taken key = k.types.leads r'.taken key := by
  cases found : k.types.find? key with
  | none => simp [TypeSystem.leads, found]
  | some d =>
      rw [TypeSystem.leads_of_find found, TypeSystem.leads_of_find found]
      exact List.filter_congr fun name occurs =>
        opens_congr (h.role_eq stays held found name occurs)

theorem Completed.rootSlot_eq (h : k.Completed roots r) (stays : r.StaysIn r')
    (member : root ∈ roots) : k.rootSlot r.taken root = k.rootSlot r'.taken root := by
  have schema : k.fragment r.taken root.props = k.fragment r'.taken root.props :=
    fragment_congr root.props fun name occurs =>
      role_of_staysIn stays (h.requests root member name occurs)
  rw [rootSlot, rootSlot, schema]

theorem Completed.typeSlot_eq (keyed : k.types.WellKeyed) (h : k.Completed roots r)
    (stays : r.StaysIn r') {key : String} (held : r.owner? key = some .type) :
    k.typeSlot r.taken key = k.typeSlot r'.taken key := by
  cases found : k.types.find? key with
  | none => simp only [typeSlot, definitionBody, found]
  | some d =>
      have uses : ∀ d', k.types.find? key = some d' → ∀ name ∈ k.types.propertyNames d',
          k.types.role r.taken name = k.types.role r'.taken name :=
        fun _ found' => h.role_eq stays held found'
      rw [typeSlot, typeSlot,
        definitionBody_congr keyed keyed rfl found ⟨fun _ _ => rfl, uses⟩]

/-- What roots and types lead to has a definition. -/
theorem Completed.owner_of_reached (h : k.Completed roots r) {key : String}
    (reached : ReachedFrom (k.types.leads r.taken) (k.rootedTypes r.taken roots) key) :
    r.owner? key = some .type := by
  -- a key that is there and that types open belongs to nobody else
  have own : ∀ {key}, k.types.opens r.taken key = true → key ∈ r.slots.keys →
      r.owner? key = some .type := by
    intro key opens member
    obtain ⟨_, _, _, free⟩ := TypeSystem.opens_iff.1 opens
    obtain ⟨slot, found⟩ := Option.isSome_iff_exists.1 (Dict.contains_iff.2 member)
    have owner : r.owner? key = some slot.owner := congrArg (Option.map Slot.owner) found
    cases held : slot.owner with
    | type => rw [owner, held]
    | resource | extension =>
        rw [held] at owner
        rw [Registry.taken_iff.2 (by simp [owner])] at free
        cases free
  induction reached with
  | start member =>
      obtain ⟨root, isRoot, member⟩ := List.mem_flatMap.1 member
      obtain ⟨occurs, opens⟩ := List.mem_filter.1 member
      exact own opens (h.requests root isRoot _ occurs opens)
  | step _ member ih =>
      exact own (TypeSystem.opens_of_mem_leads member) (h.leads _ ih member)

/-- What is reached stays reached. -/
theorem Completed.reached_staysIn (h : k.Completed roots r) (stays : r.StaysIn r') {key : String}
    (reached : ReachedFrom (k.types.leads r.taken) (k.rootedTypes r.taken roots) key) :
    ReachedFrom (k.types.leads r'.taken) (k.rootedTypes r'.taken roots) key := by
  induction reached with
  | start member =>
      obtain ⟨root, isRoot, member⟩ := List.mem_flatMap.1 member
      obtain ⟨occurs, opens⟩ := List.mem_filter.1 member
      have same := opens_congr (role_of_staysIn stays (h.requests root isRoot _ occurs))
      exact .start (List.mem_flatMap.2
        ⟨root, isRoot, List.mem_filter.2 ⟨occurs, same.symm.trans opens⟩⟩)
  | step before led ih =>
      rw [h.leads_eq stays (h.owner_of_reached before)] at led
      exact ih.step led

/-- The entry of a root is added to what is complete. -/
theorem Completed.enters (keyed : k.types.WellKeyed) (done : k.Completed roots c.registry)
    (free : c.registry.slots.find? root.key = none) (h : k.Enters root c c' added) :
    k.Completed (root :: roots) c'.registry := by
  have stays := h.staysIn
  constructor
  case entries =>
    intro other member
    rcases List.mem_cons.1 member with rfl | member
    · rw [h.slots, Dict.find?_append, free, Option.none_or, rootSlot, Dict.find?_cons, if_pos rfl,
        h.taken_eq]
      rfl
    · rw [← done.rootSlot_eq stays member]
      exact stays _ _ (done.entries other member)
  case requests =>
    intro other member name occurs opens
    rcases List.mem_cons.1 member with rfl | member
    · exact h.visits.todo_subset (List.mem_filter.2 ⟨occurs, opens⟩)
    · have met := done.requests other member name occurs
      rw [← opens_congr (role_of_staysIn stays met)] at opens
      exact stays.subset (met opens)
  case types =>
    intro key held
    rcases h.held held with before | ⟨_, other⟩ | ⟨member, _⟩
    · rw [← done.typeSlot_eq keyed stays before]
      exact stays _ _ (done.types key before)
    · cases other
    · exact h.find?_added member
  case leads =>
    intro key held name led
    rcases h.held held with before | ⟨_, other⟩ | ⟨member, _⟩
    · rw [← done.leads_eq stays before] at led
      exact stays.subset (done.leads key before led)
    · cases other
    · exact h.visits.closed key (h.mem_keys member) (h.fresh.2 key member) led
  case reached =>
    intro key held
    rcases h.held held with before | ⟨_, other⟩ | ⟨member, _⟩
    · refine (done.reached_staysIn stays (done.reached key before)).trans fun _ start => .start ?_
      exact List.mem_append_right _ start
    · cases other
    · have reached := h.visits.reached key (h.mem_keys member)
      refine (reached.resolve_left (h.fresh.2 key member)).trans fun _ start => .start ?_
      exact List.mem_append_left _ start

/-! ## All entries -/

/-- From `r` to `r'` the entries of some roots were added, and types behind them. -/
structure Serves (roots : List Root) (r r' : Registry) : Prop where
  stays : r.StaysIn r'
  extensions : ∀ key, r'.owner? key = some .extension ↔ r.owner? key = some .extension
  resources : ∀ key, r'.owner? key = some .resource ↔
    r.owner? key = some .resource ∨ key ∈ roots.map Root.key

theorem Serves.cons {r1 : Registry} (h : Serves [root] r r1) (h' : Serves roots r1 r') :
    Serves (root :: roots) r r' where
  stays := h.stays.trans h'.stays
  extensions key := (h'.extensions key).trans (h.extensions key)
  resources key := by
    rw [h'.resources, h.resources, or_assoc]
    simp

theorem Enters.serves (free : c.registry.slots.find? root.key = none)
    (h : k.Enters root c c' added) : Serves [root] c.registry c'.registry where
  stays := h.staysIn
  extensions key := by
    constructor
    · intro held
      rcases h.held held with before | ⟨_, other⟩ | ⟨_, other⟩
      · exact before
      · cases other
      · cases other
    · exact h.staysIn.owner?
  resources key := by
    rw [List.map_singleton, List.mem_singleton]
    constructor
    · intro held
      rcases h.held held with before | ⟨same, _⟩ | ⟨_, other⟩
      · exact .inl before
      · exact .inr same.symm
      · cases other
    · rintro (before | rfl)
      · exact h.staysIn.owner? before
      · rw [h.owner?_eq, Registry.owner?, free, Option.map_none, Option.none_or, if_pos rfl]

theorem serves_of_compileRoot {answer : Json} (h : k.compileRoot root c = .ok answer c') :
    Serves [root] c.registry c'.registry := by
  obtain ⟨_, ⟨held, rfl⟩ | ⟨free, added, enters⟩⟩ := compileRoot_cases h
  · refine ⟨fun _ _ found => found, fun _ => Iff.rfl, fun key => ?_⟩
    rw [List.map_singleton, List.mem_singleton]
    exact ⟨.inl, fun owned => owned.elim id (· ▸ held)⟩
  · exact enters.serves free

/-- After all roots, the keys are held as before, and those of roots by their entries. -/
theorem compileRoots_owner {answers : List Json} (h : k.compileRoots roots c = .ok answers c') :
    Serves roots c.registry c'.registry := by
  induction roots generalizing c answers with
  | nil =>
      obtain ⟨_, rfl⟩ := Work.pure_ok_iff.1 h
      exact ⟨fun _ _ found => found, fun _ => Iff.rfl, fun _ => by simp⟩
  | cons root rest ih =>
      obtain ⟨first, c1, h1, h⟩ := Work.bind_ok_iff.1 h
      obtain ⟨others, c2, h2, h⟩ := Work.bind_ok_iff.1 h
      obtain ⟨_, rfl⟩ := Work.pure_ok_iff.1 h
      exact (serves_of_compileRoot h1).cons (ih h2)

/-- Roots with keys of their own, none of which has an entry yet, all have one in the end. -/
theorem compileRoots_completed {before : List Root} {answers : List Json}
    (keyed : k.types.WellKeyed) (done : k.Completed before c.registry)
    (apart : (roots.map Root.key).Nodup)
    (unmet : ∀ root ∈ roots, c.registry.owner? root.key ≠ some .resource)
    (h : k.compileRoots roots c = .ok answers c') :
    answers = roots.map (fun root => reference root.key) ∧
      k.Completed (before ++ roots) c'.registry := by
  induction roots generalizing c before answers with
  | nil =>
      obtain ⟨rfl, rfl⟩ := Work.pure_ok_iff.1 h
      exact ⟨rfl, by rwa [List.append_nil]⟩
  | cons root rest ih =>
      obtain ⟨first, c1, h1, h⟩ := Work.bind_ok_iff.1 h
      obtain ⟨others, c2, h2, h⟩ := Work.bind_ok_iff.1 h
      obtain ⟨rfl, rfl⟩ := Work.pure_ok_iff.1 h
      obtain ⟨new, apart⟩ := List.nodup_cons.1 apart
      have owners := serves_of_compileRoot h1
      obtain ⟨rfl, ⟨held, _⟩ | ⟨free, added, enters⟩⟩ := compileRoot_cases h1
      · exact absurd held (unmet root List.mem_cons_self)
      · have unmet1 : ∀ other ∈ rest, c1.registry.owner? other.key ≠ some .resource := by
          intro other member held
          rcases (owners.resources _).1 held with old | same
          · exact unmet other (List.mem_cons_of_mem _ member) old
          · rw [List.map_singleton, List.mem_singleton] at same
            exact new (same ▸ List.mem_map_of_mem member)
        obtain ⟨rfl, completed⟩ := ih (done.enters keyed free enters) apart unmet1 h2
        exact ⟨rfl, completed.perm List.perm_middle.symm⟩

end Compiler

end ManifestSchema
