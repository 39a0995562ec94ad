import ManifestSchema.Proofs.Compile.Progress
import ManifestSchema.Proofs.Compile.Reports
import ManifestSchema.Proofs.Document

/-!
# Entries of roots

The entry of a root is registered under a key of its own kind, so that a class that is a root can
also be referred to as a type. A declared type whose name looks like such a key can take it first.
This is the only thing that can be wrong with a root: whatever else is wrong with the types, the
entry is compiled, and nothing is left without a body.

Results:

1. `Compiler.compileRoot_cases`, `Compiler.compileRoot_of_held` and `Compiler.compileRoot_enters`:
   what happens to a key that is held, and what the entry of a root adds when its key is free;
2. `Compiler.Steady.compileRoots`: the entries of all roots are registered, unless a type holds the
   key of one of them when it is reached;
3. `Compiler.Clashes.error`: then this root ends the run.
-/

namespace ManifestSchema

/-- The key of the entry of a root. -/
def Root.key (root : Root) : String := resourceKey root.definition.fqn

namespace Compiler

variable {k : Compiler} {c c' : Compilation} {root : Root}

/-! ## One root -/

/-- The finished entry of a root in the registry. -/
def rootSlot (k : Compiler) (taken : String → Bool) (root : Root) : String × Slot :=
  (root.key, ⟨.resource, .resolved (describedBy root.key
    (resourceEntry root.definition.fqn (k.fragment taken root.props)))⟩)

/-- The state in which the key of a root is requested: a scope has been opened for it. -/
def announced (root : Root) (c : Compilation) : Compilation :=
  ⟨c.registry, (c.diagnostics.child 0 "resource" root.definition.fqn).2⟩

/-- The registry while a root is compiled. -/
def reserved (root : Root) (r : Registry) : Registry :=
  ⟨r.slots ++ [(root.key, ⟨.resource, .pending⟩)]⟩

/-- A root whose key is held gets no entry: it shares the one of a root, and clashes with any other
owner. -/
theorem compileRoot_of_held {slot : Slot} (held : c.registry.slots.find? root.key = some slot) :
    k.compileRoot root c =
      if slot.owner = .resource then .ok (reference root.key) (announced root c)
      else .error (.keyClash root.key slot.owner .resource) (announced root c) :=
  Registry.define_of_found (s := announced root c) held

/-- From `c` to `c'` the entry of a root was added, and behind it the types `added`, which it leads
to. -/
structure Enters (k : Compiler) (root : Root) (c c' : Compilation) (added : List String) : Prop where
  slots : c'.registry.slots = c.registry.slots ++
    k.rootSlot (reserved root c.registry).taken root ::
      added.map (k.typeSlot (reserved root c.registry).taken)
  walk : DepthFirst (k.types.leads (reserved root c.registry).taken)
    (c.registry.slots.keys ++ [root.key])
    (root.props.names.filter (k.types.opens (reserved root c.registry).taken))
    (c.registry.slots.keys ++ [root.key] ++ added)
  errors : c'.diagnostics.errorCount = c.diagnostics.errorCount +
    k.badLeaves (reserved root c.registry).taken root.props +
      (added.map (k.errorsOf (reserved root c.registry).taken)).sum
  warnings : c'.diagnostics.warningCount = c.diagnostics.warningCount + added.countP k.namesMarker

/-- What a root that is referred to has done: its key was held by the entry of a root, or its own
entry was added. -/
theorem compileRoot_cases {answer : Json} (h : k.compileRoot root c = .ok answer c') :
    answer = reference root.key ∧
      ((c.registry.owner? root.key = some .resource ∧ c' = announced root c) ∨
        (c.registry.slots.find? root.key = none ∧ ∃ added, k.Enters root c c' added)) := by
  obtain ⟨rfl, ⟨slot, found, owner, rfl⟩ | ⟨free, body, c1, produced, resolved⟩⟩ :=
    Registry.define_ok_iff (s := announced root c).1 h
  · have held : c.registry.owner? root.key = some .resource := by
      rw [← owner]
      exact congrArg (Option.map Slot.owner) found
    exact ⟨rfl, .inl ⟨held, rfl⟩⟩
  · have new := Dict.find?_eq_none_iff.1 free
    have here : c.diagnostics.scopes.length < (Compilation.mk (reserved root c.registry)
        (announced root c).diagnostics).diagnostics.scopes.length := by
      simp [announced, Diagnostics.child]
    obtain ⟨schema, c2, compiled, produced⟩ := Work.bind_ok_iff.1 produced
    obtain ⟨rfl, rfl⟩ := Work.pure_ok_iff.1 produced
    obtain ⟨added, visits, slots, walk, noted⟩ := compile_noted here compiled
    obtain ⟨rfl, _⟩ := compile_gives _ _ _ _ _ rfl compiled
    obtain ⟨_, _, _, rfl⟩ := Registry.resolve_ok_iff.1 resolved
    have errors := noted.errorCount here
    have warnings := noted.warningCount here
    rw [length_complaints, Registry.isHeld_holder?] at errors
    simp only [announced, Diagnostics.errorCount_child, Diagnostics.warningCount_child]
      at errors warnings
    refine ⟨rfl, .inr ⟨free, added, ?_, ?_, errors, warnings⟩⟩
    · have behind : c2.registry.slots = c.registry.slots ++
          (root.key, Slot.mk .resource .pending) ::
            added.map (k.typeSlot (reserved root c.registry).taken) :=
        slots.trans (List.append_assoc _ _ _)
      exact (congrArg (Dict.adjust · root.key _) behind).trans (Dict.adjust_middle new _ _ _)
    · have keys : (reserved root c.registry).slots.keys = c.registry.slots.keys ++ [root.key] :=
        Dict.keys_append _ _
      rwa [← keys]

/-- The entry of a root whose key is free is compiled and resolved. -/
theorem compileRoot_enters (offers : k.Offers c.registry)
    (free : c.registry.slots.find? root.key = none) :
    ∃ c' added, k.compileRoot root c = .ok (reference root.key) c' ∧ k.Enters root c c' added := by
  have offers' : k.Offers (reserved root c.registry) := by
    intro key isAlternative
    rw [reserved, Dict.keys_append]
    exact List.mem_append_left _ (offers key isAlternative)
  obtain ⟨schema, c1, compiled⟩ : ∃ schema c1, k.compile root.props c.diagnostics.scopes.length
      ⟨reserved root c.registry, (announced root c).diagnostics⟩ = .ok schema c1 :=
    compile_succeeds _ _ offers'
  obtain ⟨_, added, slots, _⟩ := compile_gives _ _ _ _ _ rfl compiled
  -- the key is still pending after the types were added behind it
  have pending : c1.registry.slots.find? root.key = some ⟨.resource, .pending⟩ := by
    rw [slots, Dict.find?_append]
    simp [reserved, Dict.find?_append, free, Dict.find?_cons]
  have produced : (k.compile root.props c.diagnostics.scopes.length >>= fun schema =>
      pure (resourceEntry root.definition.fqn schema))
        ⟨reserved root c.registry, (announced root c).diagnostics⟩ = .ok _ c1 :=
    Work.bind_ok_iff.2 ⟨_, c1, compiled, rfl⟩
  have done : k.compileRoot root c = .ok (reference root.key) _ :=
    Registry.define_ok_iff (s := announced root c).2 ⟨rfl, .inr ⟨free, _, c1,
      produced, Registry.resolve_ok_iff.2 ⟨_, pending, rfl, rfl⟩⟩⟩
  obtain ⟨_, ⟨held, _⟩ | ⟨_, added, enters⟩⟩ := compileRoot_cases done
  · rw [Registry.owner?, free] at held
    cases held
  · exact ⟨_, added, done, enters⟩

/-! ## Registries between roots -/

/-- What holds of the registry whenever a root is reached. -/
structure Steady (k : Compiler) (r : Registry) : Prop where
  offers : k.Offers r
  finished : r.pending = []
  extensions : ∀ fqn, r.owner? (resourceKey fqn) ≠ some .extension
  declared : ∀ key, r.owner? key = some .type → key ∈ k.types.types.keys

theorem Enters.keys {added : List String} (h : k.Enters root c c' added) :
    c'.registry.slots.keys = c.registry.slots.keys ++ root.key :: added := by
  rw [h.slots, Dict.keys_append]
  congr 1
  exact congrArg (root.key :: ·) (keys_map_typeSlot k _ added)

theorem Enters.owner?_eq {added : List String} (h : k.Enters root c c' added) (key : String) :
    c'.registry.owner? key = (c.registry.owner? key).or
      (if root.key = key then some .resource else if key ∈ added then some .type else none) := by
  obtain ⟨⟨slots⟩, _⟩ := c'
  obtain rfl := h.slots
  rw [Registry.owner?_append]
  congr 1
  rw [Registry.owner?, rootSlot, Dict.find?_cons, find?_map_typeSlot]
  by_cases same : root.key = key
  · simp [same]
  · by_cases member : key ∈ added <;> simp [same, member, typeSlot]

/-- A key has the owner that it had, or it is new and belongs to the root or to a type behind it. -/
theorem Enters.held {added : List String} (h : k.Enters root c c' added) {key : String}
    {owner : Owner} (held : c'.registry.owner? key = some owner) :
    c.registry.owner? key = some owner ∨ (root.key = key ∧ owner = .resource) ∨
      (key ∈ added ∧ owner = .type) := by
  rw [h.owner?_eq] at held
  cases before : c.registry.owner? key with
  | some o =>
      rw [before, Option.some_or] at held
      exact .inl held
  | none =>
      rw [before, Option.none_or] at held
      split at held
      · next same => exact .inr (.inl ⟨same, (Option.some.inj held).symm⟩)
      · split at held
        · next member => exact .inr (.inr ⟨member, (Option.some.inj held).symm⟩)
        · cases held

theorem Enters.opens {added : List String} (h : k.Enters root c c' added) {key : String}
    (member : key ∈ added) :
    k.types.opens (reserved root c.registry).taken key = true := by
  obtain ⟨_, same, _, fresh⟩ := h.walk.exists_added
  obtain rfl := List.append_cancel_left same
  exact TypeSystem.opens_of_reached
    ((h.walk.reached key (List.mem_append_right _ member)).resolve_left (fresh key member))

theorem Steady.enters {added : List String} (steady : k.Steady c.registry)
    (h : k.Enters root c c' added) : k.Steady c'.registry where
  offers key isAlternative := by
    rw [h.keys]
    exact List.mem_append_left _ (steady.offers key isAlternative)
  finished := by
    have behind : ∀ (taken : String → Bool),
        Registry.pending ⟨k.rootSlot taken root :: added.map (k.typeSlot taken)⟩ = [] := by
      intro taken
      simp [Registry.pending, rootSlot, typeSlot]
    obtain ⟨⟨slots⟩, _⟩ := c'
    obtain rfl := h.slots
    rw [Registry.pending_append, steady.finished, behind, List.append_nil]
  extensions fqn held := by
    rcases h.held held with before | ⟨_, other⟩ | ⟨_, other⟩
    · exact steady.extensions fqn before
    · cases other
    · cases other
  declared key held := by
    rcases h.held held with before | ⟨_, other⟩ | ⟨member, _⟩
    · exact steady.declared key before
    · cases other
    · obtain ⟨d, found, _⟩ := TypeSystem.opens_iff.1 (h.opens member)
      exact Dict.mem_keys_of_find? found

/-- A root whose key no type holds gets its entry. -/
theorem Steady.compileRoot (steady : k.Steady c.registry)
    (free : c.registry.owner? root.key ≠ some .type) :
    ∃ c', k.compileRoot root c = .ok (reference root.key) c' ∧ k.Steady c'.registry := by
  cases found : c.registry.slots.find? root.key with
  | none =>
      obtain ⟨c', added, compiled, enters⟩ := compileRoot_enters steady.offers found
      exact ⟨c', compiled, steady.enters enters⟩
  | some slot =>
      have owner : c.registry.owner? root.key = some slot.owner := by
        rw [Registry.owner?, found, Option.map_some]
      have resource : slot.owner = .resource := by
        cases held : slot.owner with
        | resource => rfl
        | type => exact absurd (owner.trans (congrArg some held)) free
        | extension => exact absurd (owner.trans (congrArg some held)) (steady.extensions _)
      exact ⟨announced root c, by rw [compileRoot_of_held found, if_pos resource], steady⟩

/-! ## All roots -/

/-- A type holds the key of a root when the root is reached. -/
def Clashes (k : Compiler) (roots : List Root) (c : Compilation) (root : Root) : Prop :=
  ∃ before after answers c', roots = before ++ root :: after ∧
    k.compileRoots before c = .ok answers c' ∧ c'.registry.owner? root.key = some .type

/-- A root whose key is held by a type ends the run. -/
theorem Clashes.error {roots : List Root} (clashes : k.Clashes roots c root) :
    ∃ c', k.compileRoots roots c = .error (.keyClash root.key .type .resource) c' := by
  obtain ⟨before, after, answers, c', rfl, compiled, held⟩ := clashes
  induction before generalizing c answers with
  | nil =>
      obtain ⟨_, rfl⟩ := Work.pure_ok_iff.1 compiled
      obtain ⟨slot, found, owner⟩ := Option.map_eq_some_iff.1 held
      have stopped : k.compileRoot root c = .error (.keyClash root.key .type .resource)
          (announced root c) := by
        rw [compileRoot_of_held found, owner, if_neg (by decide)]
      refine ⟨announced root c, ?_⟩
      simp only [List.nil_append, compileRoots, bind, EStateM.bind, stopped]
  | cons first rest ih =>
      obtain ⟨answer, c1, h1, compiled⟩ := Work.bind_ok_iff.1 compiled
      obtain ⟨others, c2, h2, compiled⟩ := Work.bind_ok_iff.1 compiled
      obtain ⟨_, rfl⟩ := Work.pure_ok_iff.1 compiled
      obtain ⟨c', stopped⟩ := ih others h2
      refine ⟨c', ?_⟩
      simp only [List.cons_append, compileRoots, bind, EStateM.bind, h1, stopped]

/-- Every root is referred to, unless a type holds the key of one of them. -/
theorem Steady.compileRoots (steady : k.Steady c.registry) (roots : List Root) :
    (∃ root, k.Clashes roots c root) ∨
      ∃ c', k.compileRoots roots c = .ok (roots.map fun root => reference root.key) c' ∧
        k.Steady c'.registry := by
  induction roots generalizing c with
  | nil => exact .inr ⟨c, rfl, steady⟩
  | cons root rest ih =>
      by_cases held : c.registry.owner? root.key = some .type
      · exact .inl ⟨root, [], rest, [], c, rfl, rfl, held⟩
      · obtain ⟨c1, first, steady1⟩ := steady.compileRoot held
        rcases ih steady1 with ⟨other, before, after, answers, c', rfl, compiled, held⟩ |
          ⟨c', others, steady'⟩
        · refine .inl ⟨other, root :: before, after, reference root.key :: answers, c', rfl, ?_, held⟩
          exact Work.bind_ok_iff.2 ⟨_, c1, first, Work.bind_ok_iff.2 ⟨_, c', compiled, rfl⟩⟩
        · refine .inr ⟨c', ?_, steady'⟩
          exact Work.bind_ok_iff.2 ⟨_, c1, first, Work.bind_ok_iff.2 ⟨_, c', others, rfl⟩⟩

theorem Steady.of_compileRoots (steady : k.Steady c.registry) {roots : List Root}
    {answers : List Json} (compiled : k.compileRoots roots c = .ok answers c') :
    k.Steady c'.registry := by
  rcases steady.compileRoots roots with ⟨root, clashes⟩ | ⟨c1, compiled1, steady1⟩
  · obtain ⟨c1, stopped⟩ := clashes.error
    rw [stopped] at compiled
    cases compiled
  · rw [compiled1] at compiled
    cases compiled
    exact steady1

end Compiler

end ManifestSchema
