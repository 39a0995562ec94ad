import ManifestSchema.Proofs.RootsInDocument

/-!
# The definitions of an envelope

What a run generates goes over what the envelope defines, so a definition of the envelope stays
unless the run generates one under the same key. The keys that are generated are those of the
extensions, of the entries of roots, and of the types that the roots lead to: an envelope whose keys
are none of them keeps everything.

Results:

1. `RenderOptions.generate_keys_iff`: the keys that a run generates;
2. `RenderOptions.render_keeps_definition_iff`: which definitions of an envelope are kept;
3. `RenderOptions.render_tag_replaced`: one that is not.
-/

namespace ManifestSchema

/-! ## Generated keys -/

/-- A key gets a definition in a run: an extension or the entry of a root holds it, or it is that of
a type that the roots lead to. -/
def Compiler.Generates (k : Compiler) (roots : List Root) (key : String) : Prop :=
  RenderOptions.heldBy roots key = true ∨
    ReachedFrom (k.types.leads (RenderOptions.heldBy roots))
      (k.rootedTypes (RenderOptions.heldBy roots) roots) key

namespace Registry

theorem mem_keys_iff {r : Registry} {key : String} :
    key ∈ r.slots.keys ↔ r.taken key = true ∨ r.owner? key = some .type := by
  rw [taken_iff, ← Dict.contains_iff, Dict.contains, owner?]
  cases r.slots.find? key with
  | none => simp
  | some slot => cases held : slot.owner <;> simp [held]

end Registry

namespace RenderOptions

variable {o : RenderOptions} {ts : TypeSystem} {g : Generated}

/-- The keys that a run with the default extensions generates. -/
theorem generate_keys_iff (keyed : ts.WellKeyed) (distinct : ts.types.Distinct)
    (generated : o.generate Extension.defaults ts = .ok g) (key : String) :
    key ∈ g.compilation.registry.slots.keys ↔ (o.compiler ts).Generates g.roots key := by
  obtain ⟨_, held, completed⟩ := generate_completed keyed distinct generated
  rw [Registry.mem_keys_iff, Compiler.Generates, ← held]
  exact or_congr Iff.rfl ⟨completed.reached key, completed.owner_of_reached⟩

/-! ## Kept definitions -/

variable {x : Rendered} {envelope : Json}

/-- A definition of an envelope is kept exactly when the run does not generate another one under its
key, and what it generates does not depend on the envelope. -/
theorem render_keeps_definition_iff (rendered : o.render ts envelope = .ok x) :
    ∃ g definitions, o.generate Extension.defaults ts = .ok g ∧
      x.Defines g.compilation.registry envelope definitions ∧
      (∀ key value, (Envelope.definitionsIn envelope).find? key = some value →
        (definitions.find? key = some value ↔
          ∀ body, g.compilation.registry.body? key = some body → body = value)) ∧
      (ts.WellKeyed → ts.types.Distinct → ∀ key,
        key ∈ g.compilation.registry.slots.keys ↔ (o.compiler ts).Generates g.roots key) := by
  obtain ⟨g, definitions, generated, defines, _⟩ := renderWith_ok rendered
  replace defines := defines (generate_ready generated).1.closed.distinct
  refine ⟨g, definitions, generated, defines, fun key value own => ?_,
    fun keyed distinct => generate_keys_iff keyed distinct generated⟩
  by_cases member : key ∈ g.compilation.registry.slots.keys
  · obtain ⟨body, held, found⟩ := defines.generated key member
    simp [held, found]
  · have nothing : g.compilation.registry.body? key = none := by
      rw [Registry.body?, Registry.entry?, Dict.find?_eq_none_iff.2 member, Option.map_none]
    simp [defines.kept key value own member, nothing]

end RenderOptions

/-! ## An example -/

namespace Shop

/-- An envelope with a definition under a key of the conventions, and another one. -/
def taggedEnvelope : Json :=
  .obj [("definitions", .obj [("Tag", Fragment.ofType "null"), ("Custom", .bool true)])]

theorem exists_tagged : ∃ x, options.render rootedTypes taggedEnvelope = .ok x :=
  exists_of_isOk (by decide +kernel)

/-- The bodies that a run generates under some keys. -/
def generated? (keys : List String) : Option (List (Option Json)) :=
  (options.generate Extension.defaults rootedTypes).toOption.map fun g =>
    keys.map g.compilation.registry.body?

end Shop

/-- In the example one of the two definitions of the envelope is kept. -/
theorem RenderOptions.render_keeps_custom : ∃ (x : Rendered) (definitions : Dict Json),
    Shop.options.render Shop.rootedTypes Shop.taggedEnvelope = .ok x ∧
      x.document.get? "definitions" = some (.obj definitions) ∧
      definitions.find? "Custom" = some (.bool true) ∧
      definitions.find? "Tag" ≠ some (Fragment.ofType "null") := by
  obtain ⟨x, rendered⟩ := Shop.exists_tagged
  obtain ⟨g, definitions, generated, defines, kept, _⟩ :=
    RenderOptions.render_keeps_definition_iff rendered
  have bodies : Shop.generated? ["Custom", "Tag"] =
      some [none, some (describedBy "Tag" Conventions.tag)] := by
    decide +kernel
  simp only [Shop.generated?, generated, Except.toOption, Option.map_some, Option.some.injEq,
    List.map_cons, List.map_nil, List.cons.injEq, and_true] at bodies
  obtain ⟨custom, tag⟩ := bodies
  refine ⟨x, definitions, rendered, defines.defined, (kept _ _ rfl).2 ?_, fun null => ?_⟩
  · simp [custom]
  · have same := (kept _ _ rfl).1 null _ tag
    revert same
    decide

/-- An envelope that defines tags does not find its definition in the document. -/
theorem RenderOptions.render_tag_replaced : ∃ x,
    Shop.options.render Shop.rootedTypes Shop.taggedEnvelope = .ok x ∧
      (Shop.taggedEnvelope.get? "definitions").bind (·.get? "Tag") =
        some (Fragment.ofType "null") ∧
      (x.document.get? "definitions").bind (·.get? "Tag") ≠ some (Fragment.ofType "null") := by
  obtain ⟨x, rendered⟩ := Shop.exists_tagged
  have defined : Shop.defined? (Shop.options.render Shop.rootedTypes Shop.taggedEnvelope) "Tag" =
      some (describedBy "Tag" Conventions.tag) := by
    decide +kernel
  rw [rendered, Shop.defined?] at defined
  refine ⟨x, rendered, rfl, ?_⟩
  rw [defined]
  decide

end ManifestSchema
