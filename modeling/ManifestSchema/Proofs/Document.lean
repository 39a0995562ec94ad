import ManifestSchema.Proofs.Compile.References
import ManifestSchema.Proofs.Compile.Run
import ManifestSchema.Proofs.Envelope
import ManifestSchema.Proofs.Pointer

/-!
# References in the document

References are handed out while what they lead to is not finished yet: by types, by the entries of
roots, by the conventions and by the calls of intrinsic functions. In a document that was rendered
each of them leads to a definition, and to the one that the registry holds.

Results:

1. `Compiler.compileRoot_ready` and `Compiler.compileRoots_ready`: the entries of roots keep the
   registry closed;
2. `Extension.ready_of_defaults`: the default extensions leave a closed registry with everything
   that entries rely on;
3. `RenderOptions.render_pointers_resolve`: no reference of a rendered document is dangling.
-/

namespace ManifestSchema

/-! ## Entries of roots -/

/-- The keys of the shared definitions, in the order in which entries refer to them. -/
def Conventions.keys : List String := [callKey, tagKey, dependsOnKey, overrideKey]

namespace Compiler

variable {k : Compiler}

/-- What the entries of roots rely on. -/
structure Ready (k : Compiler) (r : Registry) : Prop where
  closed : r.Closed
  alternative : ∀ key, k.alternative = some key → key ∈ r.slots.keys
  conventions : Conventions.keys ⊆ r.slots.keys

theorem Ready.grown {r r' : Registry} (ready : k.Ready r) (closed : r'.Closed)
    (more : r.slots.keys ⊆ r'.slots.keys) : k.Ready r' where
  closed := closed
  alternative key h := more (ready.alternative key h)
  conventions := fun _ h => more (ready.conventions h)

theorem pointers_resourceEntry (fqn : String) (props : Json) :
    (resourceEntry fqn props).pointers =
      props.pointers ++ Conventions.keys.map Pointer.text := by
  simp [resourceEntry, Json.pointers, Json.pointersOfMembers, Conventions.keys]

/-- An entry is reserved, the schema of its properties is compiled, and it is written where its key
was reserved. -/
theorem Ready.enter {taken : String → Bool} {key fqn : String} {props : TypeRef}
    {body : Json} {r inside out : Registry} (ready : k.Ready r) (new : key ∉ r.slots.keys)
    (grows : k.Grows taken props.names ⟨r.slots ++ [(key, ⟨.resource, .pending⟩)]⟩ inside)
    (entry : body = resourceEntry fqn (k.fragment taken props))
    (written : out.slots = inside.slots.adjust key fun slot =>
      { slot with entry := .resolved (describedBy key body) }) :
    k.Ready out ∧ r.slots.keys ⊆ out.slots.keys ∧ key ∈ out.slots.keys := by
  have old : r.slots.keys ⊆ Dict.keys (r.slots ++ [(key, Slot.mk .resource .pending)]) := by
    rw [Dict.keys_append]
    exact List.subset_append_left _ _
  -- a pending entry refers to nothing, so the compilation starts from a closed registry
  have closed := grows.closed (fun key h => old (ready.alternative key h))
    (ready.closed.reserved new .resource)
  obtain ⟨added, slots, walk⟩ := grows
  rw [← keys_of_slots slots] at walk
  rw [List.append_assoc, List.singleton_append] at slots
  have keys : out.slots.keys = inside.slots.keys := by rw [written, Dict.keys_adjust]
  have more : r.slots.keys ⊆ out.slots.keys := keys ▸ fun _ h => walk.subset (old h)
  rw [slots, Dict.adjust_middle new] at written
  refine ⟨ready.grown ?_ more, more, ?_⟩
  · obtain ⟨outSlots⟩ := out
    obtain ⟨insideSlots⟩ := inside
    subst slots written
    refine closed.written fun text member => ?_
    rw [Json.pointers_describedBy, entry, pointers_resourceEntry, pointers_fragment,
      ← List.map_append] at member
    obtain ⟨other, hother, rfl⟩ := List.mem_map.1 member
    refine ⟨other, ?_, rfl⟩
    -- what the entry names was met on the walk, the shared definitions were there before it
    rcases List.mem_append.1 hother with h | h
    · exact walk.todo_subset h
    · exact walk.subset (old (ready.conventions h))
  · rw [written]
    simp [Dict.keys]

/-- The entry of a root is there in the end, and all that it refers to. -/
theorem compileRoot_ready {root : Root} {c c' : Compilation} {answer : Json}
    (ready : k.Ready c.registry) (h : k.compileRoot root c = .ok answer c') :
    k.Ready c'.registry ∧ c.registry.slots.keys ⊆ c'.registry.slots.keys ∧
      ∃ key ∈ c'.registry.slots.keys, answer = reference key := by
  obtain ⟨scope, c1, opened, h⟩ := Work.bind_ok_iff.1 h
  have same : c1.registry = c.registry := keepsRegistry_child _ _ _ c scope c1 opened
  rw [← same] at ready ⊢
  obtain ⟨rfl, ⟨slot, present, _, rfl⟩ | ⟨missing, body, c2, produced, resolved⟩⟩ :=
    Registry.define_ok_iff.1 h
  · exact ⟨ready, fun _ => id, _, Dict.mem_keys_of_find? present, rfl⟩
  · obtain ⟨schema, c3, compiled, produced⟩ := Work.bind_ok_iff.1 produced
    obtain ⟨rfl, rfl⟩ := Work.pure_ok_iff.1 produced
    obtain ⟨rfl, grows⟩ := compile_gives root.props scope _ schema c3 rfl compiled
    obtain ⟨_, _, _, rfl⟩ := Registry.resolve_ok_iff.1 resolved
    obtain ⟨ready, more, member⟩ := ready.enter (Dict.find?_eq_none_iff.1 missing) grows rfl rfl
    exact ⟨ready, more, _, member, rfl⟩

theorem compileRoots_ready {roots : List Root} {c c' : Compilation} {answers : List Json}
    (ready : k.Ready c.registry) (h : k.compileRoots roots c = .ok answers c') :
    k.Ready c'.registry ∧ c.registry.slots.keys ⊆ c'.registry.slots.keys ∧
      ∀ answer ∈ answers, ∃ key ∈ c'.registry.slots.keys, answer = reference key := by
  induction roots generalizing c answers with
  | nil =>
      obtain ⟨rfl, rfl⟩ := Work.pure_ok_iff.1 h
      exact ⟨ready, fun _ => id, fun _ member => absurd member List.not_mem_nil⟩
  | cons root rest ih =>
      obtain ⟨first, c1, h1, h⟩ := Work.bind_ok_iff.1 h
      obtain ⟨others, c2, h2, h⟩ := Work.bind_ok_iff.1 h
      obtain ⟨rfl, rfl⟩ := Work.pure_ok_iff.1 h
      obtain ⟨ready1, more1, key, hkey, rfl⟩ := compileRoot_ready ready h1
      obtain ⟨ready2, more2, present⟩ := ih ready1 h2
      refine ⟨ready2, fun _ h => more2 (more1 h), fun answer member => ?_⟩
      rcases List.mem_cons.1 member with rfl | member
      · exact ⟨key, more2 hkey, rfl⟩
      · exact present answer member

end Compiler

/-! ## Default extensions -/

namespace Extension

/-- A registered definition. -/
def CustomDefinition.slot (d : CustomDefinition) : String × Slot :=
  (d.key, ⟨d.owner, match d.body with
    | some body => .resolved (describedBy d.key body)
    | none => .pending⟩)

/-- The definitions of the default extensions, registered in order. -/
def defaultSlots : Dict Slot := (defaults.flatMap definitions).map CustomDefinition.slot

theorem extendAll_defaults : extendAll defaults Registry.empty = .ok () ⟨defaultSlots⟩ := rfl

theorem ready_of_defaults (o : RenderOptions) (ts : TypeSystem) :
    (o.compiler ts).Ready ⟨defaultSlots⟩ where
  closed := ⟨by decide, by decide⟩
  alternative key h := by
    have expression : expressionKey ∈ defaultSlots.keys := by decide
    unfold RenderOptions.compiler at h
    split at h
    · exact Option.some.inj h ▸ expression
    · cases h
  conventions := by decide

end Extension

/-- What a run with the default extensions generates refers to keys of its registry only. -/
theorem RenderOptions.generate_ready {o : RenderOptions} {ts : TypeSystem} {g : Generated}
    (h : o.generate Extension.defaults ts = .ok g) :
    (o.compiler ts).Ready g.compilation.registry ∧
      ∀ answer ∈ g.references, ∃ key ∈ g.compilation.registry.slots.keys,
        answer = reference key := by
  rw [generate, Extension.extendAll_defaults] at h
  simp only at h
  split at h
  · cases h
  · next roots diagnostics _ =>
      split at h
      · cases h
      · next references c compiled =>
          cases h
          have ready : (o.compiler ts).Ready
              (Compilation.mk ⟨Extension.defaultSlots⟩ diagnostics).registry :=
            Extension.ready_of_defaults o ts
          obtain ⟨ready, _, present⟩ := Compiler.compileRoots_ready ready compiled
          exact ⟨ready, present⟩

/-! ## Rendering -/

/-- A text points to a definition: it has the form of a reference, and undoing the escapes of its
segment gives a key under which the document has the body that the registry resolved for it. -/
def Registry.PointsTo (r : Registry) (definitions : Dict Json) (text : String) : Prop :=
  ∃ segment key : String, text = "#/definitions/" ++ segment ∧ '/' ∉ segment.toList ∧
    Pointer.unescape segment.toList = key.toList ∧
    ∃ body, r.body? key = some body ∧ definitions.find? key = some body

section Finished

variable {r : Registry} {bodies : Dict Json} (finished : r.definitions = .ok bodies)

include finished

/-- Definitions that were there before do not stand in the way of those of the registry. -/
theorem Registry.Closed.find?_insertAll (closed : r.Closed) (present : Dict Json) {key : String}
    {body : Json} (found : r.body? key = some body) :
    (Dict.insertAll present bodies).find? key = some body := by
  have distinct : bodies.Distinct := by
    rw [Dict.Distinct, Registry.keys_definitions finished]
    exact closed.distinct
  rw [Dict.find?_insertAll distinct, Registry.find?_definitions finished, found, Option.some_or]

/-- Nothing is pending any more, so a reference to any key of the registry points to a body. -/
theorem Registry.Closed.pointsTo (closed : r.Closed) (present : Dict Json) {key : String}
    (member : key ∈ r.slots.keys) :
    r.PointsTo (Dict.insertAll present bodies) (Pointer.text key) := by
  rw [← Registry.keys_definitions finished, ← Dict.contains_iff, Dict.contains,
    Registry.find?_definitions finished] at member
  obtain ⟨body, found⟩ := Option.isSome_iff_exists.1 member
  exact ⟨Pointer.segment key, key, rfl, Pointer.slash_not_mem_segment key,
    Pointer.unescape_segment key, body, found, closed.find?_insertAll finished present found⟩

end Finished

/-- In a document, each body of the registry stands under its key, each reference in it points to a
definition, and so do the references that are added to the list of resources. -/
theorem RenderOptions.render_pointers_resolve {o : RenderOptions} {ts : TypeSystem}
    {envelope : Json} {rendered : Rendered} (h : o.render ts envelope = .ok rendered) :
    ∃ (g : Generated) (definitions : Dict Json) (listed : List Json),
      o.generate Extension.defaults ts = .ok g ∧
      rendered.document.get? "definitions" = some (.obj definitions) ∧
      Envelope.resources? o.resourcePattern rendered.document = some (listed ++ g.references) ∧
      (∀ key body, g.compilation.registry.body? key = some body →
        definitions.find? key = some body ∧
          ∀ text ∈ body.pointers, g.compilation.registry.PointsTo definitions text) ∧
      ∀ schema ∈ g.references, ∃ text, schema = .obj [("$ref", .str text)] ∧
        g.compilation.registry.PointsTo definitions text := by
  obtain ⟨g, generated, h⟩ := bind_eq_ok_iff.1 h
  obtain ⟨bodies, finished, h⟩ := bind_eq_ok_iff.1 h
  obtain ⟨document, spliced, h⟩ := bind_eq_ok_iff.1 h
  cases h
  obtain ⟨⟨present, found⟩, listed, resources⟩ := Envelope.splice_ok spliced
  obtain ⟨ready, references⟩ := generate_ready generated
  have points : ∀ key ∈ g.compilation.registry.slots.keys,
      g.compilation.registry.PointsTo (Dict.insertAll present bodies) (Pointer.text key) :=
    fun key member => ready.closed.pointsTo finished present member
  refine ⟨g, _, listed, generated, found, resources, fun key body h => ?_, fun schema member => ?_⟩
  · refine ⟨ready.closed.find?_insertAll finished present h, fun text member => ?_⟩
    obtain ⟨other, known, rfl⟩ := ready.closed.body_inside h text member
    exact points other known
  · obtain ⟨key, known, rfl⟩ := references schema member
    exact ⟨_, rfl, points key known⟩

/-! ## An example -/

namespace Shop

/-- The properties of a desk lead back to themselves under a name that has to be escaped. -/
def deskProps : Definition :=
  .interfaceDef ⟨"shop/Desk~Props", [],
    [⟨"nested", .collection .array (.named "shop/Desk~Props"), true, false, none⟩,
      ⟨"order", .named "shop.Order", false, false, none⟩], none⟩

def desk : Definition :=
  .classDef ⟨"shop.Desk", some "shop.Record", [],
    some [⟨"id", .primitive .string⟩, ⟨"props", .named "shop/Desk~Props"⟩], [], none⟩

/-- The types with a root among them. -/
def rootedTypes : TypeSystem :=
  ⟨types.types ++ [deskProps, desk].map fun d => (d.fqn, d), []⟩

def options : RenderOptions := ⟨⟨"shop.Record", 1, []⟩, Envelope.defaultPattern, true⟩

def rootedEnvelope : Json := Envelope.default Envelope.defaultPattern

theorem exists_rendered : ∃ rendered, options.render rootedTypes rootedEnvelope = .ok rendered := by
  have succeeds : (options.render rootedTypes rootedEnvelope).isOk = true := by decide +kernel
  cases h : options.render rootedTypes rootedEnvelope with
  | error e => rw [h] at succeeds; cases succeeds
  | ok rendered => exact ⟨rendered, rfl⟩

/-- The references in the entry of the desk. -/
def deskPointers (g : Generated) : List String :=
  ((g.compilation.registry.body? (resourceKey "shop.Desk")).map Json.pointers).getD []

theorem deskPointers_generated : (options.generate Extension.defaults rootedTypes).toOption.map
    deskPointers = some (["#/definitions/shop~1Desk~0Props"] ++
      Conventions.keys.map Pointer.text) := by
  decide +kernel

end Shop

/-- In the example the entry of the desk refers to a name with both escapes. -/
theorem RenderOptions.render_shop_pointer_resolves : ∃ rendered g definitions,
    Shop.options.render Shop.rootedTypes Shop.rootedEnvelope = .ok rendered ∧
      Shop.options.generate Extension.defaults Shop.rootedTypes = .ok g ∧
      rendered.document.get? "definitions" = some (.obj definitions) ∧
      g.compilation.registry.PointsTo definitions "#/definitions/shop~1Desk~0Props" := by
  obtain ⟨rendered, h⟩ := Shop.exists_rendered
  obtain ⟨g, definitions, _, generated, found, _, bodies, _⟩ :=
    RenderOptions.render_pointers_resolve h
  refine ⟨rendered, g, definitions, h, generated, found, ?_⟩
  have pointers := Shop.deskPointers_generated
  rw [generated] at pointers
  simp only [Except.toOption, Option.map_some, Option.some.injEq, Shop.deskPointers] at pointers
  cases body : g.compilation.registry.body? (resourceKey "shop.Desk") with
  | none => simp [body] at pointers
  | some entry =>
      refine (bodies _ entry body).2 _ ?_
      rw [body, Option.map_some, Option.getD_some] at pointers
      rw [pointers]
      exact List.mem_cons_self

end ManifestSchema
