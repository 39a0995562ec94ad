import ManifestSchema.Proofs.Compile.Agreement
import ManifestSchema.Proofs.Declarations
import ManifestSchema.Proofs.Outcome

/-!
# The order of manifests and of the types in them

Which root compiles a shared type first depends on the order of declarations, and with it the order
of definitions and the scopes on which messages land. What the definitions are, which roots there
are, and how many messages there are does not.

Results:

1. `Compiler.compileRoots_fills`: what all roots together add, up to order;
2. `RenderOptions.generate_fills`: what a run has before the envelope is looked at;
3. `RenderOptions.render_reordered`: types in another order give the same document up to order.
-/

namespace ManifestSchema

namespace Registry

theorem taken_of_owner? {r r' : Registry} {key : String}
    (same : r'.owner? key = r.owner? key ∨
      r'.owner? key = some .type ∧ r.owner? key = none) : r'.taken key = r.taken key := by
  unfold taken
  rcases same with same | ⟨type, none⟩
  · rw [same]
  · rw [type, none]

end Registry

namespace Compiler

variable {k : Compiler} {taken : String → Bool} {c c' : Compilation} {root : Root}
  {roots : List Root}

/-! ## What roots add -/

/-- The classes and interfaces that the properties of some roots name. -/
def rootedTypes (k : Compiler) (taken : String → Bool) (roots : List Root) : List String :=
  roots.flatMap fun root => root.props.names.filter (k.types.opens taken)

/-- From `c` to `c'` the entries of some roots were added, and the types `added`, which they lead
to. -/
structure Fills (k : Compiler) (taken : String → Bool) (roots : List Root) (c c' : Compilation)
    (added : List String) : Prop where
  slots : c'.registry.slots.Perm
    (c.registry.slots ++ roots.map (k.rootSlot taken) ++ added.map (k.typeSlot taken))
  order : c'.registry.slots.keys.filter (k.types.opens taken) =
    c.registry.slots.keys.filter (k.types.opens taken) ++ added
  walk : DepthFirst (k.types.leads taken) (c.registry.slots.keys.filter (k.types.opens taken))
    (k.rootedTypes taken roots) (c'.registry.slots.keys.filter (k.types.opens taken))
  errors : c'.diagnostics.errorCount = c.diagnostics.errorCount +
    (roots.map fun root => k.badLeaves taken root.props).sum + (added.map (k.errorsOf taken)).sum
  warnings : c'.diagnostics.warningCount = c.diagnostics.warningCount + added.countP k.namesMarker

/-- What holds of a state from which some roots are still to be compiled: nothing stands in their
way, and of the keys of types the same ones are taken throughout. -/
structure Awaits (k : Compiler) (taken : String → Bool) (roots : List Root) (c : Compilation) :
    Prop where
  offers : k.Offers c.registry
  keyed : k.types.WellKeyed
  apart : ∀ key ∈ k.types.types.keys, ¬ResourceLike key
  holders : ∀ name d, k.types.find? name = some d → c.registry.taken name = taken name
  nodup : (roots.map Root.key).Nodup
  free : ∀ root ∈ roots, root.key ∉ c.registry.slots.keys

theorem Awaits.key_ne {name : String} {d : Definition} (h : k.Awaits taken roots c)
    (found : k.types.find? name = some d) (root : Root) : root.key ≠ name := by
  rintro rfl
  exact h.apart _ (Dict.mem_keys_of_find? found) (resourceLike_resourceKey _)

/-- The key of a root that is reserved is not that of a type. -/
theorem Awaits.agree (h : k.Awaits taken roots c) (root : Root) :
    Agree k k (reserved root c.registry).taken taken where
  keyed := h.keyed
  keyed' := h.keyed
  found _ := rfl
  alternative := rfl
  holders name d found := by
    rw [← h.holders name d found]
    refine Registry.taken_of_owner? (.inl ?_)
    rw [reserved, Registry.owner?_append]
    simp [Registry.owner?, Dict.find?_cons, h.key_ne found root]

theorem Awaits.not_opens (h : k.Awaits taken roots c) (root : Root) :
    k.types.opens taken root.key = false := by
  rw [Bool.eq_false_iff]
  intro opens
  obtain ⟨d, found, _⟩ := TypeSystem.opens_iff.1 opens
  exact h.key_ne found root rfl

theorem Agree.rootSlot {k' : Compiler} {taken' : String → Bool} (h : Agree k k' taken taken') :
    k.rootSlot taken = k'.rootSlot taken' := by
  funext root
  rw [Compiler.rootSlot, Compiler.rootSlot, h.fragment]

/-- What the entry of a root adds, in terms of the keys that are taken throughout. -/
theorem Awaits.fills {rest : List Root} {added : List String}
    (h : k.Awaits taken (root :: rest) c) (enters : k.Enters root c c' added) :
    k.Fills taken [root] c c' added := by
  have agree := h.agree root
  have keys : c'.registry.slots.keys = c.registry.slots.keys ++ [root.key] ++ added := by
    rw [enters.keys, List.append_assoc, List.singleton_append]
  have opened : ∀ key ∈ added, k.types.opens taken key = true := by
    intro key member
    rw [← agree.opens]
    exact enters.opens member
  have slots := enters.slots
  have walk := enters.walk
  have errors := enters.errors
  rw [agree.rootSlot, agree.typeSlot] at slots
  rw [agree.leads, agree.opens] at walk
  rw [agree.badLeaves, agree.errorsOf] at errors
  have before : (c.registry.slots.keys ++ [root.key]).filter (k.types.opens taken) =
      c.registry.slots.keys.filter (k.types.opens taken) := by
    rw [List.filter_append, List.filter_cons_of_neg (by simp [h.not_opens root]), List.filter_nil,
      List.append_nil]
  refine ⟨?_, ?_, ?_, ?_, enters.warnings⟩
  · rw [slots, List.map_singleton, List.append_assoc, List.singleton_append]
  · rw [keys, List.filter_append, before, List.filter_eq_self.2 opened]
  · have restricted := walk.restrict (fun _ member => (List.mem_filter.1 member).2)
      fun _ _ member => TypeSystem.opens_of_mem_leads member
    rw [before, ← keys] at restricted
    rwa [rootedTypes, List.flatMap_singleton]
  · rw [errors, List.map_singleton, List.sum_singleton]

/-- After the entry of a root, nothing stands in the way of the others. -/
theorem Awaits.enter {rest : List Root} {added : List String}
    (h : k.Awaits taken (root :: rest) c) (enters : k.Enters root c c' added) :
    k.Awaits taken rest c' := by
  obtain ⟨first, nodup⟩ := List.nodup_cons.1 h.nodup
  refine ⟨fun key alternative => ?_, h.keyed, h.apart, fun name d found => ?_, nodup,
    fun other member => ?_⟩
  · rw [enters.keys]
    exact List.mem_append_left _ (h.offers key alternative)
  · rw [← h.holders name d found]
    refine Registry.taken_of_owner? ?_
    rw [enters.owner?_eq, if_neg (h.key_ne found root)]
    cases c.registry.owner? name with
    | some owner => exact .inl rfl
    | none => by_cases member : name ∈ added <;> simp [member]
  · rw [enters.keys]
    intro present
    rcases List.mem_append.1 present with old | new
    · exact h.free other (List.mem_cons_of_mem _ member) old
    · rcases List.mem_cons.1 new with same | new
      · exact first (same ▸ List.mem_map_of_mem member)
      · obtain ⟨d, found, _⟩ := TypeSystem.opens_iff.1 (enters.opens new)
        exact h.key_ne found other rfl

theorem Fills.append {more : List Root} {c1 : Compilation} {added added' : List String}
    (h : k.Fills taken roots c c1 added) (h' : k.Fills taken more c1 c' added') :
    k.Fills taken (roots ++ more) c c' (added ++ added') where
  slots := by
    refine h'.slots.trans (((h.slots.append_right _).append_right _).trans ?_)
    refine List.perm_iff_count.2 fun slot => ?_
    simp only [List.map_append, List.count_append]
    omega
  order := by rw [h'.order, h.order, List.append_assoc]
  walk := by
    rw [rootedTypes, List.flatMap_append]
    exact h.walk.append h'.walk
  errors := by
    rw [h'.errors, h.errors]
    simp only [List.map_append, List.sum_append]
    omega
  warnings := by
    rw [h'.warnings, h.warnings, List.countP_append, Nat.add_assoc]

/-- All roots get their entries, and together they add what the types lead to. -/
theorem compileRoots_fills (h : k.Awaits taken roots c) :
    ∃ answers c' added, k.compileRoots roots c = .ok answers c' ∧
      k.Fills taken roots c c' added := by
  induction roots generalizing c with
  | nil =>
      refine ⟨[], c, [], rfl, ?_, ?_, ?_, ?_, ?_⟩ <;> simp [rootedTypes, DepthFirst.done]
  | cons root rest ih =>
      have free := Dict.find?_eq_none_iff.2 (h.free root List.mem_cons_self)
      obtain ⟨c1, added, first, enters⟩ := compileRoot_enters h.offers free
      obtain ⟨answers, c', added', others, fills⟩ := ih (h.enter enters)
      refine ⟨reference root.key :: answers, c', added ++ added', ?_, (h.fills enters).append fills⟩
      exact Work.bind_ok_iff.2 ⟨_, c1, first, Work.bind_ok_iff.2 ⟨_, c', others, rfl⟩⟩

section Compare

variable {k' : Compiler} {roots' : List Root} {s s' : Compilation} {added added' : List String}

/-- Roots in another order add the same types in another order. -/
theorem Fills.added_perm (agree : Agree k k' taken taken) (same : roots.Perm roots')
    (unopened : ∀ key ∈ c.registry.slots.keys, k.types.opens taken key = false)
    (start : s.registry = c.registry) (h : k.Fills taken roots c c' added)
    (h' : k'.Fills taken roots' s s' added') : added.Perm added' := by
  have nothing : c.registry.slots.keys.filter (k.types.opens taken) = [] :=
    List.filter_eq_nil_iff.2 fun key member => by simp [unopened key member]
  have walk := h.walk
  have walk' := h'.walk
  rw [h.order, nothing, List.nil_append] at walk
  rw [h'.order, start, ← agree.leads, ← agree.opens, nothing, List.nil_append] at walk'
  refine walk.perm_of_perm walk' ?_
  unfold rootedTypes
  rw [← agree.opens]
  exact same.flatMap_right _

/-- Roots in another order lead to the same registry up to order, and to as many messages. -/
theorem Fills.compare (agree : Agree k k' taken taken) (same : roots.Perm roots')
    (unopened : ∀ key ∈ c.registry.slots.keys, k.types.opens taken key = false)
    (start : s.registry = c.registry) (h : k.Fills taken roots c c' added)
    (h' : k'.Fills taken roots' s s' added')
    (errors : c.diagnostics.errorCount = s.diagnostics.errorCount)
    (warnings : c.diagnostics.warningCount = s.diagnostics.warningCount) :
    c'.registry.slots.Perm s'.registry.slots ∧
      c'.diagnostics.errorCount = s'.diagnostics.errorCount ∧
      c'.diagnostics.warningCount = s'.diagnostics.warningCount := by
  have types := h.added_perm agree same unopened start h'
  refine ⟨?_, ?_, ?_⟩
  · refine h.slots.trans (List.Perm.trans ?_ h'.slots.symm)
    rw [start, ← agree.rootSlot, ← agree.typeSlot]
    exact ((List.Perm.refl _).append (same.map _)).append (types.map _)
  · rw [h.errors, h'.errors, ← agree.badLeaves, ← agree.errorsOf, errors,
      (same.map fun root => k.badLeaves taken root.props).sum_nat, (types.map _).sum_nat]
  · rw [h.warnings, h'.warnings, ← agree.namesMarker, warnings, types.countP_eq]

end Compare

end Compiler

/-! ## Runs -/

/-- Types that are declared once under their own names, none of which looks like the key of a
root. -/
structure TypeSystem.Plain (ts : TypeSystem) : Prop where
  distinct : ts.types.Distinct
  keyed : ts.WellKeyed
  apart : ∀ key ∈ ts.types.keys, ¬ResourceLike key

theorem TypeSystem.Plain.reordered {ts ts' : TypeSystem} (h : ts.Plain)
    (same : ts.Reordered ts') : ts'.Plain where
  distinct := (same.types.map Prod.fst).nodup_iff.1 h.distinct
  keyed := same.wellKeyed h.keyed
  apart key member := h.apart key ((same.types.map Prod.fst).mem_iff.2 member)

namespace RenderOptions

variable {o : RenderOptions} {ts ts' : TypeSystem}

/-- The keys that the types find taken: those of the default extensions. -/
def takenByDefault : String → Bool := Registry.taken ⟨Extension.defaultSlots⟩

theorem awaits_of_plain (h : ts.Plain) (o : RenderOptions) (d d' : Diagnostics) :
    (o.compiler ts).Awaits takenByDefault (o.selection.among ts ts.classes d).1
      ⟨⟨Extension.defaultSlots⟩, d'⟩ where
  offers := (Extension.ready_of_defaults o ts).alternative
  keyed := h.keyed
  apart := h.apart
  holders _ _ _ := rfl
  nodup := by
    rw [(o.selection.among_eq ts ts.classes d).1]
    have names := (o.selection.roots_sublist h.keyed).nodup h.distinct
    refine List.pairwise_map.2 ((List.pairwise_map.1 names).imp fun apart same => apart ?_)
    exact (String.append_right_inj "resource:").1 same
  free root _ := Extension.resourceKey_not_mem_defaults _

theorem agree_of_plain (h : ts.Plain) (same : ts.Reordered ts') (o : RenderOptions) :
    (o.compiler ts).Agree (o.compiler ts') takenByDefault takenByDefault where
  keyed := h.keyed
  keyed' := same.wellKeyed h.keyed
  found := same.find?_eq
  alternative := rfl
  holders _ _ _ := rfl

/-- Everything is generated, and it is what the roots add to the default extensions. -/
theorem generate_fills (h : ts.Plain) (base : o.HasBase ts) :
    ∃ g bodies added, o.generate Extension.defaults ts = .ok g ∧
      g.compilation.registry.definitions = .ok bodies ∧
      g.references = (g.roots.map fun root => reference root.key) ∧
      g.roots = (o.selection.among ts ts.classes .empty).1 ∧
      (o.compiler ts).Fills takenByDefault g.roots
        ⟨⟨Extension.defaultSlots⟩, (o.selection.among ts ts.classes .empty).2⟩ g.compilation
        added := by
  obtain ⟨g, bodies, generated, finished, references⟩ := generate_of_free base (not_clashes h.apart)
  obtain ⟨answers, c, added, compiled, fills⟩ := Compiler.compileRoots_fills
    (awaits_of_plain h o .empty (o.selection.among ts ts.classes .empty).2)
  have same := generate_of_compileRoots (select_of_base base .empty) compiled
  cases same.symm.trans generated
  exact ⟨_, bodies, added, generated, finished, references, rfl, fills⟩

theorem hasBase_iff (same : ts.Reordered ts') : o.HasBase ts ↔ o.HasBase ts' := by
  unfold HasBase
  rw [same.find?_eq]

theorem Fatal.reordered {envelope : Json} {e : EngineError} (h : ts.Plain)
    (same : ts.Reordered ts') (fatal : o.Fatal ts envelope e) : o.Fatal ts' envelope e := by
  cases fatal with
  | base noBase => exact .base fun base => noBase ((hasBase_iff same).2 base)
  | clash _ clashes => exact absurd clashes (not_clashes h.apart _)
  | envelope base _ misfit fault =>
      exact .envelope ((hasBase_iff same).1 base) (not_clashes (h.reordered same).apart) misfit fault

end RenderOptions

/-! ## Documents up to order -/

/-- Two documents made from one envelope are the same up to the order of definitions and of the
resources that were added. -/
structure Rendered.SameUpToOrder (pattern : String) (envelope : Json) (x x' : Rendered) : Prop where
  definitions : ∃ d d' : Dict Json, x.document.get? "definitions" = some (.obj d) ∧
    x'.document.get? "definitions" = some (.obj d') ∧ d.keys.Perm d'.keys ∧
    ∀ key, d.find? key = d'.find? key
  /-- Behind the resources of the envelope stands a reference to each root. -/
  references : ∃ refs refs' : List Json,
    Envelope.resources? pattern x.document =
      some (Envelope.resourcesIn pattern envelope ++ refs) ∧
    Envelope.resources? pattern x'.document =
      some (Envelope.resourcesIn pattern envelope ++ refs') ∧
    refs = x.resources.map (fun fqn => reference (resourceKey fqn)) ∧ refs.Perm refs'
  resources : x.resources.Perm x'.resources
  warnings : x.diagnostics.warningCount = x'.diagnostics.warningCount
  errors : x.diagnostics.errorCount = x'.diagnostics.errorCount

section Compare

variable {r r' : Registry} {bodies bodies' : Dict Json}

/-- Registries that differ in the order of keys only have the same definitions up to order. -/
theorem Registry.definitions_perm (same : r.slots.Perm r'.slots) (distinct : r.slots.Distinct)
    (finished : r.definitions = .ok bodies) (finished' : r'.definitions = .ok bodies')
    (present : Dict Json) :
    (Dict.insertAll present bodies).keys.Perm (Dict.insertAll present bodies').keys ∧
      ∀ key, (Dict.insertAll present bodies).find? key =
        (Dict.insertAll present bodies').find? key := by
  have keys := Registry.keys_definitions finished
  have keys' := Registry.keys_definitions finished'
  have permuted : bodies.keys.Perm bodies'.keys := by
    rw [keys, keys']
    exact same.map Prod.fst
  have distinct1 : bodies.Distinct := by
    rw [Dict.Distinct, keys]
    exact distinct
  have distinct1' : bodies'.Distinct := permuted.nodup_iff.1 distinct1
  constructor
  · rw [Dict.keys_insertAll distinct1, Dict.keys_insertAll distinct1']
    exact (permuted.filter _).append_left _
  · intro key
    have body : r.body? key = r'.body? key := by
      rw [Registry.body?, Registry.body?, Registry.entry?, Registry.entry?,
        Dict.find?_perm same distinct]
    rw [Dict.find?_insertAll distinct1, Dict.find?_insertAll distinct1',
      Registry.find?_definitions finished, Registry.find?_definitions finished', body]

end Compare

namespace RenderOptions

variable {o : RenderOptions} {ts ts' : TypeSystem}

theorem hasBase_of_render {envelope : Json} {x : Rendered}
    (rendered : o.render ts envelope = .ok x) : o.HasBase ts := by
  refine Classical.byContradiction fun noBase => ?_
  rw [render_of_error (generate_of_no_base noBase)] at rendered
  cases rendered

/-- What a document is made of. -/
theorem render_places {g : Generated} {bodies : Dict Json} {envelope : Json} {x : Rendered}
    (generated : o.generate Extension.defaults ts = .ok g)
    (finished : g.compilation.registry.definitions = .ok bodies)
    (rendered : o.render ts envelope = .ok x) :
    x.document.get? "definitions" =
        some (.obj (Dict.insertAll (Envelope.definitionsIn envelope) bodies)) ∧
      Envelope.resources? o.resourcePattern x.document =
        some (Envelope.resourcesIn o.resourcePattern envelope ++ g.references) ∧
      x.resources = g.roots.map (fun root => root.definition.fqn) ∧
      x.diagnostics = g.compilation.diagnostics := by
  rw [render_of_generated generated finished] at rendered
  obtain ⟨document, spliced, done⟩ := bind_eq_ok_iff.1 rendered
  cases done
  obtain ⟨definitions, resources⟩ := Envelope.splice_places spliced
  exact ⟨definitions, resources, rfl, rfl⟩

theorem sameUpToOrder_of_reordered {envelope : Json} {x x' : Rendered} (h : ts.Plain)
    (same : ts.Reordered ts') (rendered : o.render ts envelope = .ok x)
    (rendered' : o.render ts' envelope = .ok x') :
    x.SameUpToOrder o.resourcePattern envelope x' := by
  have base := hasBase_of_render rendered
  obtain ⟨g, bodies, added, generated, finished, references, roots, fills⟩ :=
    generate_fills h base
  obtain ⟨g', bodies', added', generated', finished', references', roots', fills'⟩ :=
    generate_fills (h.reordered same) ((hasBase_iff same).1 base)
  obtain ⟨selected, errors, warnings⟩ := o.selection.among_perm same .empty
  rw [← roots, ← roots'] at selected
  -- the extensions hold the keys that are there before the roots, so the types open none of them
  have unopened : ∀ key ∈ Dict.keys Extension.defaultSlots,
      (o.compiler ts).types.opens takenByDefault key = false := by
    intro key member
    rw [Bool.eq_false_iff]
    exact fun opens => Compiler.not_mem_keys_of_opens Extension.noTypes_defaults opens member
  obtain ⟨slots, errors, warnings⟩ :=
    fills.compare (agree_of_plain h same o) selected unopened (by rfl) fills' errors warnings
  have distinct := (generate_ready generated).1.closed.distinct
  obtain ⟨definitions, resources, names, diagnostics⟩ := render_places generated finished rendered
  obtain ⟨definitions', resources', names', diagnostics'⟩ :=
    render_places generated' finished' rendered'
  exact {
    definitions := ⟨_, _, definitions, definitions',
      Registry.definitions_perm slots distinct finished finished' _⟩
    references := ⟨_, _, resources, resources', by rw [references, names, List.map_map]; rfl,
      by rw [references, references']; exact selected.map _⟩
    resources := by rw [names, names']; exact selected.map _
    warnings := by rw [diagnostics, diagnostics', warnings]
    errors := by rw [diagnostics, diagnostics', errors] }

/-- Manifests with the same types in another order of files, or of types inside files, are rendered
to the same document up to order, with as many messages, or refused with the same error. -/
theorem render_reordered {files files' : List (String × Assembly)}
    (same : (TypeSystem.declarations files).Perm (TypeSystem.declarations files'))
    (distinct : (TypeSystem.declarations files).Distinct)
    (keyed : ∀ p ∈ TypeSystem.declarations files, p.2.fqn = p.1)
    (apart : ∀ key ∈ (TypeSystem.declarations files).keys, ¬ResourceLike key)
    (o : RenderOptions) (envelope : Json) :
    ∃ ts ts', TypeSystem.ofAssemblies files = .ok ts ∧ TypeSystem.ofAssemblies files' = .ok ts' ∧
      (∀ e, o.render ts envelope = .error e ↔ o.render ts' envelope = .error e) ∧
      ∀ x, o.render ts envelope = .ok x → ∃ x', o.render ts' envelope = .ok x' ∧
        x.SameUpToOrder o.resourcePattern envelope x' := by
  obtain ⟨ts, loaded, types⟩ := TypeSystem.ofAssemblies_of_distinct distinct
  obtain ⟨ts', loaded', types'⟩ :=
    TypeSystem.ofAssemblies_of_distinct ((same.map Prod.fst).nodup_iff.1 distinct)
  have plain : ts.Plain := ⟨types ▸ distinct, fun p member => keyed p (types ▸ member), types ▸ apart⟩
  have reordered : ts.Reordered ts' := ⟨types ▸ types' ▸ same, plain.distinct⟩
  have back : ts'.Reordered ts := ⟨reordered.types.symm, (plain.reordered reordered).distinct⟩
  have refused : ∀ e, o.render ts envelope = .error e ↔ o.render ts' envelope = .error e :=
    fun e => ⟨fun h => ((fatal_of_render h).reordered plain reordered).render,
      fun h => ((fatal_of_render h).reordered (plain.reordered reordered) back).render⟩
  refine ⟨ts, ts', loaded, loaded', refused, fun x rendered => ?_⟩
  cases rendered' : o.render ts' envelope with
  | error e =>
      rw [(refused e).2 rendered'] at rendered
      cases rendered
  | ok x' => exact ⟨x', rfl, sameUpToOrder_of_reordered plain reordered rendered rendered'⟩

end RenderOptions

/-! ## An example -/

namespace Shop

/-- Another root with the properties of the desk. -/
def chair : Definition :=
  .classDef ⟨"shop.Chair", some "shop.Record", [],
    some [⟨"id", .primitive .string⟩, ⟨"props", .named "shop/Desk~Props"⟩], [], none⟩

def furniture : Dict Definition := [deskProps, desk, chair].map fun d => (d.fqn, d)

/-- The types in two manifests. -/
def files : List (String × Assembly) :=
  [("core.json", ⟨"core", types.types⟩), ("furniture.json", ⟨"furniture", furniture⟩)]

/-- Both manifests the other way round, and the types in them as well. -/
def otherFiles : List (String × Assembly) :=
  [("furniture.json", ⟨"furniture", furniture.reverse⟩),
    ("core.json", ⟨"core", types.types.reverse⟩)]

theorem declarations_perm :
    (TypeSystem.declarations files).Perm (TypeSystem.declarations otherFiles) :=
  (List.reverse_perm (TypeSystem.declarations files)).symm

/-- The roots of a rendered document. -/
def renderedRoots (files : List (String × Assembly)) : Option (List String) :=
  match TypeSystem.ofAssemblies files with
  | .error _ => none
  | .ok ts => (options.render ts rootedEnvelope).toOption.map Rendered.resources

theorem exists_rendered_of_roots {files : List (String × Assembly)} {names : List String}
    {ts : TypeSystem} (loaded : TypeSystem.ofAssemblies files = .ok ts)
    (h : renderedRoots files = some names) :
    ∃ x, options.render ts rootedEnvelope = .ok x ∧ x.resources = names := by
  rw [renderedRoots, loaded] at h
  cases rendered : options.render ts rootedEnvelope with
  | error e => simp [rendered, Except.toOption] at h
  | ok x => exact ⟨x, rfl, by simpa [rendered, Except.toOption] using h⟩

end Shop

/-- In the example the other root is reached first, and nothing else changes. -/
theorem RenderOptions.render_reordered_shop :
    (TypeSystem.declarations Shop.files).Perm (TypeSystem.declarations Shop.otherFiles) ∧
    (TypeSystem.declarations Shop.files).Distinct ∧
    (∀ p ∈ TypeSystem.declarations Shop.files, p.2.fqn = p.1) ∧
    (∀ key ∈ (TypeSystem.declarations Shop.files).keys, ¬ResourceLike key) ∧
    ∃ ts ts' x x', TypeSystem.ofAssemblies Shop.files = .ok ts ∧
      TypeSystem.ofAssemblies Shop.otherFiles = .ok ts' ∧
      Shop.options.render ts Shop.rootedEnvelope = .ok x ∧
      Shop.options.render ts' Shop.rootedEnvelope = .ok x' ∧
      x.resources = ["shop.Desk", "shop.Chair"] ∧ x'.resources = ["shop.Chair", "shop.Desk"] ∧
      x.SameUpToOrder Shop.options.resourcePattern Shop.rootedEnvelope x' := by
  have distinct : (TypeSystem.declarations Shop.files).Distinct := by decide
  have keyed : ∀ p ∈ TypeSystem.declarations Shop.files, p.2.fqn = p.1 := by decide
  have apart : ∀ key ∈ (TypeSystem.declarations Shop.files).keys, ¬ResourceLike key := by decide
  obtain ⟨ts, ts', loaded, loaded', _, same⟩ := RenderOptions.render_reordered
    Shop.declarations_perm distinct keyed apart Shop.options Shop.rootedEnvelope
  have roots : Shop.renderedRoots Shop.files = some ["shop.Desk", "shop.Chair"] := by
    decide +kernel
  have roots' : Shop.renderedRoots Shop.otherFiles = some ["shop.Chair", "shop.Desk"] := by
    decide +kernel
  obtain ⟨x, rendered, names⟩ := Shop.exists_rendered_of_roots loaded roots
  obtain ⟨x', rendered', upToOrder⟩ := same x rendered
  obtain ⟨y, again, names'⟩ := Shop.exists_rendered_of_roots loaded' roots'
  rw [rendered'] at again
  cases again
  exact ⟨Shop.declarations_perm, distinct, keyed, apart, ts, ts', x, x', loaded, loaded',
    rendered, rendered', names, names', upToOrder⟩

end ManifestSchema
