import ManifestSchema.Proofs.RootEntries

/-!
# Roots in a document

A root appears in a document under its key, in an entry that nothing else replaces. Its class may
appear as well, when it is the type of a property, under its name. The two never meet, except where
the name of one class is the key of the entry of another one: then the entry is there.

Results:

1. `RenderOptions.generate_ok` and `RenderOptions.renderWith_ok`: the steps of a run, and what its
   document is made of;
2. `RenderOptions.generate_completed`: what a run with the default extensions generates;
3. `RenderOptions.render_keeps_roots`: the entries of the roots in a document, the references to
   them, and the definitions of their classes;
4. `RenderOptions.render_spare_undefined`: a root without a definition of its own.
-/

namespace ManifestSchema

/-! ## Runs -/

/-- Before the roots there are the definitions of the extensions and nothing else. -/
theorem Extension.owner?_defaults {key : String} {owner : Owner} :
    Registry.owner? ⟨defaultSlots⟩ key = some owner ↔
      key ∈ Dict.keys defaultSlots ∧ owner = .extension := by
  have all : ∀ p ∈ defaultSlots, p.2.owner = .extension := by decide
  rw [← Dict.contains_iff, Dict.contains, Registry.owner?]
  cases found : Dict.find? defaultSlots key with
  | none => simp
  | some slot =>
      have held : slot.owner = .extension := all _ (Dict.mem_of_find? found)
      simp [held, eq_comm]

namespace RenderOptions

variable {o : RenderOptions} {ts : TypeSystem} {g : Generated}

/-- The keys that types find held by others in a run: those of the default extensions and those of
the entries of roots. -/
def heldBy (roots : List Root) (key : String) : Bool :=
  decide (key ∈ Dict.keys Extension.defaultSlots) || decide (key ∈ roots.map Root.key)

/-- The steps of a run that has generated something. -/
theorem generate_ok {extensions : List Extension} (h : o.generate extensions ts = .ok g) :
    ∃ r d, Extension.extendAll extensions Registry.empty = .ok () r ∧
      o.selection.select ts .empty = .ok (g.roots, d) ∧
      (o.compiler ts).compileRoots g.roots ⟨r, d⟩ = .ok g.references g.compilation := by
  unfold generate at h
  split at h
  · cases h
  · next r extended =>
      split at h
      · cases h
      · next roots d selected =>
          split at h
          · cases h
          · next references c compiled =>
              cases h
              exact ⟨r, d, extended, selected, compiled⟩

/-- Roots are selected from the classes, in their order, with the types of their properties. -/
theorem select_ok {roots : List Root} {d d' : Diagnostics}
    (h : o.selection.select ts d = .ok (roots, d')) :
    roots = ts.classes.filterMap (o.selection.root? ts) := by
  unfold RootSelection.select at h
  split at h
  · cases h
  · rw [← (o.selection.among_eq ts ts.classes d).1, Except.ok.inj h]

theorem select_apart (keyed : ts.WellKeyed) (distinct : ts.types.Distinct) {roots : List Root}
    {d d' : Diagnostics} (h : o.selection.select ts d = .ok (roots, d')) :
    (roots.map fun root => root.definition.fqn).Nodup := by
  rw [select_ok h]
  exact (o.selection.roots_sublist keyed).nodup distinct

theorem keys_apart {roots : List Root}
    (apart : (roots.map fun root => root.definition.fqn).Nodup) : (roots.map Root.key).Nodup :=
  List.pairwise_map.2 ((List.pairwise_map.1 apart).imp fun other same =>
    other ((String.append_right_inj "resource:").1 same))

/-- A run with the default extensions makes all entries, and knows who holds which key. -/
theorem generate_completed (keyed : ts.WellKeyed) (distinct : ts.types.Distinct)
    (h : o.generate Extension.defaults ts = .ok g) :
    g.references = g.roots.map (fun root => reference root.key) ∧
      g.compilation.registry.taken = heldBy g.roots ∧
      (o.compiler ts).Completed g.roots g.compilation.registry := by
  obtain ⟨r, d, extended, selected, compiled⟩ := generate_ok h
  rw [Extension.extendAll_defaults] at extended
  cases extended
  have owners := Compiler.compileRoots_owner compiled
  have others : ∀ {key owner}, Registry.owner? ⟨Extension.defaultSlots⟩ key = some owner →
      owner = .extension := fun held => (Extension.owner?_defaults.1 held).2
  have start : (o.compiler ts).Completed [] ⟨Extension.defaultSlots⟩ := by
    refine ⟨by simp, by simp, ?_, ?_, ?_⟩ <;> intro key held <;> cases others held
  have unmet : ∀ root ∈ g.roots,
      Registry.owner? ⟨Extension.defaultSlots⟩ root.key ≠ some .resource :=
    fun root _ held => by cases others held
  obtain ⟨references, completed⟩ := Compiler.compileRoots_completed keyed start
    (keys_apart (select_apart keyed distinct selected)) unmet compiled
  refine ⟨references, ?_, completed⟩
  funext key
  rw [Bool.eq_iff_iff, Registry.taken_iff, owners.resources, owners.extensions,
    Extension.owner?_defaults, Extension.owner?_defaults, heldBy]
  simp [or_comm]

end RenderOptions

/-! ## Documents -/

/-- What a document defines: the keys of its envelope in their order, and behind them those of the
registry. What the registry holds is there, also where the envelope had something else, and all
other definitions of the envelope are kept. -/
structure Rendered.Defines (x : Rendered) (r : Registry) (envelope : Json)
    (definitions : Dict Json) : Prop where
  defined : x.document.get? "definitions" = some (.obj definitions)
  order : definitions.keys = (Envelope.definitionsIn envelope).keys ++
    r.slots.keys.filter fun key => key ∉ (Envelope.definitionsIn envelope).keys
  generated : ∀ key ∈ r.slots.keys, ∃ body, r.body? key = some body ∧
    definitions.find? key = some body
  kept : ∀ key value, (Envelope.definitionsIn envelope).find? key = some value →
    key ∉ r.slots.keys → definitions.find? key = some value

namespace Registry

variable {r : Registry} {key : String} {body : Json}

theorem mem_keys_of_body? (found : r.body? key = some body) : key ∈ r.slots.keys := by
  refine Classical.byContradiction fun missing => ?_
  rw [body?, entry?, Dict.find?_eq_none_iff.2 missing] at found
  cases found

theorem body?_of_find? {slot : Slot} (found : r.slots.find? key = some slot)
    (resolved : slot.entry = .resolved body) : r.body? key = some body := by
  rw [body?, entry?, found, Option.map_some, resolved]

end Registry

namespace Rendered.Defines

variable {x : Rendered} {r : Registry} {envelope : Json} {definitions : Dict Json}

theorem find?_of_body? (h : x.Defines r envelope definitions) {key : String} {body : Json}
    (held : r.body? key = some body) : definitions.find? key = some body := by
  obtain ⟨body', same, found⟩ := h.generated key (Registry.mem_keys_of_body? held)
  rw [found, ← same, held]

theorem mem_keys_iff (h : x.Defines r envelope definitions) (key : String) :
    key ∈ definitions.keys ↔
      key ∈ (Envelope.definitionsIn envelope).keys ∨ key ∈ r.slots.keys := by
  rw [h.order, List.mem_append, List.mem_filter]
  by_cases own : key ∈ (Envelope.definitionsIn envelope).keys <;> simp [own]

end Rendered.Defines

namespace RenderOptions

variable {o : RenderOptions} {ts : TypeSystem} {extensions : List Extension} {envelope : Json}
  {x : Rendered}

/-- What a rendered document is made of, whatever the extensions are. -/
theorem renderWith_ok (rendered : o.renderWith extensions ts envelope = .ok x) :
    ∃ g definitions, o.generate extensions ts = .ok g ∧
      (g.compilation.registry.slots.Distinct →
        x.Defines g.compilation.registry envelope definitions) ∧
      Envelope.resources? o.resourcePattern x.document =
        some (Envelope.resourcesIn o.resourcePattern envelope ++ g.references) ∧
      x.resources = g.roots.map fun root => root.definition.fqn := by
  obtain ⟨g, generated, finishing⟩ := bind_eq_ok_iff.1 rendered
  obtain ⟨bodies, finished, finishing⟩ := bind_eq_ok_iff.1 finishing
  obtain ⟨document, spliced, done⟩ := bind_eq_ok_iff.1 finishing
  cases done
  obtain ⟨defined, listed⟩ := Envelope.splice_places spliced
  refine ⟨g, (Envelope.definitionsIn envelope).insertAll bodies, generated, fun distinct => ?_,
    listed, rfl⟩
  have keys := Registry.keys_definitions finished
  have distinct : bodies.Distinct := by rwa [Dict.Distinct, keys]
  refine ⟨defined, ?_, ?_, ?_⟩
  · rw [Dict.keys_insertAll distinct, keys]
  · intro key member
    rw [← keys, ← Dict.contains_iff, Dict.contains, Registry.find?_definitions finished] at member
    obtain ⟨body, held⟩ := Option.isSome_iff_exists.1 member
    refine ⟨body, held, ?_⟩
    rw [Dict.find?_insertAll distinct, Registry.find?_definitions finished, held, Option.some_or]
  · intro key value found free
    rw [← keys] at free
    rw [Dict.find?_insertAll distinct, Dict.find?_eq_none_iff.2 free, Option.none_or, found]

end RenderOptions

/-! ## Roots -/

/-- A schema is the entry of a class: a closed object for resources whose type is its name, with
some schema of properties. -/
structure IsResourceEntry (fqn : String) (props entry : Json) : Prop where
  object : entry.get? "type" = some (.str "object")
  closed : entry.get? "additionalProperties" = some (.bool false)
  type : ((entry.get? "properties").bind (·.get? "Type")).bind (·.get? "enum") =
    some (.strings [fqn])
  properties : (entry.get? "properties").bind (·.get? "Properties") = some props

theorem isResourceEntry_describedBy (key fqn : String) (props : Json) :
    IsResourceEntry fqn props (describedBy key (Compiler.resourceEntry fqn props)) := by
  constructor <;> rfl

namespace Compiler

/-- A name is met in a run: it occurs in the properties of a root, or in those of a type that the
roots lead to. -/
inductive Meets (k : Compiler) (taken : String → Bool) (roots : List Root) (name : String) : Prop
  | root {root : Root} : root ∈ roots → name ∈ root.props.names → Meets k taken roots name
  | type {key : String} {d : Definition} : k.types.find? key = some d →
      ReachedFrom (k.types.leads taken) (k.rootedTypes taken roots) key →
      name ∈ k.types.propertyNames d → Meets k taken roots name

theorem objectSchema_classDef (k : Compiler) (taken : String → Bool) (c : ClassType) :
    k.objectSchema taken (.classDef c) =
      Fragment.object (k.propertySchemas taken (k.types.flatten (.classDef c)).properties)
        (requiredNames (k.types.flatten (.classDef c)).properties) c.summary := by
  have full : k.types.isMarker (.classDef c) = false := Bool.and_false _
  rw [objectSchema, full, if_neg Bool.false_ne_true]
  rfl

/-- The class of a root that is met as a type has a definition of its own, from its flattened
properties, unless its key is owned by others. -/
def KeepsSchemas (k : Compiler) (owned taken : String → Bool) (roots : List Root)
    (definitions : Dict Json) : Prop :=
  ∀ root ∈ roots, k.Meets taken roots root.definition.fqn → owned root.definition.fqn = false →
    definitions.find? root.definition.fqn = some (describedBy root.definition.fqn
      (Fragment.object
        (k.propertySchemas taken (k.types.flatten (.classDef root.definition)).properties)
        (requiredNames (k.types.flatten (.classDef root.definition)).properties)
        root.definition.summary))

theorem Meets.reached {k : Compiler} {taken : String → Bool} {roots : List Root} {name : String}
    (h : k.Meets taken roots name) (opens : k.types.opens taken name = true) :
    ReachedFrom (k.types.leads taken) (k.rootedTypes taken roots) name := by
  cases h with
  | root member occurs =>
      exact .start (List.mem_flatMap.2 ⟨_, member, List.mem_filter.2 ⟨occurs, opens⟩⟩)
  | type found reached occurs =>
      refine reached.step ?_
      rw [TypeSystem.leads_of_find found]
      exact List.mem_filter.2 ⟨occurs, opens⟩

end Compiler

/-- What a rendered document has of the roots of its run. -/
structure Rendered.KeepsRoots (x : Rendered) (o : RenderOptions) (ts : TypeSystem)
    (envelope : Json) (roots : List Root) (definitions : Dict Json) : Prop where
  /-- Roots are classes in the order of the manifests, each once. -/
  order : (roots.map Root.definition).Sublist ts.classes
  apart : (roots.map fun root => root.definition.fqn).Nodup
  resources : x.resources = roots.map fun root => root.definition.fqn
  /-- Behind the resources of the envelope stands a reference to the entry of each root. -/
  listed : Envelope.resources? o.resourcePattern x.document =
    some (Envelope.resourcesIn o.resourcePattern envelope ++
      roots.map fun root => reference (resourceKey root.definition.fqn))
  defined : x.document.get? "definitions" = some (.obj definitions)
  entries : ∀ root ∈ roots, root.definition.propsType? o.selection.propsIndex = some root.props ∧
    ∃ entry, definitions.find? (resourceKey root.definition.fqn) = some entry ∧
      IsResourceEntry root.definition.fqn
        ((o.compiler ts).fragment (RenderOptions.heldBy roots) root.props) entry
  schemas : (o.compiler ts).KeepsSchemas (RenderOptions.heldBy roots) (RenderOptions.heldBy roots)
    roots definitions

namespace RenderOptions

variable {o : RenderOptions} {ts : TypeSystem}

theorem root_of_select {roots : List Root} {d d' : Diagnostics}
    (selected : o.selection.select ts d = .ok (roots, d')) {root : Root} (member : root ∈ roots) :
    root.definition ∈ ts.classes ∧
      root.definition.propsType? o.selection.propsIndex = some root.props := by
  rw [select_ok selected] at member
  obtain ⟨c, declared, isRoot⟩ := List.mem_filterMap.1 member
  obtain rfl := RootSelection.definition_of_root? isRoot
  refine ⟨declared, ?_⟩
  unfold RootSelection.root? at isRoot
  split at isRoot
  · obtain ⟨props, found, isRoot⟩ := Option.bind_eq_some_iff.1 isRoot
    split at isRoot
    · cases isRoot
    · rw [found, ← congrArg Root.props (Option.some.inj isRoot)]
  · cases isRoot

theorem definitions_sublist {roots : List Root} {d d' : Diagnostics}
    (selected : o.selection.select ts d = .ok (roots, d')) :
    (roots.map Root.definition).Sublist ts.classes := by
  rw [select_ok selected]
  generalize ts.classes = classes
  induction classes with
  | nil => exact .slnil
  | cons c rest ih =>
      cases isRoot : o.selection.root? ts c with
      | none =>
          rw [List.filterMap_cons_none isRoot]
          exact ih.cons c
      | some root =>
          rw [List.filterMap_cons_some isRoot, List.map_cons,
            RootSelection.definition_of_root? isRoot]
          exact ih.cons_cons c

/-- The declaration of a class is found under its name. -/
theorem find?_of_mem_classes (keyed : ts.WellKeyed) (distinct : ts.types.Distinct) {c : ClassType}
    (member : c ∈ ts.classes) : ts.find? c.fqn = some (.classDef c) := by
  obtain ⟨⟨key, d⟩, declared, isClass⟩ := List.mem_filterMap.1 member
  cases d with
  | classDef c' =>
      cases isClass
      have name : c.fqn = key := keyed _ declared
      exact (Dict.find?_eq_some_iff distinct).2 (name ▸ declared)
  | interfaceDef _ | enumDef _ => cases isClass

/-- In a rendered document every root has an entry of its own, and its class a definition next to
it wherever it is met as a type. -/
theorem render_keeps_roots (keyed : ts.WellKeyed) (distinct : ts.types.Distinct) {envelope : Json}
    {x : Rendered} (rendered : o.render ts envelope = .ok x) :
    ∃ roots d definitions, o.selection.select ts .empty = .ok (roots, d) ∧
      x.KeepsRoots o ts envelope roots definitions := by
  obtain ⟨g, definitions, generated, defines, listed, resources⟩ := renderWith_ok rendered
  replace defines := defines (generate_ready generated).1.closed.distinct
  obtain ⟨_, d, _, selected, _⟩ := generate_ok generated
  obtain ⟨references, held, completed⟩ := generate_completed keyed distinct generated
  refine ⟨g.roots, d, _, selected, definitions_sublist selected,
    select_apart keyed distinct selected, resources, references ▸ listed, defines.defined, ?_, ?_⟩
  · intro root member
    have entry := defines.find?_of_body?
      (Registry.body?_of_find? (completed.entries root member) rfl)
    rw [held] at entry
    exact ⟨(root_of_select selected member).2, _, entry, isResourceEntry_describedBy _ _ _⟩
  · intro root member met free
    have found := find?_of_mem_classes keyed distinct (root_of_select selected member).1
    have opens : ts.opens (heldBy g.roots) root.definition.fqn = true :=
      TypeSystem.opens_iff.2 ⟨_, found, rfl, free⟩
    have reached := met.reached opens
    rw [← held] at reached
    have body := defines.find?_of_body?
      (Registry.body?_of_find? (completed.types _ (completed.owner_of_reached reached)) rfl)
    rw [body, held, Compiler.definitionBody_of_find found, Compiler.objectSchema_classDef]

end RenderOptions

/-! ## Examples -/

theorem exists_of_isOk {ε α : Type} {outcome : Except ε α} (succeeds : outcome.isOk = true) :
    ∃ a, outcome = .ok a := by
  cases outcome with
  | error e => cases succeeds
  | ok a => exact ⟨a, rfl⟩

namespace Shop

def seatProps : Definition :=
  .interfaceDef ⟨"shop.SeatProps", [], [⟨"nextTo", .named "shop.Seat", true, false, none⟩], none⟩

/-- A seat may stand next to another one. -/
def seat : ClassType :=
  ⟨"shop.Seat", some "shop.Part", [], some [⟨"props", .named "shop.SeatProps"⟩],
    [⟨"legs", .primitive .number, false, false, none⟩], none⟩

/-- A bench has the properties of seats. -/
def bench : ClassType :=
  ⟨"shop.Bench", some "shop.Part", [], some [⟨"props", .named "shop.SeatProps"⟩], [], none⟩

def part : Definition := .classDef ⟨"shop.Part", none, [], none, [], none⟩

def seats : TypeSystem :=
  ⟨([part, .classDef seat, .classDef bench, seatProps] : List Definition).map fun d =>
    (d.fqn, d), []⟩

def seatRoots : List Root := [⟨seat, .named "shop.SeatProps"⟩, ⟨bench, .named "shop.SeatProps"⟩]

theorem select_seats : ∃ d, lampOptions.selection.select seats .empty = .ok (seatRoots, d) :=
  ⟨_, rfl⟩

end Shop

/-- In the example the seat is reached from its own properties, which the bench shares. -/
theorem RenderOptions.render_keeps_seats : Shop.seats.WellKeyed ∧ Shop.seats.types.Distinct ∧
    ∃ x definitions, Shop.lampOptions.render Shop.seats Shop.rootedEnvelope = .ok x ∧
      x.KeepsRoots Shop.lampOptions Shop.seats Shop.rootedEnvelope Shop.seatRoots definitions ∧
      definitions.find? "shop.Seat" = some (describedBy "shop.Seat"
        (Fragment.object [("legs", Fragment.anyOf [Fragment.ofType "number",
          reference "Expression"])] ["legs"] none)) := by
  have keyed : Shop.seats.WellKeyed := by unfold TypeSystem.WellKeyed; decide
  have distinct : Shop.seats.types.Distinct := by decide
  obtain ⟨x, rendered⟩ : ∃ x, Shop.lampOptions.render Shop.seats Shop.rootedEnvelope = .ok x :=
    exists_of_isOk (by decide +kernel)
  obtain ⟨roots, d, definitions, selected, kept⟩ :=
    RenderOptions.render_keeps_roots keyed distinct rendered
  obtain ⟨d', selected'⟩ := Shop.select_seats
  cases selected'.symm.trans selected
  refine ⟨keyed, distinct, x, definitions, rendered, kept, ?_⟩
  have reached : ReachedFrom (Shop.seats.leads (RenderOptions.heldBy Shop.seatRoots))
      ((Shop.lampOptions.compiler Shop.seats).rootedTypes
        (RenderOptions.heldBy Shop.seatRoots) Shop.seatRoots) "shop.SeatProps" :=
    .start (by decide +kernel)
  have schema := kept.schemas _ List.mem_cons_self (.type rfl reached (by decide +kernel))
    (by decide +kernel)
  exact schema.trans (by decide +kernel)

namespace Shop

def lamp : ClassType :=
  ⟨"shop.Lamp", some "shop.Part", [], some [⟨"props", .named "shop.LampProps"⟩], [], none⟩

/-- Another root, whose name is the key of the entry of lamps. -/
def spare : ClassType :=
  ⟨"resource:shop.Lamp", some "shop.Part", [], some [⟨"props", .named "shop.LampProps"⟩], [], none⟩

def lampProps : Definition :=
  .interfaceDef ⟨"shop.LampProps", [],
    [⟨"spare", .named "resource:shop.Lamp", true, false, none⟩], none⟩

/-- A lamp comes with a spare one. -/
def lamps : TypeSystem :=
  ⟨([part, .classDef lamp, .classDef spare, lampProps] : List Definition).map fun d =>
    (d.fqn, d), []⟩

def lampRoots : List Root := [⟨lamp, .named "shop.LampProps"⟩, ⟨spare, .named "shop.LampProps"⟩]

theorem select_lamps : ∃ d, lampOptions.selection.select lamps .empty = .ok (lampRoots, d) :=
  ⟨_, rfl⟩

/-- What a rendered document defines under a key. -/
def defined? (outcome : Except EngineError Rendered) (key : String) : Option Json :=
  match outcome with
  | .ok x => (x.document.get? "definitions").bind (·.get? key)
  | .error _ => none

end Shop

/-- No extension has a definition under the name of the spare lamp, which is a root and the type of
a property, and yet it is not defined as a type: the entry of lamps is there. -/
theorem RenderOptions.render_spare_undefined :
    Shop.lamps.WellKeyed ∧ Shop.lamps.types.Distinct ∧
    ∃ x roots d definitions, Shop.lampOptions.render Shop.lamps Shop.rootedEnvelope = .ok x ∧
      Shop.lampOptions.selection.select Shop.lamps .empty = .ok (roots, d) ∧
      x.document.get? "definitions" = some (.obj definitions) ∧
      ¬(Shop.lampOptions.compiler Shop.lamps).KeepsSchemas
        (fun key => decide (key ∈ Dict.keys Extension.defaultSlots))
        (RenderOptions.heldBy roots) roots definitions := by
  have entry : Shop.defined? (Shop.lampOptions.render Shop.lamps Shop.rootedEnvelope)
      "resource:shop.Lamp" = some (describedBy "resource:shop.Lamp"
        (Compiler.resourceEntry "shop.Lamp" (reference "shop.LampProps"))) := by
    decide +kernel
  obtain ⟨x, rendered⟩ : ∃ x, Shop.lampOptions.render Shop.lamps Shop.rootedEnvelope = .ok x :=
    exists_of_isOk (by decide +kernel)
  obtain ⟨g, definitions, generated, defines, _⟩ := RenderOptions.renderWith_ok rendered
  have defined := (defines (RenderOptions.generate_ready generated).1.closed.distinct).defined
  simp only [rendered, Shop.defined?, defined] at entry
  obtain ⟨d, selected⟩ := Shop.select_lamps
  refine ⟨by unfold TypeSystem.WellKeyed; decide, by decide, x, Shop.lampRoots, d, definitions,
    rendered, selected, defined, fun keeps => ?_⟩
  have reached : ReachedFrom (Shop.lamps.leads (RenderOptions.heldBy Shop.lampRoots))
      ((Shop.lampOptions.compiler Shop.lamps).rootedTypes
        (RenderOptions.heldBy Shop.lampRoots) Shop.lampRoots) "shop.LampProps" :=
    .start (by decide +kernel)
  have schema := keeps ⟨Shop.spare, .named "shop.LampProps"⟩ (by simp [Shop.lampRoots])
    (.type rfl reached (by decide +kernel)) (by decide +kernel)
  have same := Option.some.inj (schema.symm.trans entry)
  revert same
  decide +kernel

end ManifestSchema
