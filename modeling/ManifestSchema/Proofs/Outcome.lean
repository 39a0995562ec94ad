import ManifestSchema.Proofs.Roots

/-!
# What ends a run

A run with the default extensions is refused for one of three things, which are looked at in this
order: the base class is not declared as a class, a type has taken the key of a root, or the envelope
has the wrong shape. Nothing that is wrong with a single type is among them, and no definition is
left without a body.

Results:

1. `Extension.steady_of_defaults`: the registry from which the entries of roots start;
2. `RenderOptions.generate_outcome`: what there is before the envelope is looked at;
3. `RenderOptions.render_outcome`: exactly when a run succeeds, and its error otherwise.
-/

namespace ManifestSchema

/-! ## Keys of roots -/

/-- A key looks like that of the entry of a root. -/
def ResourceLike (key : String) : Prop := "resource:".toList <+: key.toList

instance (key : String) : Decidable (ResourceLike key) :=
  inferInstanceAs (Decidable ("resource:".toList <+: key.toList))

theorem resourceLike_resourceKey (fqn : String) : ResourceLike (resourceKey fqn) :=
  ⟨fqn.toList, (String.toList_append ..).symm⟩

namespace Extension

theorem resourceKey_not_mem_defaults (fqn : String) : resourceKey fqn ∉ defaultSlots.keys := by
  have apart : ∀ key ∈ defaultSlots.keys, ¬ResourceLike key := by decide
  exact fun member => apart _ member (resourceLike_resourceKey fqn)

theorem noTypes_defaults : Registry.NoTypes ⟨defaultSlots⟩ := by
  unfold Registry.NoTypes
  decide

theorem steady_of_defaults (o : RenderOptions) (ts : TypeSystem) :
    (o.compiler ts).Steady ⟨defaultSlots⟩ where
  offers := (ready_of_defaults o ts).alternative
  finished := by decide
  extensions fqn := by
    simp [Registry.owner?, Dict.find?_eq_none_iff.2 (resourceKey_not_mem_defaults fqn)]
  declared key held := by
    obtain ⟨slot, found, owner⟩ := Option.map_eq_some_iff.1 held
    exact absurd owner (noTypes_defaults _ (Dict.mem_of_find? found))

end Extension

namespace RenderOptions

variable {o : RenderOptions} {ts : TypeSystem}

/-- The base class is declared as a class. -/
def HasBase (o : RenderOptions) (ts : TypeSystem) : Prop :=
  ∃ c, ts.find? o.selection.baseClass = some (.classDef c)

/-- A type holds the key of a selected root when the root is reached. -/
def Clashes (o : RenderOptions) (ts : TypeSystem) (root : Root) : Prop :=
  ∃ registry roots d, Extension.extendAll Extension.defaults Registry.empty = .ok () registry ∧
    o.selection.select ts .empty = .ok (roots, d) ∧
    (o.compiler ts).Clashes roots ⟨registry, d⟩ root

/-! ## Before the envelope -/

theorem select_of_no_base (noBase : ¬o.HasBase ts) (d : Diagnostics) :
    o.selection.select ts d = .error (.unknownBaseClass o.selection.baseClass) := by
  unfold RootSelection.select TypeSystem.findClass?
  unfold HasBase at noBase
  cases found : ts.find? o.selection.baseClass with
  | none => rfl
  | some definition =>
      cases definition with
      | classDef c => exact absurd ⟨c, found⟩ noBase
      | interfaceDef _ | enumDef _ => rfl

theorem select_of_base (base : o.HasBase ts) (d : Diagnostics) :
    o.selection.select ts d = .ok (o.selection.among ts ts.classes d) := by
  obtain ⟨c, found⟩ := base
  unfold RootSelection.select TypeSystem.findClass?
  rw [found]
  rfl

theorem generate_of_compileRoots {roots : List Root} {d : Diagnostics} {references : List Json}
    {c : Compilation} (selected : o.selection.select ts .empty = .ok (roots, d))
    (compiled : (o.compiler ts).compileRoots roots ⟨⟨Extension.defaultSlots⟩, d⟩ =
      .ok references c) : o.generate Extension.defaults ts = .ok ⟨roots, references, c⟩ := by
  rw [generate, Extension.extendAll_defaults]
  simp only [selected, compiled]

theorem generate_of_no_base (noBase : ¬o.HasBase ts) : o.generate Extension.defaults ts =
    .error (.manifest (.unknownBaseClass o.selection.baseClass)) := by
  rw [generate, Extension.extendAll_defaults]
  simp only [select_of_no_base noBase]

theorem generate_of_clash {root : Root} (clashes : o.Clashes ts root) :
    o.generate Extension.defaults ts = .error (.keyClash root.key .type .resource) := by
  obtain ⟨registry, roots, d, extended, selected, clashes⟩ := clashes
  rw [Extension.extendAll_defaults] at extended
  cases extended
  obtain ⟨c, stopped⟩ := clashes.error
  rw [generate, Extension.extendAll_defaults]
  simp only [selected, stopped]

/-- Without a clash everything is generated: each root is referred to, and no definition is left
without a body. -/
theorem generate_of_free (base : o.HasBase ts) (free : ∀ root, ¬o.Clashes ts root) :
    ∃ g bodies, o.generate Extension.defaults ts = .ok g ∧
      g.compilation.registry.definitions = .ok bodies ∧
      g.references = g.roots.map fun root => reference root.key := by
  have selected := select_of_base base .empty
  generalize o.selection.among ts ts.classes .empty = selection at selected
  obtain ⟨roots, d⟩ := selection
  have start : (o.compiler ts).Steady (Compilation.mk ⟨Extension.defaultSlots⟩ d).registry :=
    Extension.steady_of_defaults o ts
  rcases start.compileRoots roots with ⟨root, clashes⟩ | ⟨c, compiled, steady⟩
  · exact absurd ⟨_, _, _, Extension.extendAll_defaults, selected, clashes⟩ (free root)
  · obtain ⟨bodies, finished⟩ := Registry.exists_definitions steady.finished
    exact ⟨_, bodies, generate_of_compileRoots selected compiled, finished, rfl⟩

/-- Types whose names do not look like keys of roots clash with none. -/
theorem not_clashes (apart : ∀ key ∈ ts.types.keys, ¬ResourceLike key) (root : Root) :
    ¬o.Clashes ts root := by
  rintro ⟨registry, roots, d, extended, _, before, after, answers, c', _, compiled, held⟩
  rw [Extension.extendAll_defaults] at extended
  cases extended
  have start : (o.compiler ts).Steady (Compilation.mk ⟨Extension.defaultSlots⟩ d).registry :=
    Extension.steady_of_defaults o ts
  have declared : root.key ∈ ts.types.keys := (start.of_compileRoots compiled).declared _ held
  exact apart _ declared (resourceLike_resourceKey _)

/-! ## The outcome -/

/-- What ends a run: the first of three things that is wrong. -/
inductive Fatal (o : RenderOptions) (ts : TypeSystem) (envelope : Json) : EngineError → Prop
  | base : ¬o.HasBase ts →
      Fatal o ts envelope (.manifest (.unknownBaseClass o.selection.baseClass))
  | clash {root : Root} : o.HasBase ts → o.Clashes ts root →
      Fatal o ts envelope (.keyClash (resourceKey root.definition.fqn) .type .resource)
  | envelope {reason : String} : o.HasBase ts → (∀ root, ¬o.Clashes ts root) →
      ¬Envelope.Fits o.resourcePattern envelope →
      Envelope.fault? o.resourcePattern envelope = some reason →
      Fatal o ts envelope (.envelope reason)

theorem render_of_error {e : EngineError} (refused : o.generate Extension.defaults ts = .error e)
    (envelope : Json) : o.render ts envelope = .error e := by
  rw [render, renderWith, refused]
  rfl

theorem render_of_generated {g : Generated} {bodies : Dict Json}
    (generated : o.generate Extension.defaults ts = .ok g)
    (finished : g.compilation.registry.definitions = .ok bodies) (envelope : Json) :
    o.render ts envelope = (do
      let document ← Envelope.splice envelope bodies g.references o.resourcePattern
      return ⟨document, g.roots.map fun r => r.definition.fqn, g.compilation.diagnostics⟩) := by
  rw [render, renderWith, generated]
  simp only [bind, Except.bind, finished]

/-- Where nothing is wrong a run succeeds. -/
theorem exists_render {envelope : Json} (base : o.HasBase ts) (free : ∀ root, ¬o.Clashes ts root)
    (fits : Envelope.Fits o.resourcePattern envelope) :
    ∃ rendered, o.render ts envelope = .ok rendered := by
  obtain ⟨g, bodies, generated, finished, _⟩ := generate_of_free base free
  obtain ⟨document, spliced⟩ :=
    Envelope.exists_splice (Envelope.fault?_eq_none_iff.2 fits) bodies g.references
  rw [render_of_generated generated finished, spliced]
  exact ⟨_, rfl⟩

theorem Fatal.render {envelope : Json} {e : EngineError} (fatal : o.Fatal ts envelope e) :
    o.render ts envelope = .error e := by
  cases fatal with
  | base noBase => exact render_of_error (generate_of_no_base noBase) envelope
  | clash _ clashes => exact render_of_error (generate_of_clash clashes) envelope
  | envelope base free _ fault =>
      obtain ⟨g, bodies, generated, finished, _⟩ := generate_of_free base free
      rw [render_of_generated generated finished, Envelope.splice_error_iff.2 ⟨_, fault, rfl⟩]
      rfl

/-- Of the three conditions either all hold, or one is the first that fails. -/
theorem fits_or_fatal (o : RenderOptions) (ts : TypeSystem) (envelope : Json) :
    (o.HasBase ts ∧ (∀ root, ¬o.Clashes ts root) ∧ Envelope.Fits o.resourcePattern envelope) ∨
      ∃ e, o.Fatal ts envelope e := by
  by_cases base : o.HasBase ts
  · by_cases free : ∀ root, ¬o.Clashes ts root
    · cases fault : Envelope.fault? o.resourcePattern envelope with
      | none => exact .inl ⟨base, free, Envelope.fault?_eq_none_iff.1 fault⟩
      | some reason =>
          refine .inr ⟨_, .envelope base free (fun fits => ?_) fault⟩
          rw [Envelope.fault?_eq_none_iff.2 fits] at fault
          cases fault
    · obtain ⟨root, clashes⟩ := Classical.not_forall_not.1 free
      exact .inr ⟨_, .clash base clashes⟩
  · exact .inr ⟨_, .base base⟩

theorem fatal_of_render {envelope : Json} {e : EngineError}
    (refused : o.render ts envelope = .error e) : o.Fatal ts envelope e := by
  rcases o.fits_or_fatal ts envelope with ⟨base, free, fits⟩ | ⟨e', fatal⟩
  · obtain ⟨rendered, h⟩ := exists_render base free fits
    rw [h] at refused
    cases refused
  · have same := fatal.render
    rw [refused] at same
    cases same
    exact fatal

/-- A run succeeds when the base class is declared as a class, no type holds the key of a root that
is reached, and the envelope has the right shape. Otherwise the error is that of the first of these
three that fails; and the second one never fails when no type has a name like the key of a root. -/
theorem render_outcome (o : RenderOptions) (ts : TypeSystem) (envelope : Json) :
    ((∃ rendered, o.render ts envelope = .ok rendered) ↔
      o.HasBase ts ∧ (∀ root, ¬o.Clashes ts root) ∧ Envelope.Fits o.resourcePattern envelope) ∧
    (∀ e, o.render ts envelope = .error e ↔ o.Fatal ts envelope e) ∧
    ((∀ key ∈ ts.types.keys, ¬ResourceLike key) → ∀ root, ¬o.Clashes ts root) := by
  refine ⟨⟨?_, fun ⟨base, free, fits⟩ => exists_render base free fits⟩,
    fun e => ⟨fatal_of_render, Fatal.render⟩, not_clashes⟩
  rintro ⟨rendered, h⟩
  refine (o.fits_or_fatal ts envelope).resolve_right fun ⟨e, fatal⟩ => ?_
  rw [fatal.render] at h
  cases h

end RenderOptions

/-! ## An example -/

namespace Shop

/-- A desk comes with a lamp, and a class has the name of the key of lamps. -/
def lampTypes : TypeSystem :=
  ⟨([.classDef ⟨"shop.Part", none, [], none, [], none⟩,
      .classDef ⟨"shop.Desk", some "shop.Part", [], some [⟨"props", .named "shop.DeskProps"⟩], [],
        none⟩,
      .interfaceDef ⟨"shop.DeskProps", [],
        [⟨"lamp", .named "resource:shop.Lamp", false, false, none⟩], none⟩,
      .classDef ⟨"resource:shop.Lamp", none, [], none, [], none⟩,
      .classDef ⟨"shop.Lamp", some "shop.Part", [], some [⟨"props", .named "shop.LampProps"⟩], [],
        none⟩] : List Definition).map fun d => (d.fqn, d), []⟩

def lampOptions : RenderOptions := ⟨⟨"shop.Part", 0, []⟩, Envelope.defaultPattern, true⟩

end Shop

/-- The desk has brought the class into the registry when the lamp is reached. -/
example : (match Shop.lampOptions.render Shop.lampTypes Shop.rootedEnvelope with
    | .ok _ => ""
    | .error e => e.message) =
    "definition key resource:shop.Lamp belongs to the type definitions, not the resource definitions"
    := by decide +kernel

end ManifestSchema
