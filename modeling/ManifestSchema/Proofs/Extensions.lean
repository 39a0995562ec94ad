import ManifestSchema.Proofs.Compile.Alternative
import ManifestSchema.Proofs.RootsInDocument

/-!
# Runs with other extensions

A run refers to definitions of extensions at two places: next to every property, if it offers the
alternative, and in the entries of roots, to the four conventions. Whether the alternative is there
is looked at each time, and a run without it ends. The conventions are not looked at: without an
extension that brings them, and with no definition of that name in the envelope or among the types,
the references to them lead nowhere.

Results:

1. `Extension.distinct_extendAll`: extensions register each key once;
2. `Compiler.Answered.compileRoot` and `Compiler.Answered.compileRoots`: the entries of roots refer
   to keys of the registry, apart from the conventions;
3. `RenderOptions.renderWith_answers`: what the references in a document lead to, whatever the
   extensions are;
4. `RenderOptions.renderWith_dangling`: a document with a reference that leads nowhere.
-/

namespace ManifestSchema

theorem Work.discard_ok_iff {σ α : Type} {x : Work σ α} {s s' : σ} :
    (discard x : Work σ PUnit) s = .ok () s' ↔ ∃ a, x s = .ok a s' := by
  simp only [discard, Functor.mapConst, EStateM.map, Function.comp]
  cases x s <;> simp

/-! ## Registered keys -/

namespace Dict

theorem Distinct.reserve {d : Dict Slot} {key : String} (distinct : d.Distinct)
    (missing : d.find? key = none) (slot : Slot) : Distinct (d ++ [(key, slot)]) := by
  rw [← insert_of_missing (find?_eq_none_iff.1 missing)]
  exact distinct.insert key slot

theorem Distinct.adjust {d : Dict Slot} (distinct : d.Distinct) (key : String) (f : Slot → Slot) :
    (Dict.adjust d key f).Distinct := by
  rw [Distinct, keys_adjust]
  exact distinct

end Dict

namespace Extension

theorem distinct_register {definitions : List CustomDefinition} {r r' : Registry}
    (distinct : r.slots.Distinct) (done : register definitions r = .ok () r') :
    r'.slots.Distinct := by
  induction definitions generalizing r with
  | nil =>
      obtain ⟨_, rfl⟩ := Work.pure_ok_iff.1 done
      exact distinct
  | cons d rest ih =>
      unfold register at done
      cases body : d.body with
      | some schema =>
          rw [body] at done
          obtain ⟨_, r1, first, done⟩ := Work.bind_ok_iff.1 done
          obtain ⟨answer, first⟩ := Work.discard_ok_iff.1 first
          refine ih ?_ done
          obtain ⟨_, ⟨_, _, _, rfl⟩ | ⟨missing, _, r2, produced, resolved⟩⟩ :=
            Registry.define_ok_iff.1 first
          · exact distinct
          · obtain ⟨_, rfl⟩ := Work.pure_ok_iff.1 produced
            obtain ⟨_, _, _, rfl⟩ := Registry.resolve_ok_iff.1 resolved
            exact (distinct.reserve missing _).adjust _ _
      | none =>
          rw [body] at done
          obtain ⟨_, r1, first, done⟩ := Work.bind_ok_iff.1 done
          obtain ⟨new, first⟩ := Work.discard_ok_iff.1 first
          refine ih ?_ done
          obtain ⟨_, _, _, _, rfl⟩ | ⟨missing, _, rfl⟩ := Registry.reserve_ok_iff.1 first
          · exact distinct
          · exact distinct.reserve missing _

/-- Extensions register each key once. -/
theorem distinct_extendAll {extensions : List Extension} {r r' : Registry}
    (distinct : r.slots.Distinct) (done : extendAll extensions r = .ok () r') :
    r'.slots.Distinct := by
  induction extensions generalizing r with
  | nil =>
      obtain ⟨_, rfl⟩ := Work.pure_ok_iff.1 done
      exact distinct
  | cons e rest ih =>
      obtain ⟨_, r1, first, done⟩ := Work.bind_ok_iff.1 done
      exact ih (distinct_register distinct first) done

end Extension

/-! ## Entries of roots -/

namespace Compiler

variable {k : Compiler} {c c' : Compilation} {root : Root} {roots : List Root}
  {added : List String} {start r : Registry}

/-- Without the alternative, the types behind the entry of a root have no properties. -/
theorem Enters.bare (h : k.Enters root c c' added)
    (free : c.registry.slots.find? root.key = none) {answer : Json}
    (done : k.compileRoot root c = .ok answer c') (without : ¬k.Offers c'.registry)
    {name : String} (member : name ∈ added) : k.Bare name := by
  obtain ⟨_, ⟨_, found, _⟩ | ⟨_, body, c1, produced, resolved⟩⟩ :=
    Registry.define_ok_iff (s := announced root c).1 done
  · exact absurd (free.symm.trans found) (Option.some_ne_none _).symm
  · obtain ⟨schema, c2, compiled, produced⟩ := Work.bind_ok_iff.1 produced
    obtain ⟨_, rfl⟩ := Work.pure_ok_iff.1 produced
    have checked := compile_checks _ _ _ _ _ compiled
    have same := keys_resolve resolved
    have reserved : Dict.keys (c.registry.slots ++ [(root.key, Slot.mk .resource .pending)]) =
        c.registry.slots.keys ++ [root.key] := Dict.keys_append _ _
    have before : ¬k.Offers c2.registry := fun offers =>
      without (offers.mono fun _ known => same ▸ known)
    refine checked.bare before name ?_ fun old => ?_
    · rw [← same]
      exact h.mem_keys member
    · exact h.fresh.2 name member (reserved ▸ old)

theorem Enters.distinct (h : k.Enters root c c' added)
    (free : c.registry.slots.find? root.key = none) (before : c.registry.slots.Distinct) :
    c'.registry.slots.Distinct := by
  obtain ⟨nodup, fresh⟩ := h.fresh
  have reserved : (c.registry.slots.keys ++ [root.key]).Nodup := by
    have := before.reserve free ⟨.resource, .pending⟩
    rwa [Dict.Distinct, Dict.keys_append] at this
  rw [Dict.Distinct, h.keys, List.append_cons]
  exact List.nodup_append.2 ⟨reserved, nodup, fun a old b new same => fresh b new (same ▸ old)⟩

/-- What there is after the entries of some roots: the new bodies refer to keys, apart from the
conventions in the entries, and every entry refers to these. -/
structure Answered (start : Registry) (roots : List Root) (r : Registry) : Prop where
  distinct : r.slots.Distinct
  held : ∀ key, r.owner? key = some .resource → key ∈ start.slots.keys ∨ key ∈ roots.map Root.key
  bodies : ∀ key body, r.body? key = some body → key ∉ start.slots.keys →
    ∀ text ∈ body.pointers, ∃ name, text = Pointer.text name ∧
      (name ∈ r.slots.keys ∨ key ∈ roots.map Root.key ∧ name ∈ Conventions.keys)
  entries : ∀ root ∈ roots, root.key ∉ start.slots.keys → ∃ body, r.body? root.key = some body ∧
    Conventions.keys.map Pointer.text ⊆ body.pointers

theorem mem_keys_of_before {key : String} (member : key ∈ roots.map Root.key) (root : Root) :
    key ∈ (roots ++ [root]).map Root.key := by
  rw [List.map_append]
  exact List.mem_append_left _ member

theorem Answered.again (h : Answered start roots r) (held : r.owner? root.key = some .resource) :
    Answered start (roots ++ [root]) r where
  distinct := h.distinct
  held key owned := (h.held key owned).imp_right (mem_keys_of_before · root)
  bodies key body found new text member := by
    obtain ⟨name, rfl, known⟩ := h.bodies key body found new text member
    exact ⟨name, rfl, known.imp_right fun ⟨isRoot, shared⟩ =>
      ⟨mem_keys_of_before isRoot root, shared⟩⟩
  entries other member new := by
    rcases List.mem_append.1 member with before | last
    · exact h.entries other before new
    · obtain rfl := List.mem_singleton.1 last
      -- the root shares the entry of another one
      obtain ⟨first, isRoot, same⟩ := List.mem_map.1 ((h.held _ held).resolve_left new)
      rw [← same] at new ⊢
      exact h.entries first isRoot new

theorem Enters.body?_before (h : k.Enters root c c' added) {key : String}
    (member : key ∈ c.registry.slots.keys) : c'.registry.body? key = c.registry.body? key := by
  obtain ⟨⟨slots⟩, _⟩ := c'
  obtain rfl := h.slots
  exact Registry.body?_append_of_mem member

/-- The bodies that come with the entry of a root. -/
theorem Enters.body?_after (h : k.Enters root c c' added) {key : String}
    (new : key ∉ c.registry.slots.keys) : c'.registry.body? key =
      if root.key = key then some (describedBy root.key
        (resourceEntry root.definition.fqn (k.fragment c'.registry.taken root.props)))
      else if key ∈ added then some (k.definitionBody c'.registry.taken key) else none := by
  have taken := h.taken_eq
  obtain ⟨⟨slots⟩, _⟩ := c'
  obtain rfl := h.slots
  rw [Registry.body?_append_of_not_mem new, taken, Registry.body?, Registry.entry?, rootSlot,
    Dict.find?_cons, find?_map_typeSlot]
  by_cases same : root.key = key
  · simp [same]
  · by_cases member : key ∈ added <;> simp [same, member, typeSlot]

/-- What comes with the entry of a root refers to keys, and the entry itself to the conventions: the
alternative is there, or there is nothing that would offer it. -/
theorem Enters.refers (h : k.Enters root c c' added)
    (bare : ¬k.Offers c'.registry → ∀ name ∈ added, k.Bare name) {key : String} {body : Json}
    (new : key ∉ c.registry.slots.keys) (found : c'.registry.body? key = some body) :
    ∀ text ∈ body.pointers, ∃ name, text = Pointer.text name ∧
      (name ∈ c'.registry.slots.keys ∨ key = root.key ∧ name ∈ Conventions.keys) := by
  intro text member
  rw [h.body?_after new] at found
  split at found
  · next same =>
      cases found
      rw [Json.pointers_describedBy, pointers_resourceEntry, pointers_fragment] at member
      rcases List.mem_append.1 member with named | shared
      · obtain ⟨name, met, rfl⟩ := List.mem_map.1 named
        exact ⟨name, rfl, .inl (h.visits.todo_subset met)⟩
      · obtain ⟨name, isShared, rfl⟩ := List.mem_map.1 shared
        exact ⟨name, rfl, .inr ⟨same.symm, isShared⟩⟩
  · split at found
    · next isAdded =>
        cases found
        by_cases offers : k.Offers c'.registry
        · obtain ⟨name, led | isAlternative, rfl⟩ := pointers_definitionBody member
          · exact ⟨name, rfl, .inl
              (h.visits.closed key (h.mem_keys isAdded) (h.fresh.2 key isAdded) led)⟩
          · exact ⟨name, rfl, .inl (offers name isAlternative)⟩
        · rw [pointers_of_bare (bare offers key isAdded)] at member
          cases member
    · cases found

theorem Answered.enters (h : Answered start roots c.registry)
    (free : c.registry.slots.find? root.key = none) (enters : k.Enters root c c' added)
    (bare : ¬k.Offers c'.registry → ∀ name ∈ added, k.Bare name) :
    Answered start (roots ++ [root]) c'.registry := by
  have isRoot : root.key ∈ (roots ++ [root]).map Root.key := by simp
  constructor
  case distinct => exact enters.distinct free h.distinct
  case held =>
    intro key owned
    rcases enters.held owned with old | ⟨rfl, _⟩ | ⟨_, other⟩
    · exact (h.held key old).imp_right (mem_keys_of_before · root)
    · exact .inr isRoot
    · cases other
  case bodies =>
    intro key body found new text member
    by_cases old : key ∈ c.registry.slots.keys
    · rw [enters.body?_before old] at found
      obtain ⟨name, rfl, known⟩ := h.bodies key body found new text member
      exact ⟨name, rfl, known.imp (fun known => enters.staysIn.subset known)
        fun ⟨isRoot, shared⟩ => ⟨mem_keys_of_before isRoot root, shared⟩⟩
    · obtain ⟨name, rfl, known⟩ := enters.refers bare old found text member
      exact ⟨name, rfl, known.imp_right fun ⟨same, shared⟩ => ⟨same ▸ isRoot, shared⟩⟩
  case entries =>
    intro other member new
    rcases List.mem_append.1 member with old | last
    · obtain ⟨body, found, refers⟩ := h.entries other old new
      exact ⟨body, (enters.body?_before (Registry.mem_keys_of_body? found)).trans found, refers⟩
    · obtain rfl := List.mem_singleton.1 last
      refine ⟨_, (enters.body?_after (Dict.find?_eq_none_iff.1 free)).trans (if_pos rfl), ?_⟩
      rw [Json.pointers_describedBy, pointers_resourceEntry]
      exact List.subset_append_right _ _

theorem Answered.compileRoot (h : Answered start roots c.registry) {answer : Json}
    (done : k.compileRoot root c = .ok answer c') :
    Answered start (roots ++ [root]) c'.registry := by
  obtain ⟨_, ⟨held, rfl⟩ | ⟨free, added, enters⟩⟩ := compileRoot_cases done
  · exact h.again held
  · exact h.enters free enters fun without _ member => enters.bare free done without member

/-- The entries of all roots refer to keys and to the conventions. -/
theorem Answered.compileRoots {more : List Root} (h : Answered start roots c.registry)
    {answers : List Json} (done : k.compileRoots more c = .ok answers c') :
    Answered start (roots ++ more) c'.registry := by
  induction more generalizing roots c answers with
  | nil =>
      obtain ⟨_, rfl⟩ := Work.pure_ok_iff.1 done
      rwa [List.append_nil]
  | cons root rest ih =>
      obtain ⟨first, c1, h1, done⟩ := Work.bind_ok_iff.1 done
      obtain ⟨others, c2, h2, done⟩ := Work.bind_ok_iff.1 done
      obtain ⟨_, rfl⟩ := Work.pure_ok_iff.1 done
      rw [List.append_cons]
      exact ih (h.compileRoot h1) h2

end Compiler

/-! ## Documents -/

namespace RenderOptions

variable {o : RenderOptions} {ts : TypeSystem} {g : Generated} {extensions : List Extension}

/-- What a run generates with some extensions, and what they have registered before it. -/
theorem generate_answered (generated : o.generate extensions ts = .ok g) :
    ∃ start, Extension.extendAll extensions Registry.empty = .ok () start ∧
      Compiler.Answered start g.roots g.compilation.registry := by
  obtain ⟨start, d, extended, _, compiled⟩ := generate_ok generated
  have distinct : start.slots.Distinct :=
    Extension.distinct_extendAll (by simp [Registry.empty, Dict.Distinct, Dict.keys]) extended
  have nothing : Compiler.Answered start [] (Compilation.mk start d).registry := by
    refine ⟨distinct, fun key held => .inl ?_, fun key body found new => ?_, by simp⟩
    · obtain ⟨slot, found, _⟩ := Option.map_eq_some_iff.1 held
      exact Dict.mem_keys_of_find? found
    · exact absurd (Registry.mem_keys_of_body? found) new
  exact ⟨start, extended, nothing.compileRoots compiled⟩

end RenderOptions

/-- What the references in a document lead to, whose run started from what extensions had
registered. -/
structure Rendered.Answers (x : Rendered) (start : Registry) (g : Generated) (envelope : Json)
    (definitions : Dict Json) : Prop where
  defines : x.Defines g.compilation.registry envelope definitions
  /-- What the extensions have not registered refers to definitions, and only the entries of roots
  may refer to a convention without one. -/
  bodies : ∀ key ∈ g.compilation.registry.slots.keys, key ∉ start.slots.keys →
    ∃ body, definitions.find? key = some body ∧ ∀ text ∈ body.pointers, ∃ name,
      text = Pointer.text name ∧
        (name ∈ definitions.keys ∨ key ∈ g.roots.map Root.key ∧ name ∈ Conventions.keys)
  /-- The entries refer to the conventions, whether these have a definition or not. -/
  entries : ∀ root ∈ g.roots, root.key ∉ start.slots.keys → ∃ body,
    definitions.find? root.key = some body ∧ Conventions.keys.map Pointer.text ⊆ body.pointers

namespace RenderOptions

variable {o : RenderOptions} {ts : TypeSystem} {extensions : List Extension}

/-- Whatever the extensions are, the references to the alternative in a document lead to a
definition, and those to the conventions where there is one: from an extension, from the envelope
or from a type of that name. -/
theorem renderWith_answers {envelope : Json} {x : Rendered}
    (rendered : o.renderWith extensions ts envelope = .ok x) :
    ∃ start g definitions, Extension.extendAll extensions Registry.empty = .ok () start ∧
      o.generate extensions ts = .ok g ∧ x.Answers start g envelope definitions := by
  obtain ⟨g, definitions, generated, defines, _⟩ := renderWith_ok rendered
  obtain ⟨start, extended, answered⟩ := generate_answered generated
  replace defines := defines answered.distinct
  refine ⟨start, g, definitions, extended, generated, defines, fun key member new => ?_,
    fun root isRoot new => ?_⟩
  · obtain ⟨body, held, found⟩ := defines.generated key member
    refine ⟨body, found, fun text refers => ?_⟩
    obtain ⟨name, rfl, known⟩ := answered.bodies key body held new text refers
    exact ⟨name, rfl, known.imp_left fun known => (defines.mem_keys_iff name).2 (.inr known)⟩
  · obtain ⟨body, held, refers⟩ := answered.entries root isRoot new
    exact ⟨body, defines.find?_of_body? held, refers⟩

end RenderOptions

/-! ## Examples -/

namespace Shop

/-- Extensions that bring the alternative and no conventions. -/
def calls : List Extension := [.intrinsics ["Ref"]]

def plainOptions : RenderOptions := ⟨⟨"shop.Record", 1, []⟩, Envelope.defaultPattern, false⟩

theorem exists_rendered_with_calls :
    ∃ x, options.renderWith calls rootedTypes rootedEnvelope = .ok x :=
  exists_of_isOk (by decide +kernel)

end Shop

/-- In the example what is generated for the desk is there, and refers to the conventions. -/
theorem RenderOptions.renderWith_answers_shop : ∃ x start g definitions,
    Shop.options.renderWith Shop.calls Shop.rootedTypes Shop.rootedEnvelope = .ok x ∧
      x.Answers start g Shop.rootedEnvelope definitions ∧
      start.slots.keys = ["Ref", "Expression"] ∧
      (∀ root ∈ g.roots, ∃ body, definitions.find? root.key = some body ∧
        Conventions.keys.map Pointer.text ⊆ body.pointers) := by
  obtain ⟨x, rendered⟩ := Shop.exists_rendered_with_calls
  obtain ⟨start, g, definitions, extended, _, answers⟩ :=
    RenderOptions.renderWith_answers rendered
  obtain ⟨slots, registered, keys⟩ : ∃ slots,
      Extension.extendAll Shop.calls Registry.empty = .ok () ⟨slots⟩ ∧
        Dict.keys slots = ["Ref", "Expression"] := ⟨_, rfl, rfl⟩
  cases registered.symm.trans extended
  refine ⟨x, ⟨slots⟩, g, definitions, rendered, answers, keys, fun root member => ?_⟩
  refine answers.entries root member fun held => ?_
  rw [keys] at held
  have apart : ∀ key ∈ ["Ref", "Expression"], ¬ResourceLike key := by decide
  exact apart _ held (resourceLike_resourceKey _)

/-- Without extensions, an entry refers to tags, which nothing defines. -/
theorem RenderOptions.renderWith_dangling : ∃ x entry,
    Shop.plainOptions.renderWith [] Shop.rootedTypes Shop.rootedEnvelope = .ok x ∧
      (x.document.get? "definitions").bind (·.get? (resourceKey "shop.Desk")) = some entry ∧
      Pointer.text Conventions.tagKey ∈ entry.pointers ∧
      (x.document.get? "definitions").bind (·.get? Conventions.tagKey) = none := by
  obtain ⟨x, rendered⟩ : ∃ x, Shop.plainOptions.renderWith [] Shop.rootedTypes
      Shop.rootedEnvelope = .ok x := exists_of_isOk (by decide +kernel)
  have entry : Shop.defined? (Shop.plainOptions.renderWith [] Shop.rootedTypes Shop.rootedEnvelope)
      (resourceKey "shop.Desk") = some (describedBy (resourceKey "shop.Desk")
        (Compiler.resourceEntry "shop.Desk" (reference "shop/Desk~Props"))) := by
    decide +kernel
  have tag : Shop.defined? (Shop.plainOptions.renderWith [] Shop.rootedTypes Shop.rootedEnvelope)
      Conventions.tagKey = none := by
    decide +kernel
  rw [rendered, Shop.defined?] at entry tag
  refine ⟨x, _, rendered, entry, ?_, tag⟩
  rw [Json.pointers_describedBy, Compiler.pointers_resourceEntry]
  exact List.mem_append_right _ (List.mem_map_of_mem (by decide))

/-- The alternative is looked at: a run that offers it and has no extension ends. -/
example : (match Shop.options.renderWith [] Shop.rootedTypes Shop.rootedEnvelope with
    | .ok _ => ""
    | .error e => e.message) = (EngineError.missingAlternative "Expression").message := by
  decide +kernel

end ManifestSchema
