import ManifestSchema.Proofs.Envelope.Frame
import ManifestSchema.Proofs.Legality.Basic
import ManifestSchema.Proofs.RootsInDocument

/-!
# Legal documents

A document declares the version of the rules that it follows. With the envelope of a run that brings
none, all its schemas follow them, except where a list of alternatives is empty: that of the
resources when there is no root, and that of a union without members in a type that gets a
definition.

Results:

1. `Envelope.splice_default`: a document in the default envelope, written out;
2. `RenderOptions.generate_slots`: what the registry of a run holds;
3. `RenderOptions.render_legal_iff`: when a document is legal;
4. `RenderOptions.render_rootless_illegal`: a document without roots is not.
-/

namespace ManifestSchema

/-! ## The default envelope -/

/-- A document in the default envelope holds the constant members, the resources and the
definitions. -/
theorem Envelope.splice_default {definitions : Dict Json} {resources : List Json}
    {pattern : String} {document : Json} (distinct : definitions.Distinct)
    (h : splice (default pattern) definitions resources pattern = .ok document) :
    document = .obj [("$schema", .str "http://json-schema.org/draft-07/schema#"),
      ("type", .str "object"), ("additionalProperties", .bool false),
      ("properties", .obj [
        ("Resources", .obj [("type", .str "object"),
          ("patternProperties", .obj [(pattern, Fragment.anyOf resources)]),
          ("additionalProperties", .bool false)]),
        ("$schema", Fragment.ofType "string")]),
      ("definitions", .obj definitions)] := by
  have whole : Dict.insertAll [] definitions = definitions := Dict.ofList_of_distinct distinct
  rw [splice_eq h]
  simp [objectAt, Dict.insert, Dict.find?_cons, Json.members?, Fragment.anyOf, whole, resourcesIn,
    resources?, Json.get?, Json.elements?]

/-- Such a document is legal when its definitions are and it lists legal resources. -/
theorem Envelope.legal_splice_default {definitions : Dict Json} {resources : List Json}
    {pattern : String} {document : Json} {strict : Bool} (distinct : definitions.Distinct)
    (h : splice (default pattern) definitions resources pattern = .ok document) :
    document.legal strict = ((!(strict && resources.isEmpty) && resources.all (Json.legal strict)) &&
      definitions.all fun p => p.2.legal strict) := by
  rw [splice_default distinct h, ← Json.legal_anyOf, ← Json.legalValues_eq_all]
  simp [Json.legalMembers, Keyword.form?, Json.legalNamed, Json.legalValues, Keyword.areTypes,
    Keyword.isType, Keyword.isText, Fragment.ofType]

/-! ## The registry -/

namespace Compiler

variable {k : Compiler} {taken : String → Bool} {strict : Bool}

theorem legal_resourceEntry (fqn : String) (props : Json) :
    (resourceEntry fqn props).legal strict = props.legal strict := by
  simp [resourceEntry, Json.legalMembers, Keyword.form?, Json.legalNamed, Json.legalValues,
    Keyword.areTypes, Keyword.isType, Keyword.areValues, Keyword.areNames, Keyword.isText,
    Json.strings]

end Compiler

theorem Extension.legal_defaults {strict : Bool} {p : String × Slot} {body : Json}
    (member : p ∈ defaultSlots) (resolved : p.2.entry = .resolved body) :
    body.legal strict = true := by
  have all : ((defaults.flatMap definitions).all fun d =>
      d.body.all fun body => (describedBy d.key body).legal strict) = true := by
    cases strict <;> decide
  obtain ⟨d, listed, rfl⟩ := List.mem_map.1 member
  have legal := List.all_eq_true.1 all d listed
  cases held : d.body with
  | none => simp [CustomDefinition.slot, held] at resolved
  | some value =>
      simp only [CustomDefinition.slot, held] at resolved
      cases resolved
      rwa [held] at legal

theorem Registry.entry_of_body? {r : Registry} {key : String} {slot : Slot} {body : Json}
    (found : r.slots.find? key = some slot) (resolved : r.body? key = some body) :
    slot.entry = .resolved body := by
  rw [body?, entry?, found, Option.map_some] at resolved
  split at resolved
  · next entry =>
      cases resolved
      exact Option.some.inj entry
  · cases resolved

/-- The properties of a root have a type that is a name. -/
theorem ClassType.hollow_of_propsType? {c : ClassType} {index : Nat} {props : TypeRef}
    (h : c.propsType? index = some props) : props.hollow = false := by
  obtain ⟨p, _, h⟩ := Option.bind_eq_some_iff.1 h
  split at h
  · cases h
    rfl
  · cases h

namespace RenderOptions

variable {o : RenderOptions} {ts : TypeSystem} {g : Generated}

/-- What a run with the default extensions registers: their definitions, the entries of roots and
the definitions of types. -/
theorem generate_slots (keyed : ts.WellKeyed) (distinct : ts.types.Distinct)
    (h : o.generate Extension.defaults ts = .ok g) {key : String} {slot : Slot}
    (found : g.compilation.registry.slots.find? key = some slot) :
    (key, slot) ∈ Extension.defaultSlots ∨
      (∃ root ∈ g.roots, slot = ((o.compiler ts).rootSlot (heldBy g.roots) root).2) ∨
      (slot.owner = .type ∧ slot = ((o.compiler ts).typeSlot (heldBy g.roots) key).2) := by
  obtain ⟨_, held, completed⟩ := generate_completed keyed distinct h
  obtain ⟨r, d, extended, _, compiled⟩ := generate_ok h
  rw [Extension.extendAll_defaults] at extended
  cases extended
  have serves := Compiler.compileRoots_owner compiled
  have owner : g.compilation.registry.owner? key = some slot.owner :=
    congrArg (Option.map Slot.owner) found
  cases owns : slot.owner with
  | extension =>
      rw [owns, serves.extensions, Extension.owner?_defaults, ← Dict.contains_iff] at owner
      obtain ⟨slot', there⟩ := Option.isSome_iff_exists.1 owner.1
      cases (serves.stays key slot' there).symm.trans found
      exact .inl (Dict.mem_of_find? there)
  | resource =>
      rw [owns, serves.resources, Extension.owner?_defaults] at owner
      obtain ⟨_, no⟩ | member := owner
      · cases no
      · obtain ⟨root, isRoot, rfl⟩ := List.mem_map.1 member
        have entry := completed.entries root isRoot
        rw [held, found] at entry
        exact .inr (.inl ⟨root, isRoot, Option.some.inj entry⟩)
  | type =>
      rw [owns] at owner
      have body := completed.types key owner
      rw [held, found] at body
      exact .inr (.inr ⟨rfl, Option.some.inj body⟩)

/-- A type gets a definition in a run when the roots lead to it. -/
def Defines (o : RenderOptions) (ts : TypeSystem) (roots : List Root) (key : String) : Prop :=
  ReachedFrom (ts.leads (heldBy roots)) ((o.compiler ts).rootedTypes (heldBy roots) roots) key

theorem Defines.exists_find? {roots : List Root} {key : String} (h : o.Defines ts roots key) :
    ∃ d, ts.find? key = some d := by
  have opens : ts.opens (heldBy roots) key = true := by
    cases h with
    | start member =>
        obtain ⟨_, _, member⟩ := List.mem_flatMap.1 member
        exact (List.mem_filter.1 member).2
    | step _ member => exact TypeSystem.opens_of_mem_leads member
  obtain ⟨d, found, _⟩ := TypeSystem.opens_iff.1 opens
  exact ⟨d, found⟩

/-- No union without members occurs in a type that gets a definition. -/
def Solid (o : RenderOptions) (ts : TypeSystem) (roots : List Root) : Prop :=
  ∀ key, o.Defines ts roots key → ∀ d, ts.find? key = some d → ts.hollow d = false

/-- The definitions of a run are legal, but for unions without members. -/
theorem legal_generated (keyed : ts.WellKeyed) (distinct : ts.types.Distinct)
    (h : o.generate Extension.defaults ts = .ok g) (strict : Bool) :
    (∀ key body, g.compilation.registry.body? key = some body → body.legal strict = true) ↔
      (strict = true → o.Solid ts g.roots) := by
  obtain ⟨_, held, completed⟩ := generate_completed keyed distinct h
  constructor
  · intro legal isStrict key defined d found
    have reached : ReachedFrom ((o.compiler ts).types.leads g.compilation.registry.taken)
        ((o.compiler ts).rootedTypes g.compilation.registry.taken g.roots) key := by
      rw [held]
      exact defined
    have owner := completed.owner_of_reached reached
    have body := legal key _ (Registry.body?_of_find? (completed.types key owner) rfl)
    rw [Compiler.legal_definitionBody found, isStrict] at body
    have full : (!ts.hollow d) = true := body
    simpa using full
  · intro solid key body resolved
    obtain ⟨slot, found⟩ : ∃ slot, g.compilation.registry.slots.find? key = some slot :=
      Option.isSome_iff_exists.1 (Dict.contains_iff.2 (Registry.mem_keys_of_body? resolved))
    have entry : slot.entry = .resolved body := Registry.entry_of_body? found resolved
    obtain default | ⟨root, isRoot, rfl⟩ | ⟨owner, rfl⟩ := generate_slots keyed distinct h found
    · exact Extension.legal_defaults default entry
    · obtain ⟨_, _, _, selected, _⟩ := generate_ok h
      cases entry
      rw [Json.legal_describedBy, Compiler.legal_resourceEntry, Compiler.legal_fragment,
        ClassType.hollow_of_propsType? (root_of_select selected isRoot).2, Bool.and_false]
      rfl
    · cases entry
      have reached := completed.reached key (congrArg (Option.map Slot.owner) found)
      have reached : o.Defines ts g.roots key := by rwa [held] at reached
      obtain ⟨d, declared⟩ := reached.exists_find?
      rw [Compiler.legal_definitionBody declared]
      cases strict with
      | false => rfl
      | true => exact congrArg (!·) (solid rfl key reached d declared)

/-! ## Documents -/

/-- A document in the default envelope is legal, apart from lists of alternatives that are empty.
It is legal without exception when there is a root and no union without members occurs in a type
that gets a definition. -/
theorem render_legal_iff {x : Rendered} (keyed : ts.WellKeyed) (distinct : ts.types.Distinct)
    (rendered : o.render ts (Envelope.default o.resourcePattern) = .ok x) :
    ∃ roots d, o.selection.select ts .empty = .ok (roots, d) ∧
      x.document.legal false = true ∧
      (x.document.legal true = true ↔ roots ≠ [] ∧ o.Solid ts roots) := by
  obtain ⟨g, generated, finishing⟩ := bind_eq_ok_iff.1 rendered
  obtain ⟨bodies, finished, finishing⟩ := bind_eq_ok_iff.1 finishing
  obtain ⟨document, spliced, done⟩ := bind_eq_ok_iff.1 finishing
  cases done
  obtain ⟨_, d, _, selected, _⟩ := generate_ok generated
  obtain ⟨references, _⟩ := generate_completed keyed distinct generated
  have apart : bodies.Distinct := by
    rw [Dict.Distinct, Registry.keys_definitions finished]
    exact (generate_ready generated).1.closed.distinct
  have legal : ∀ strict, document.legal strict = true ↔
      (strict = true → g.roots ≠ []) ∧ (strict = true → o.Solid ts g.roots) := by
    intro strict
    have listed : g.references.all (Json.legal strict) = true := by
      simp [references]
    have few : g.references.isEmpty = g.roots.isEmpty := by rw [references, List.isEmpty_map]
    rw [Envelope.legal_splice_default apart spliced, Bool.and_eq_true, listed, few, Bool.and_true,
      ← legal_generated keyed distinct generated strict]
    refine and_congr (by cases strict <;> simp) ?_
    simp only [List.all_eq_true, Prod.forall, ← Dict.find?_eq_some_iff apart,
      Registry.find?_definitions finished]
  refine ⟨g.roots, d, selected, (legal false).2 ⟨fun no => ?_, fun no => ?_⟩, ?_⟩
  · cases no
  · cases no
  · exact (legal true).trans (and_congr (forall_prop_of_true rfl) (forall_prop_of_true rfl))

end RenderOptions

/-! ## Examples -/

namespace Shop

/-- Whether the document of a run is legal, if there is one. -/
def legal? (outcome : Except EngineError Rendered) : Option Bool :=
  outcome.toOption.map fun x => x.document.legal true

/-- Types without a root. -/
def parts : TypeSystem := ⟨[(part.fqn, part)], []⟩

/-- The bulbs of a lamp are of no type at all. -/
def bulbs : TypeSystem :=
  ⟨([part, .classDef lamp, .interfaceDef ⟨"shop.LampProps", [],
    [⟨"bulbs", .collection .array (.union []), true, false, none⟩], none⟩] : List Definition).map
      fun d => (d.fqn, d), []⟩

end Shop

/-- Seats and benches are described by a legal document, so none of their properties has a union
without members in it. -/
theorem RenderOptions.render_legal_seats : Shop.seats.WellKeyed ∧ Shop.seats.types.Distinct ∧
    ∃ x, Shop.lampOptions.render Shop.seats Shop.rootedEnvelope = .ok x ∧
      x.document.legal true = true ∧ Shop.lampOptions.Solid Shop.seats Shop.seatRoots := by
  have keyed : Shop.seats.WellKeyed := by unfold TypeSystem.WellKeyed; decide
  have distinct : Shop.seats.types.Distinct := by decide
  have legal : Shop.legal? (Shop.lampOptions.render Shop.seats Shop.rootedEnvelope) = some true :=
    by decide +kernel
  obtain ⟨x, rendered⟩ : ∃ x, Shop.lampOptions.render Shop.seats Shop.rootedEnvelope = .ok x :=
    exists_of_isOk (by decide +kernel)
  rw [rendered] at legal
  have legal : x.document.legal true = true := Option.some.inj legal
  obtain ⟨roots, d, selected, _, iff⟩ := RenderOptions.render_legal_iff keyed distinct rendered
  obtain ⟨d', selected'⟩ := Shop.select_seats
  cases selected'.symm.trans selected
  exact ⟨keyed, distinct, x, rendered, legal, (iff.1 legal).2⟩

/-- Without roots, the list of alternatives for a resource is left empty, which the rules that the
document declares do not allow. -/
theorem RenderOptions.render_rootless_illegal : Shop.parts.WellKeyed ∧
    ∃ x, Shop.lampOptions.render Shop.parts Shop.rootedEnvelope = .ok x ∧
      Envelope.resources? Envelope.defaultPattern x.document = some [] ∧
      x.document.get? "$schema" = some (.str "http://json-schema.org/draft-07/schema#") ∧
      x.document.legal true = false :=
  ⟨by unfold TypeSystem.WellKeyed; decide, _, rfl, by decide +kernel, by decide +kernel,
    by decide +kernel⟩

/-- A union without members becomes an empty list of alternatives, so a document with a root can be
illegal as well. -/
example : Shop.legal? (Shop.lampOptions.render Shop.bulbs Shop.rootedEnvelope) = some false := by
  decide +kernel

end ManifestSchema
