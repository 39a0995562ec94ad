import ManifestSchema.Proofs.Compile.Progress
import ManifestSchema.Proofs.Compile.References

/-!
# Types that offer the alternative

A compilation may start from a registry that lacks the alternative. It goes on as long as nothing
has to be offered, and fails at the first property: a type that is compiled without the alternative
has no properties, and its schema refers to nothing.

Results:

1. `Compiler.pointers_of_bare`: a type without properties refers to nothing;
2. `Compiler.compile_checks`: a compilation that ends without the alternative has only added such
   types.
-/

namespace ManifestSchema

namespace Compiler

variable {k : Compiler} {taken : String → Bool} {r r' r'' : Registry}

/-! ## Types without properties -/

/-- A type has no properties, so there is nothing to offer next to them. -/
def Bare (k : Compiler) (name : String) : Prop :=
  ∀ d, k.types.find? name = some d → (k.types.flatten d).properties = []

theorem pointers_of_bare {name : String} (bare : k.Bare name) :
    (k.definitionBody taken name).pointers = [] := by
  unfold definitionBody
  cases found : k.types.find? name with
  | none => rfl
  | some d =>
      have nothing := bare d found
      simp only [Json.pointers_describedBy, objectSchema, nothing]
      split
      · rfl
      · rw [propertySchemas, List.map_nil, Json.pointers_object (by simp), List.flatMap_nil]

/-! ## Steps -/

theorem Offers.mono (h : k.Offers r) (more : r.slots.keys ⊆ r'.slots.keys) : k.Offers r' :=
  fun key isAlternative => more (h key isAlternative)

/-- From `r` to `r'` keys were only added, and unless the alternative is there in the end, they are
those of types without properties. -/
structure Checked (k : Compiler) (r r' : Registry) : Prop where
  more : r.slots.keys ⊆ r'.slots.keys
  bare : ¬k.Offers r' → ∀ name ∈ r'.slots.keys, name ∉ r.slots.keys → k.Bare name

theorem Checked.refl (r : Registry) : k.Checked r r :=
  ⟨fun _ => id, fun _ _ member new => absurd member new⟩

theorem Checked.trans (h : k.Checked r r') (h' : k.Checked r' r'') : k.Checked r r'' where
  more _ member := h'.more (h.more member)
  bare without name member new := by
    by_cases before : name ∈ r'.slots.keys
    · exact h.bare (fun offers => without (offers.mono h'.more)) name before new
    · exact h'.bare without name member before

/-- A step of which every success is checked. -/
def Checks {α : Type} (k : Compiler) (work : Compile α) : Prop :=
  ∀ c a c', work c = .ok a c' → k.Checked c.registry c'.registry

section Steps

variable {α β : Type} {work : Compile α} {f : α → Compile β}

theorem KeepsRegistry.checks (h : KeepsRegistry work) : k.Checks work := by
  intro c a c' done
  rw [h c a c' done]
  exact .refl _

theorem checks_pure (a : α) : k.Checks (pure a) := by
  intro c b c' done
  obtain ⟨_, rfl⟩ := Work.pure_ok_iff.1 done
  exact .refl _

theorem Checks.bind (h : k.Checks work) (h' : ∀ a, k.Checks (f a)) : k.Checks (work >>= f) := by
  intro c b c' done
  obtain ⟨a, c1, first, second⟩ := Work.bind_ok_iff.1 done
  exact (h c a c1 first).trans (h' a c1 b c' second)

end Steps

/-- What the compilation of a body has to be like: it is checked, and a body without properties is
the only one that there is without the alternative. -/
def ChecksObjects (k : Compiler) (object : Definition → Nat → Compile Json) : Prop :=
  ∀ d scope, k.Checks (object d scope) ∧
    ∀ c a c', object d scope c = .ok a c' → ¬k.Offers c'.registry →
      (k.types.flatten d).properties = []

variable {object : Definition → Nat → Compile Json}

theorem keys_resolve {c c' : Compilation} {key : String} {body : Json}
    (done : Registry.resolve key body c = .ok () c') :
    c'.registry.slots.keys = c.registry.slots.keys := by
  obtain ⟨_, _, _, rfl⟩ := Registry.resolve_ok_iff.1 done
  exact Dict.keys_adjust _ _ _

theorem checks_define {name : String} {d : Definition} (found : k.types.find? name = some d)
    (spec : k.ChecksObjects object) (scope : Nat) :
    k.Checks (Registry.define name .type (object d scope)) := by
  intro c answer c' done
  obtain ⟨_, ⟨_, _, _, rfl⟩ | ⟨missing, body, c1, produced, resolved⟩⟩ :=
    Registry.define_ok_iff.1 done
  · exact .refl _
  · obtain ⟨checked, bare⟩ := spec d scope
    obtain ⟨more, added⟩ := checked _ body c1 produced
    have same := keys_resolve resolved
    have reserved : Dict.keys (c.registry.slots ++ [(name, Slot.mk .type .pending)]) =
        c.registry.slots.keys ++ [name] := Dict.keys_append _ _
    refine ⟨fun key member => ?_, fun without key member new => ?_⟩
    · rw [same]
      exact more (reserved ▸ List.mem_append_left _ member)
    · rw [same] at member
      have before : ¬k.Offers c1.registry := fun offers =>
        without (offers.mono fun _ known => same ▸ known)
      by_cases self : key = name
      · subst self
        intro d' found'
        rw [found] at found'
        cases found'
        exact bare _ body c1 produced before
      · refine added before key member fun old => ?_
        rcases List.mem_append.1 (reserved ▸ old) with old | old
        · exact new old
        · exact self (List.mem_singleton.1 old)

theorem checks_any (scope : Nat) (message : String) :
    k.Checks (do Compile.error scope message; return Fragment.any) :=
  (keepsRegistry_error scope message).checks.bind fun _ => checks_pure _

theorem checks_name (name : String) (scope : Nat) (spec : k.ChecksObjects object) :
    k.Checks (k.compileName object name scope) := by
  unfold compileName
  split
  · exact checks_any scope _
  · exact checks_pure _
  · next d _ found =>
      have read : KeepsRegistry Compile.registry := by
        intro c r c' done
        cases done
        rfl
      have enter : k.Checks (Compile.child scope d.kind.text name >>= fun inner =>
          Registry.define name .type (object d inner)) :=
        (keepsRegistry_child scope _ name).checks.bind (checks_define found spec)
      refine read.checks.bind fun r => ?_
      split
      · exact checks_any scope _
      · exact checks_any scope _
      · exact enter
      · exact enter

mutual

theorem checks_reference (spec : k.ChecksObjects object) (scope : Nat) : (type : TypeRef) →
    k.Checks (k.compileWith object type scope)
  | .primitive _ => by
      rw [compileWith]
      exact checks_pure _
  | .named name => by
      rw [compileWith]
      exact checks_name name scope spec
  | .union members => by
      rw [compileWith]
      exact (checks_each spec scope members).bind fun _ => checks_pure _
  | .collection _ element => by
      rw [compileWith]
      exact (checks_reference spec scope element).bind fun _ => checks_pure _
  | .unsupported raw => by
      rw [compileWith]
      exact checks_any scope _

theorem checks_each (spec : k.ChecksObjects object) (scope : Nat) : (types : List TypeRef) →
    k.Checks (k.compileEach object types scope)
  | [] => by
      rw [compileEach]
      exact checks_pure _
  | type :: rest => by
      rw [compileEach]
      exact (checks_reference spec scope type).bind fun _ =>
        (checks_each spec scope rest).bind fun _ => checks_pure _

end

/-- What is offered is there. -/
theorem offers_of_alternative {schema answer : Json} {c c' : Compilation}
    (done : k.offerAlternative schema c = .ok answer c') :
    c'.registry = c.registry ∧ k.Offers c'.registry := by
  unfold Offers
  cases alternative : k.alternative with
  | none =>
      unfold offerAlternative at done
      rw [alternative] at done
      obtain ⟨_, rfl⟩ := Work.pure_ok_iff.1 done
      exact ⟨rfl, by simp⟩
  | some key =>
      obtain ⟨present, _, rfl⟩ := (offerAlternative_ok_iff alternative).1 done
      refine ⟨rfl, fun other same => ?_⟩
      cases same
      exact Dict.contains_iff.1 present

theorem checks_properties (spec : k.ChecksObjects object) (scope : Nat)
    (properties : Dict Property) : k.Checks (k.compileProperties object scope properties) ∧
      ∀ c a c', k.compileProperties object scope properties c = .ok a c' →
        ¬k.Offers c'.registry → properties = [] := by
  induction properties with
  | nil => exact ⟨checks_pure _, fun _ _ _ _ _ => rfl⟩
  | cons p rest ih =>
      obtain ⟨name, p⟩ := p
      have offer : ∀ schema, k.Checks (k.offerAlternative schema) := by
        intro schema c a c' done
        rw [(offers_of_alternative done).1]
        exact .refl _
      refine ⟨(checks_reference spec scope p.type).bind fun schema => (offer schema).bind fun _ =>
        ih.1.bind fun _ => checks_pure _, fun c a c' done without => ?_⟩
      -- the alternative was offered next to the first property, and is still there
      obtain ⟨schema, c1, _, done⟩ := Work.bind_ok_iff.1 done
      obtain ⟨offered, c2, found, done⟩ := Work.bind_ok_iff.1 done
      obtain ⟨others, c3, compiled, done⟩ := Work.bind_ok_iff.1 done
      obtain ⟨_, rfl⟩ := Work.pure_ok_iff.1 done
      exact absurd ((offers_of_alternative found).2.mono (ih.1 c2 others c3 compiled).more) without

theorem checks_objects (levels : Nat) : k.ChecksObjects (k.compileObject levels) := by
  induction levels with
  | zero =>
      exact fun d scope => ⟨fun _ _ _ done => (Work.throw_ok_iff.1 done).elim,
        fun _ _ _ done => (Work.throw_ok_iff.1 done).elim⟩
  | succ levels ih =>
      intro d scope
      obtain ⟨checked, bare⟩ := checks_properties ih scope (k.types.flatten d).properties
      rw [compileObject]
      by_cases marker : ((k.types.flatten d).properties.isEmpty && d.kind == .interfaceKind) = true
      · simp only [marker, if_true]
        refine ⟨?_, fun _ _ _ _ _ => List.isEmpty_iff.1 (Bool.and_eq_true_iff.1 marker).1⟩
        exact (keepsRegistry_errors scope _ _).checks.bind fun _ =>
          (keepsRegistry_errors scope _ _).checks.bind fun _ =>
            (keepsRegistry_warn scope _).checks.bind fun _ => checks_pure _
      · simp only [marker]
        refine ⟨?_, fun c a c' done without => ?_⟩
        · exact (keepsRegistry_errors scope _ _).checks.bind fun _ =>
            (keepsRegistry_errors scope _ _).checks.bind fun _ =>
              checked.bind fun _ => checks_pure _
        · obtain ⟨_, c1, _, done⟩ := Work.bind_ok_iff.1 done
          obtain ⟨_, c2, _, done⟩ := Work.bind_ok_iff.1 done
          obtain ⟨properties, c3, compiled, done⟩ := Work.bind_ok_iff.1 done
          obtain ⟨_, rfl⟩ := Work.pure_ok_iff.1 done
          exact bare c2 properties c3 compiled without

/-- A compilation that ends without the alternative has added types without properties only. -/
theorem compile_checks (type : TypeRef) (scope : Nat) : k.Checks (k.compile type scope) :=
  checks_reference (checks_objects _) scope type

end Compiler

end ManifestSchema
