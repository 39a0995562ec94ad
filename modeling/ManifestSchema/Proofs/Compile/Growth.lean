import ManifestSchema.Proofs.Compile.Fragment
import ManifestSchema.Proofs.DepthFirst

/-!
# What a compilation adds

A step of a compilation that succeeds adds finished definitions of types behind those that are
there, and changes nothing else in the registry. The definitions come in the order of a depth-first
walk over the names that the step meets. Inside a definition the walk sees the pending key of that
definition, so a type that reaches itself is met again and not entered.

Results:

1. `Compiler.Grows.enter`: a definition that is entered adds itself and what it leads to;
2. `Compiler.compile_gives`: a compiled reference has the schema `Compiler.fragment`, and the
   registry grows by what can be reached from it.
-/

namespace ManifestSchema

namespace Registry

theorem taken_append_types (r : Registry) {d : Dict Slot} (types : ∀ p ∈ d, p.2.owner = .type) :
    taken ⟨r.slots ++ d⟩ = r.taken := by
  funext key
  simp only [taken, owner?, Dict.find?_append]
  cases r.slots.find? key with
  | some slot => rfl
  | none =>
      cases found : d.find? key with
      | none => rfl
      | some slot =>
          have owner := types _ (Dict.mem_of_find? found)
          simp only at owner
          simp [owner]

end Registry

namespace TypeSystem

/-- What a walk through the types meets gets a definition. -/
theorem opens_of_reached {ts : TypeSystem} {taken : String → Bool} {names : List String}
    {name : String} (h : ReachedFrom (ts.leads taken) (names.filter (ts.opens taken)) name) :
    ts.opens taken name = true := by
  cases h with
  | start member => exact (List.mem_filter.1 member).2
  | step _ member => exact opens_of_mem_leads member

end TypeSystem

namespace Compiler

variable {k : Compiler} {taken : String → Bool}

theorem keys_map_typeSlot (k : Compiler) (taken : String → Bool) (keys : List String) :
    Dict.keys (keys.map (k.typeSlot taken)) = keys := by
  induction keys with
  | nil => rfl
  | cons key rest ih => simp only [Dict.keys, List.map_cons] at *; rw [ih]; rfl

/-! ## Growth of the registry -/

/-- `k.Grows taken names r r'`: a walk over `names` adds its definitions to `r`, giving `r'`. -/
def Grows (k : Compiler) (taken : String → Bool) (names : List String) (r r' : Registry) : Prop :=
  ∃ added, r'.slots = r.slots ++ added.map (k.typeSlot taken) ∧
    DepthFirst (k.types.leads taken) r.slots.keys (names.filter (k.types.opens taken))
      (r.slots.keys ++ added)

theorem keys_of_slots {added : List String} {r r' : Registry}
    (h : r'.slots = r.slots ++ added.map (k.typeSlot taken)) :
    r'.slots.keys = r.slots.keys ++ added := by
  rw [h, Dict.keys_append, keys_map_typeSlot]

theorem Grows.taken_eq {names : List String} {r r' : Registry} (h : k.Grows taken names r r') :
    r'.taken = r.taken := by
  obtain ⟨added, slots, _⟩ := h
  have types : ∀ p ∈ added.map (k.typeSlot taken), p.2.owner = .type := by
    intro p hp
    obtain ⟨key, _, rfl⟩ := List.mem_map.1 hp
    rfl
  rw [← r.taken_append_types types, ← slots]

theorem Grows.of_nothing {names : List String} {r : Registry}
    (h : names.filter (k.types.opens taken) = []) : k.Grows taken names r r :=
  ⟨[], by simp, by rw [h, List.append_nil]; exact .done _⟩

theorem Grows.append {names more : List String} {r r1 r2 : Registry}
    (h : k.Grows taken names r r1) (h' : k.Grows taken more r1 r2) :
    k.Grows taken (names ++ more) r r2 := by
  obtain ⟨added, slots, walk⟩ := h
  obtain ⟨added', slots', walk'⟩ := h'
  rw [keys_of_slots slots] at walk'
  refine ⟨added ++ added', by rw [slots', slots, List.map_append, List.append_assoc], ?_⟩
  rw [List.filter_append, ← List.append_assoc]
  exact walk.append walk'

theorem Grows.again {name : String} {r : Registry} (h : name ∈ r.slots.keys) :
    k.Grows taken [name] r r := by
  by_cases opens : k.types.opens taken name = true
  · refine ⟨[], by simp, ?_⟩
    rw [List.filter_cons_of_pos opens, List.append_nil]
    exact .again h (.done _)
  · exact .of_nothing (by simp [opens])

/-- A class or interface is entered: its key is reserved, what it refers to is compiled, and its
body is written where the key was reserved. -/
theorem Grows.enter {name : String} {d : Definition} {r inside out : Registry}
    (found : k.types.find? name = some d) (opens : k.types.opens taken name = true)
    (new : name ∉ r.slots.keys)
    (h : k.Grows taken (k.types.propertyNames d) ⟨r.slots ++ [(name, ⟨.type, .pending⟩)]⟩ inside)
    (written : out.slots = inside.slots.adjust name fun slot =>
      { slot with entry := .resolved (describedBy name (k.objectSchema taken d)) }) :
    k.Grows taken [name] r out := by
  obtain ⟨added, slots, walk⟩ := h
  rw [List.append_assoc, List.singleton_append] at slots
  -- the walk inside saw the reserved key, so it is the inner part of a first visit
  refine ⟨name :: added, ?_, ?_⟩
  · rw [written, slots, Dict.adjust_middle new, ← definitionBody_of_find found]
    rfl
  · simp only [Dict.keys_append, ← TypeSystem.leads_of_find found] at walk
    rw [List.filter_cons_of_pos opens, List.append_cons]
    exact .first new walk (.done _)

/-! ## Steps -/

/-- `k.Gives taken work names a`: whenever `work` succeeds it answers `a` and the registry grows by
a walk over `names`. -/
def Gives {α : Type} (k : Compiler) (taken : String → Bool) (work : Compile α)
    (names : List String) (a : α) : Prop :=
  ∀ c b c', c.registry.taken = taken → work c = .ok b c' →
    b = a ∧ k.Grows taken names c.registry c'.registry

/-- A step that leaves the registry as it is. -/
def KeepsRegistry {α : Type} (work : Compile α) : Prop :=
  ∀ c a c', work c = .ok a c' → c'.registry = c.registry

section Steps

variable {α β : Type} {work : Compile α} {f : α → Compile β} {names more : List String} {a : α}
  {b : β}

theorem gives_pure (a : α) : k.Gives taken (pure a) [] a := by
  intro c b c' _ h
  obtain ⟨rfl, rfl⟩ := Work.pure_ok_iff.1 h
  exact ⟨rfl, .of_nothing rfl⟩

theorem Gives.bind (h : k.Gives taken work names a) (h' : k.Gives taken (f a) more b) :
    k.Gives taken (work >>= f) (names ++ more) b := by
  intro c b' c' ht hb
  obtain ⟨a', c1, ha, hb⟩ := Work.bind_ok_iff.1 hb
  obtain ⟨rfl, grows⟩ := h c a' c1 ht ha
  obtain ⟨rfl, grows'⟩ := h' c1 b' c' (grows.taken_eq.trans ht) hb
  exact ⟨rfl, grows.append grows'⟩

theorem Gives.bind_pure (h : k.Gives taken work names a) (g : α → β) :
    k.Gives taken (work >>= fun a => pure (g a)) names (g a) := by
  rw [← List.append_nil names]
  exact h.bind (gives_pure _)

theorem KeepsRegistry.bind (h : KeepsRegistry work) (h' : ∀ a, k.Gives taken (f a) names b) :
    k.Gives taken (work >>= f) names b := by
  intro c b' c' ht hb
  obtain ⟨a, c1, ha, hb⟩ := Work.bind_ok_iff.1 hb
  have same := h c a c1 ha
  have := h' a c1 b' c' (by rw [same, ht]) hb
  rwa [same] at this

theorem keepsRegistry_error (scope : Nat) (message : String) :
    KeepsRegistry (Compile.error scope message) := by
  intro c a c' h
  cases h
  rfl

theorem keepsRegistry_warn (scope : Nat) (message : String) :
    KeepsRegistry (Compile.warn scope message) := by
  intro c a c' h
  cases h
  rfl

theorem keepsRegistry_child (parent : Nat) (kind identifier : String) :
    KeepsRegistry (Compile.child parent kind identifier) := by
  intro c a c' h
  cases h
  rfl

theorem keepsRegistry_errors (scope : Nat) (lead : String) (names : List String) :
    KeepsRegistry (Compile.errors scope lead names) := by
  induction names with
  | nil =>
      intro c a c' h
      rw [← (Work.pure_ok_iff.1 h).2]
  | cons name rest ih =>
      intro c a c' h
      obtain ⟨_, c1, h1, h2⟩ := Work.bind_ok_iff.1 h
      rw [ih c1 a c' h2, keepsRegistry_error scope _ c _ c1 h1]

end Steps

/-! ## The compiler -/

/-- What the compilation of bodies has to be like for that of references. -/
def GivesObjects (k : Compiler) (taken : String → Bool)
    (object : Definition → Nat → Compile Json) : Prop :=
  ∀ d scope, k.Gives taken (object d scope) (k.types.propertyNames d) (k.objectSchema taken d)

variable {object : Definition → Nat → Compile Json}

/-- A broken name is noted and stands for any value. -/
theorem gives_any {name : String} (h : k.types.opens taken name = false) (scope : Nat)
    (message : String) :
    k.Gives taken (do Compile.error scope message; return Fragment.any) [name] Fragment.any := by
  refine (keepsRegistry_error scope message).bind fun _ c a c' ht h' => ?_
  obtain ⟨rfl, rfl⟩ := Work.pure_ok_iff.1 h'
  exact ⟨rfl, .of_nothing (by simp [h])⟩

/-- The definition of a class or interface is requested. -/
theorem gives_define {name : String} {d : Definition} (found : k.types.find? name = some d)
    (opens : k.types.opens taken name = true) (scope : Nat) (spec : k.GivesObjects taken object) :
    k.Gives taken (Registry.define name .type (object d scope)) [name] (reference name) := by
  intro c a c' ht h
  obtain ⟨rfl, ⟨slot, present, _, rfl⟩ | ⟨missing, body, c1, produced, resolved⟩⟩ :=
    Registry.define_ok_iff.1 h
  · exact ⟨rfl, .again (Dict.mem_keys_of_find? present)⟩
  · have ht' : (HoldsRegistry.withRegistry c (Registry.mk (c.registry.slots ++
        [(name, Slot.mk .type .pending)]))).registry.taken = taken := by
      rw [← ht]
      exact c.registry.taken_append_types (by simp)
    obtain ⟨rfl, grows⟩ := spec d scope _ body c1 ht' produced
    obtain ⟨_, _, _, rfl⟩ := Registry.resolve_ok_iff.1 resolved
    exact ⟨rfl, grows.enter found opens (Dict.find?_eq_none_iff.1 missing) rfl⟩

theorem compileName_of_taken {name : String} {d : Definition}
    (found : k.types.find? name = some d) (isObject : d.isObject = true) {c : Compilation}
    (h : c.registry.taken name = true) (scope : Nat) :
    ∃ owner, k.compileName object name scope c = compileName.clash name scope owner c := by
  unfold Registry.taken at h
  simp only [compileName, found]
  cases d with
  | enumDef e => cases isObject
  | classDef _ | interfaceDef _ =>
      simp only [bind, EStateM.bind, Compile.registry]
      cases held : c.registry.owner? name with
      | none => simp [held] at h
      | some owner =>
          cases owner with
          | type => simp [held] at h
          | resource | extension => exact ⟨_, rfl⟩

theorem compileName_of_not_taken {name : String} {d : Definition}
    (found : k.types.find? name = some d) (isObject : d.isObject = true) {c : Compilation}
    (h : c.registry.taken name = false) (scope : Nat) :
    k.compileName object name scope c =
      (Compile.child scope d.kind.text name >>= fun inner =>
        Registry.define name .type (object d inner)) c := by
  unfold Registry.taken at h
  simp only [compileName, found]
  cases d with
  | enumDef e => cases isObject
  | classDef _ | interfaceDef _ =>
      simp only [bind, EStateM.bind, Compile.registry]
      cases held : c.registry.owner? name with
      | none => rfl
      | some owner =>
          cases owner with
          | type => rfl
          | resource | extension => simp [held] at h

theorem gives_name (name : String) (scope : Nat) (spec : k.GivesObjects taken object) :
    k.Gives taken (k.compileName object name scope) [name] (k.fragment taken (.named name)) := by
  cases found : k.types.find? name with
  | none =>
      rw [fragment_of_undeclared found]
      simp only [compileName, found]
      exact gives_any (by simp [TypeSystem.opens, found]) scope _
  | some d =>
      by_cases isObject : d.isObject = true
      · intro c a c' ht h
        cases held : taken name with
        | true =>
            obtain ⟨owner, same⟩ : ∃ owner, k.compileName object name scope c =
                compileName.clash name scope owner c :=
              compileName_of_taken found isObject (by rw [ht, held]) scope
            rw [same] at h
            rw [fragment_of_taken found isObject held]
            exact gives_any (by simp [TypeSystem.opens, found, held]) scope _ c a c' ht h
        | false =>
            have opens : k.types.opens taken name = true :=
              TypeSystem.opens_iff.2 ⟨d, found, isObject, held⟩
            rw [compileName_of_not_taken found isObject (by rw [ht, held])] at h
            rw [fragment_of_opens opens]
            exact (keepsRegistry_child scope _ name).bind
              (fun inner => gives_define found opens inner spec) c a c' ht h
      · cases d with
        | classDef _ | interfaceDef _ => simp [Definition.isObject] at isObject
        | enumDef e =>
            have closed : k.types.opens taken name = false := by
              simp [TypeSystem.opens, found, Definition.isObject]
            rw [fragment_of_enum found]
            simp only [compileName, found]
            intro c a c' _ h
            obtain ⟨rfl, rfl⟩ := Work.pure_ok_iff.1 h
            exact ⟨rfl, .of_nothing (by simp [closed])⟩

mutual

theorem gives_reference (spec : k.GivesObjects taken object) (scope : Nat) :
    (type : TypeRef) →
      k.Gives taken (k.compileWith object type scope) type.names (k.fragment taken type)
  | .primitive p => by
      rw [compileWith, fragment]
      exact gives_pure _
  | .named name => by
      rw [compileWith]
      exact gives_name name scope spec
  | .union members => by
      rw [compileWith, fragment]
      exact (gives_each spec scope members).bind_pure Fragment.anyOf
  | .collection kind element => by
      rw [compileWith, fragment]
      exact (gives_reference spec scope element).bind_pure (Fragment.collection kind)
  | .unsupported raw => by
      rw [compileWith, fragment]
      exact (keepsRegistry_error scope _).bind fun _ => gives_pure _

theorem gives_each (spec : k.GivesObjects taken object) (scope : Nat) :
    (types : List TypeRef) →
      k.Gives taken (k.compileEach object types scope) (TypeRef.namesOfAll types)
        (k.fragments taken types)
  | [] => by
      rw [compileEach]
      exact gives_pure _
  | type :: rest => by
      rw [compileEach]
      exact (gives_reference spec scope type).bind
        ((gives_each spec scope rest).bind_pure fun others => k.fragment taken type :: others)

end

/-- The alternative is offered if it is registered, and nothing else happens. -/
theorem offerAlternative_ok_iff {alternative : String}
    (configured : k.alternative = some alternative) {schema answer : Json} {c c' : Compilation} :
    k.offerAlternative schema c = .ok answer c' ↔ c.registry.contains alternative = true ∧
      answer = Fragment.anyOf [schema, reference alternative] ∧ c' = c := by
  unfold offerAlternative
  simp only [configured]
  constructor
  · intro done
    obtain ⟨_, _, read, done⟩ := Work.bind_ok_iff.1 done
    cases read
    split at done
    · next present =>
        obtain ⟨rfl, rfl⟩ := Work.pure_ok_iff.1 done
        exact ⟨present, rfl, rfl⟩
    · exact (Work.throw_ok_iff.1 done).elim
  · rintro ⟨present, rfl, rfl⟩
    refine Work.bind_ok_iff.2 ⟨_, _, rfl, ?_⟩
    rw [if_pos present]
    rfl

theorem gives_alternative (schema : Json) :
    k.Gives taken (k.offerAlternative schema) [] (k.withAlternative schema) := by
  cases configured : k.alternative with
  | none =>
      unfold offerAlternative withAlternative
      rw [configured]
      exact gives_pure _
  | some key =>
      intro c a c' _ h
      obtain ⟨_, rfl, rfl⟩ := (offerAlternative_ok_iff configured).1 h
      unfold withAlternative
      rw [configured]
      exact ⟨rfl, .of_nothing rfl⟩

theorem gives_properties (spec : k.GivesObjects taken object) (scope : Nat)
    (properties : Dict Property) :
    k.Gives taken (k.compileProperties object scope properties)
      (properties.flatMap fun p => p.2.type.names) (k.propertySchemas taken properties) := by
  induction properties with
  | nil => exact gives_pure _
  | cons p rest ih =>
      obtain ⟨name, p⟩ := p
      rw [List.flatMap_cons, ← List.nil_append (List.flatMap _ rest)]
      exact (gives_reference spec scope p.type).bind ((gives_alternative _).bind
        (ih.bind_pure fun others => (name, k.propertySchema taken p) :: others))

theorem gives_objects (levels : Nat) : k.GivesObjects taken (k.compileObject levels) := by
  induction levels with
  | zero => exact fun d scope c a c' _ h => (Work.throw_ok_iff.1 h).elim
  | succ levels ih =>
      intro d scope
      rw [compileObject]
      refine (keepsRegistry_errors scope _ _).bind fun _ => ?_
      refine (keepsRegistry_errors scope _ _).bind fun _ => ?_
      unfold objectSchema
      by_cases marker : k.types.isMarker d = true
      · have none : k.types.propertyNames d = [] := by
          have empty := (Bool.and_eq_true _ _ ▸ marker).1
          simp [TypeSystem.propertyNames, List.isEmpty_iff.1 empty]
        rw [if_pos marker, none]
        unfold TypeSystem.isMarker at marker
        simp only [marker, if_true]
        exact (keepsRegistry_warn scope _).bind fun _ => gives_pure _
      · rw [if_neg marker]
        -- the compiler tests the marker on the properties it has flattened
        unfold TypeSystem.isMarker at marker
        simp only [marker]
        exact (gives_properties ih scope _).bind_pure fun schemas =>
          Fragment.object schemas (requiredNames (k.types.flatten d).properties) d.summary

/-- A reference is compiled to its schema, and what can be reached from it is defined. -/
theorem compile_gives (type : TypeRef) (scope : Nat) :
    k.Gives taken (k.compile type scope) type.names (k.fragment taken type) :=
  gives_reference (gives_objects _) scope type

end Compiler

end ManifestSchema
