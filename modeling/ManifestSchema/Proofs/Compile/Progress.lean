import ManifestSchema.Proofs.Compile.Growth
import ManifestSchema.Proofs.Flattening

/-!
# Compilations succeed

Nothing that is wrong with a type ends a compilation. Only a missing alternative does, so a
compilation succeeds when the alternative is registered. In particular no definition is resolved
twice, and the levels of types that are begun inside each other are never used up: each of them has
reserved a key of its own.

Results:

1. `TypeSystem.room_lt_of_subset`: a name that is reserved takes up room;
2. `Compiler.compile_succeeds`: where the alternative is registered, every compilation succeeds.
-/

namespace ManifestSchema

namespace TypeSystem

variable {ts : TypeSystem}

theorem room_le_of_subset {path path' : List String} (more : path ⊆ path') :
    ts.room path' ≤ ts.room path := by
  unfold room
  rw [← List.countP_eq_length_filter, ← List.countP_eq_length_filter]
  refine List.countP_mono_left fun name _ off => ?_
  simp only [decide_eq_true_eq] at off ⊢
  exact fun h => off (more h)

theorem room_lt_of_subset {name : String} {path path' : List String} (more : path ⊆ path')
    (declared : name ∈ ts.types.keys) (off : name ∉ path) (on : name ∈ path') :
    ts.room path' < ts.room path :=
  calc
    ts.room path' ≤ ts.room (name :: path) := room_le_of_subset (List.cons_subset.2 ⟨on, more⟩)
    _ < ts.room path := room_cons_lt declared off

end TypeSystem

namespace Compiler

variable {k : Compiler} {taken : String → Bool}

/-- The alternative that properties offer is registered. -/
def Offers (k : Compiler) (r : Registry) : Prop :=
  ∀ key, k.alternative = some key → key ∈ r.slots.keys

/-- `work` only adds to the registry, and nothing that others than types hold. -/
def Advances {α : Type} (taken : String → Bool) (work : Compile α) : Prop :=
  ∀ c a c', c.registry.taken = taken → work c = .ok a c' →
    c'.registry.taken = taken ∧ c.registry.slots.keys ⊆ c'.registry.slots.keys

/-- `work` succeeds where the alternative is registered and fewer than `levels` types are left that
have no key yet. -/
def Succeeds {α : Type} (k : Compiler) (taken : String → Bool) (levels : Nat)
    (work : Compile α) : Prop :=
  ∀ c, c.registry.taken = taken → k.Offers c.registry →
    k.types.room c.registry.slots.keys < levels → ∃ a c', work c = .ok a c'

section Steps

variable {α β : Type} {work : Compile α} {f : α → Compile β} {names : List String} {a : α}
  {levels : Nat}

theorem Gives.advances (h : k.Gives taken work names a) : Advances taken work := by
  intro c b c' ht hw
  obtain ⟨_, grows⟩ := h c b c' ht hw
  refine ⟨grows.taken_eq.trans ht, ?_⟩
  obtain ⟨added, slots, _⟩ := grows
  rw [keys_of_slots slots]
  exact List.subset_append_left _ _

theorem KeepsRegistry.advances (h : KeepsRegistry work) : Advances taken work := by
  intro c b c' ht hw
  rw [h c b c' hw]
  exact ⟨ht, fun _ => id⟩

theorem succeeds_pure (a : α) : k.Succeeds taken levels (pure a) := fun c _ _ _ => ⟨a, c, rfl⟩

theorem Succeeds.bind (h : k.Succeeds taken levels work) (advances : Advances taken work)
    (h' : ∀ a, k.Succeeds taken levels (f a)) : k.Succeeds taken levels (work >>= f) := by
  intro c ht offers room
  obtain ⟨a, c1, ha⟩ := h c ht offers room
  obtain ⟨ht1, more⟩ := advances c a c1 ht ha
  have room1 := Nat.lt_of_le_of_lt (TypeSystem.room_le_of_subset more) room
  obtain ⟨b, c2, hb⟩ := h' a c1 ht1 (fun key isAlternative => more (offers key isAlternative)) room1
  exact ⟨b, c2, Work.bind_ok_iff.2 ⟨a, c1, ha, hb⟩⟩

theorem succeeds_error (scope : Nat) (message : String) :
    k.Succeeds taken levels (Compile.error scope message) := fun _ _ _ _ => ⟨_, _, rfl⟩

theorem succeeds_errors (scope : Nat) (lead : String) (names : List String) :
    k.Succeeds taken levels (Compile.errors scope lead names) := by
  induction names with
  | nil => exact succeeds_pure ()
  | cons name rest ih =>
      exact (succeeds_error scope _).bind (keepsRegistry_error scope _).advances fun _ => ih

end Steps

variable {object : Definition → Nat → Compile Json} {levels : Nat}

/-- A broken name stops nothing. -/
theorem succeeds_any (scope : Nat) (message : String) :
    k.Succeeds taken levels (do Compile.error scope message; return Fragment.any) :=
  (succeeds_error scope message).bind (keepsRegistry_error scope message).advances fun _ =>
    succeeds_pure _

/-- The key of a type that is entered is still without a body when the body is there, and it leaves
one type less to enter. -/
theorem succeeds_define {name : String} {d : Definition} (found : k.types.find? name = some d)
    (free : taken name = false) (scope : Nat) (spec : k.GivesObjects taken object)
    (h : k.Succeeds taken levels (object d scope)) :
    k.Succeeds taken (levels + 1) (Registry.define name .type (object d scope)) := by
  intro c ht offers room
  cases present : c.registry.slots.find? name with
  | some slot =>
      have held : slot.owner = .type := by
        rw [← ht, Registry.taken, Registry.owner?, present, Option.map_some] at free
        cases held : slot.owner <;> simp_all
      exact ⟨_, c, Registry.define_ok_iff.2 ⟨rfl, .inl ⟨slot, present, held, rfl⟩⟩⟩
  | none =>
      have new := Dict.find?_eq_none_iff.1 present
      have more : c.registry.slots.keys ⊆
          Dict.keys (c.registry.slots ++ [(name, Slot.mk .type .pending)]) := by
        rw [Dict.keys_append]
        exact List.subset_append_left _ _
      have less : k.types.room (Dict.keys (c.registry.slots ++ [(name, Slot.mk .type .pending)])) <
          k.types.room c.registry.slots.keys :=
        TypeSystem.room_lt_of_subset more (Dict.mem_keys_of_find? found) new
          (by simp [Dict.keys])
      have ht1 : Registry.taken ⟨c.registry.slots ++ [(name, Slot.mk .type .pending)]⟩ = taken := by
        rw [← ht]
        exact c.registry.taken_append_types (by simp)
      obtain ⟨body, c1, produced⟩ := h (HoldsRegistry.withRegistry c
        ⟨c.registry.slots ++ [(name, Slot.mk .type .pending)]⟩) ht1
        (fun key isAlternative => more (offers key isAlternative)) (Nat.lt_of_lt_of_le less
          (Nat.le_of_lt_succ room))
      obtain ⟨_, added, slots, _⟩ := spec d scope _ body c1 ht1 produced
      have pending : c1.registry.slots.find? name = some ⟨.type, .pending⟩ := by
        rw [slots, Dict.find?_append]
        simp [HoldsRegistry.withRegistry, Dict.find?_append, present, Dict.find?_cons]
      exact ⟨_, _, Registry.define_ok_iff.2 ⟨rfl, .inr ⟨present, body, c1, produced,
        Registry.resolve_ok_iff.2 ⟨_, pending, rfl, rfl⟩⟩⟩⟩

theorem succeeds_name (name : String) (scope : Nat) (spec : k.GivesObjects taken object)
    (h : ∀ d scope, k.Succeeds taken levels (object d scope)) :
    k.Succeeds taken (levels + 1) (k.compileName object name scope) := by
  cases found : k.types.find? name with
  | none =>
      simp only [compileName, found]
      exact succeeds_any scope _
  | some d =>
      by_cases isObject : d.isObject = true
      · intro c ht offers room
        cases held : taken name with
        | true =>
            obtain ⟨owner, same⟩ : ∃ owner, k.compileName object name scope c =
                compileName.clash name scope owner c :=
              compileName_of_taken found isObject (by rw [ht, held]) scope
            rw [same]
            exact succeeds_any scope _ c ht offers room
        | false =>
            rw [compileName_of_not_taken found isObject (by rw [ht, held])]
            have opened : k.Succeeds taken (levels + 1)
                (Compile.child scope d.kind.text name) := fun _ _ _ _ => ⟨_, _, rfl⟩
            exact opened.bind (keepsRegistry_child scope _ name).advances
              (fun inner => succeeds_define found held inner spec (h d inner)) c ht offers room
      · cases d with
        | classDef _ | interfaceDef _ => simp [Definition.isObject] at isObject
        | enumDef e =>
            simp only [compileName, found]
            exact succeeds_pure _

mutual

theorem succeeds_reference (spec : k.GivesObjects taken object)
    (h : ∀ d scope, k.Succeeds taken levels (object d scope)) (scope : Nat) :
    (type : TypeRef) → k.Succeeds taken (levels + 1) (k.compileWith object type scope)
  | .primitive p => by
      rw [compileWith]
      exact succeeds_pure _
  | .named name => by
      rw [compileWith]
      exact succeeds_name name scope spec h
  | .union members => by
      rw [compileWith]
      exact (succeeds_each spec h scope members).bind (gives_each spec scope members).advances
        fun _ => succeeds_pure _
  | .collection _ element => by
      rw [compileWith]
      exact (succeeds_reference spec h scope element).bind
        (gives_reference spec scope element).advances fun _ => succeeds_pure _
  | .unsupported raw => by
      rw [compileWith]
      exact succeeds_any scope _

theorem succeeds_each (spec : k.GivesObjects taken object)
    (h : ∀ d scope, k.Succeeds taken levels (object d scope)) (scope : Nat) :
    (types : List TypeRef) → k.Succeeds taken (levels + 1) (k.compileEach object types scope)
  | [] => by
      rw [compileEach]
      exact succeeds_pure _
  | type :: rest => by
      rw [compileEach]
      exact (succeeds_reference spec h scope type).bind (gives_reference spec scope type).advances
        fun _ => (succeeds_each spec h scope rest).bind (gives_each spec scope rest).advances
          fun _ => succeeds_pure _

end

/-- The alternative is found where it is registered. -/
theorem succeeds_alternative (schema : Json) :
    k.Succeeds taken levels (k.offerAlternative schema) := by
  intro c _ offers _
  unfold offerAlternative
  cases alternative : k.alternative with
  | none => exact ⟨_, c, rfl⟩
  | some key =>
      have registered : c.registry.contains key = true :=
        Dict.contains_iff.2 (offers key alternative)
      refine ⟨Fragment.anyOf [schema, reference key], c, Work.bind_ok_iff.2 ⟨_, c, rfl, ?_⟩⟩
      rw [if_pos registered]
      rfl

theorem succeeds_properties (spec : k.GivesObjects taken object)
    (h : ∀ d scope, k.Succeeds taken levels (object d scope)) (scope : Nat)
    (properties : Dict Property) :
    k.Succeeds taken (levels + 1) (k.compileProperties object scope properties) := by
  induction properties with
  | nil => exact succeeds_pure _
  | cons p rest ih =>
      exact (succeeds_reference spec h scope p.2.type).bind
        (gives_reference spec scope p.2.type).advances fun schema =>
          (succeeds_alternative schema).bind (gives_alternative schema).advances fun _ =>
            ih.bind (gives_properties spec scope rest).advances fun _ => succeeds_pure _

/-- The body of a type is compiled, when there are more levels than types left to enter. -/
theorem succeeds_objects (levels : Nat) (d : Definition) (scope : Nat) :
    k.Succeeds taken levels (k.compileObject levels d scope) := by
  induction levels generalizing d scope with
  | zero => exact fun _ _ _ room => absurd room (Nat.not_lt_zero _)
  | succ levels ih =>
      rw [compileObject]
      refine (succeeds_errors scope _ _).bind (keepsRegistry_errors scope _ _).advances fun _ => ?_
      refine (succeeds_errors scope _ _).bind (keepsRegistry_errors scope _ _).advances fun _ => ?_
      split
      · have warned : k.Succeeds taken (levels + 1)
            (Compile.warn scope markerInterfaceWarning) := fun _ _ _ _ => ⟨_, _, rfl⟩
        exact warned.bind (keepsRegistry_warn scope _).advances fun _ => succeeds_pure _
      · exact (succeeds_properties (gives_objects levels) ih scope _).bind
          (gives_properties (gives_objects levels) scope _).advances fun _ => succeeds_pure _

/-- Where the alternative is registered, every compilation succeeds. -/
theorem compile_succeeds (type : TypeRef) (scope : Nat) {c : Compilation}
    (offers : k.Offers c.registry) : ∃ schema c', k.compile type scope c = .ok schema c' := by
  refine succeeds_reference (gives_objects _) (succeeds_objects _) scope type c rfl offers ?_
  have room := k.types.room_le_size c.registry.slots.keys
  omega

end Compiler

end ManifestSchema
