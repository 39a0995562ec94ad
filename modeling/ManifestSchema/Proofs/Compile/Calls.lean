import ManifestSchema.Proofs.Compile.Progress

/-!
# Compilations inside each other

To compile a reference, the compiler compiles others: the members of a union one after the other,
the elements of a collection, and the properties of a type that is entered. What it does with a
reference depends on those alone, and each of them has less in front of it. Either it is a part of
the reference at hand, or the key of the type was reserved before the compiler looked at what the
type refers to.

Results:

1. `Compiler.compileWith_name` and `Compiler.compileWith_other`: what the compiler does, one level at
   a time;
2. `Compiler.step_congr`: a compilation depends on nothing but the compilations inside it;
3. `Compiler.Calls.descends`: what becomes smaller from a compilation to one inside it.
-/

namespace ManifestSchema

namespace TypeSystem

variable {ts : TypeSystem}

/-- The classes and interfaces of a type system. -/
def objects (ts : TypeSystem) : TypeSystem :=
  { ts with types := ts.types.filter fun p => p.2.isObject }

theorem mem_keys_objects {name : String} {d : Definition} (found : ts.find? name = some d)
    (isObject : d.isObject = true) : name ∈ ts.objects.types.keys :=
  List.mem_map_of_mem (f := Prod.fst) (List.mem_filter.2 ⟨Dict.mem_of_find? found, isObject⟩)

theorem size_objects_le (ts : TypeSystem) : ts.objects.size ≤ ts.size := List.length_filter_le _ _

end TypeSystem

/-- `part.PartOf whole`: the first reference is written inside the second one. -/
inductive TypeRef.PartOf : TypeRef → TypeRef → Prop
  | member {part : TypeRef} {members : List TypeRef} : part ∈ members → PartOf part (.union members)
  | element {kind : CollectionKind} {part : TypeRef} : PartOf part (.collection kind part)

theorem TypeRef.PartOf.sizeOf_lt {part whole : TypeRef} (h : part.PartOf whole) :
    sizeOf part < sizeOf whole := by
  cases h with
  | member member =>
      have := List.sizeOf_lt_of_mem member
      rw [TypeRef.union.sizeOf_spec]
      omega
  | element =>
      rw [TypeRef.collection.sizeOf_spec]
      omega

namespace Compiler

variable {k : Compiler}

/-! ## One level of the compilation -/

/-- How references are compiled, each in a scope. -/
abbrev Recursion := TypeRef → Nat → Compile Json

/-- Compile references in order. -/
def each (rec : Recursion) (scope : Nat) : List TypeRef → Compile (List Json)
  | [] => pure []
  | type :: rest => do
      let schema ← rec type scope
      let others ← each rec scope rest
      return schema :: others

/-- Compile properties in order, each to its name and schema. -/
def eachProperty (k : Compiler) (rec : Recursion) (scope : Nat) :
    Dict Property → Compile (Dict Json)
  | [] => pure []
  | (name, p) :: rest => do
      let schema ← rec p.type scope
      let schema ← k.offerAlternative schema
      let others ← k.eachProperty rec scope rest
      return (name, Fragment.describe p.summary schema) :: others

/-- Note what is wrong with the ancestors of a type. -/
def noteAncestors (k : Compiler) (d : Definition) (scope : Nat) : Compile Unit := do
  Compile.errors scope "inheritance cycle through " (k.types.flatten d).cycles
  Compile.errors scope "unresolvable base type " (k.types.flatten d).unresolved

/-- Compile the body of a class or interface, where its properties are compiled with `rec`. -/
def objectStep (k : Compiler) (rec : Recursion) (d : Definition) (scope : Nat) :
    Compile Json := do
  k.noteAncestors d scope
  if k.types.isMarker d then
    Compile.warn scope markerInterfaceWarning
    return Fragment.ofType "object"
  let properties ← k.eachProperty rec scope (k.types.flatten d).properties
  return Fragment.object properties (requiredNames (k.types.flatten d).properties) d.summary

/-- Compile a reference, where the references that it leads to are compiled with `rec`. -/
def step (k : Compiler) (rec : Recursion) : Recursion
  | .primitive p, _ => pure (Fragment.primitive p)
  | .named fqn, scope => k.compileName (k.objectStep rec) fqn scope
  | .union members, scope => do return Fragment.anyOf (← each rec scope members)
  | .collection kind element, scope => do return Fragment.collection kind (← rec element scope)
  | .unsupported raw, scope => do
      Compile.error scope ("unsupported type reference " ++ raw.compact)
      return Fragment.any

variable {object : Definition → Nat → Compile Json}

theorem compileEach_eq (object : Definition → Nat → Compile Json) (scope : Nat)
    (types : List TypeRef) :
    k.compileEach object types scope = each (k.compileWith object) scope types := by
  induction types with
  | nil => rw [compileEach, each]
  | cons type rest ih => rw [compileEach, each, ih]

theorem compileProperties_eq (object : Definition → Nat → Compile Json) (scope : Nat)
    (properties : Dict Property) :
    k.compileProperties object scope properties =
      k.eachProperty (k.compileWith object) scope properties := by
  induction properties with
  | nil => rfl
  | cons p rest ih => rw [compileProperties, eachProperty, ih]

theorem compileObject_succ (levels : Nat) :
    k.compileObject (levels + 1) = k.objectStep (k.compileWith (k.compileObject levels)) := by
  funext d scope
  rw [compileObject, objectStep, noteAncestors]
  simp only [compileProperties_eq, bind_assoc]
  rfl

/-- A name needs one level more than the types behind it. -/
theorem compileWith_name (levels : Nat) (name : String) :
    k.compileWith (k.compileObject (levels + 1)) (.named name) =
      k.step (k.compileWith (k.compileObject levels)) (.named name) := by
  funext scope
  rw [compileWith, compileObject_succ, step]

theorem compileWith_other {type : TypeRef} (other : type.fqn? = none) :
    k.compileWith object type = k.step (k.compileWith object) type := by
  funext scope
  cases type with
  | named name => cases other
  | primitive p => rw [compileWith, step]
  | union members => rw [compileWith, step, compileEach_eq]
  | collection kind element => rw [compileWith, step]
  | unsupported raw => rw [compileWith, step]

/-! ## Compilations inside each other -/

/-- What the compiler is asked: a reference, the scope, and what has been produced so far. -/
structure Call where
  type : TypeRef
  scope : Nat
  state : Compilation

/-- What is done about a type whose key is new before its properties are compiled. -/
def enter (k : Compiler) (name : String) (d : Definition) (scope : Nat) : Compile Nat := do
  let inner ← Compile.child scope d.kind.text name
  let _ ← Registry.reserve name .type
  k.noteAncestors d inner
  return inner

/-- `k.Calls rec outer inner`: when the references inside are compiled with `rec`, the compilation
of `outer` comes to that of `inner`, after all that stands before it has succeeded. -/
inductive Calls (k : Compiler) (rec : Recursion) : Call → Call → Prop
  | member {before after : List TypeRef} {type : TypeRef} {scope : Nat} {c c' : Compilation}
      {schemas : List Json} : each rec scope before c = .ok schemas c' →
      Calls k rec ⟨.union (before ++ type :: after), scope, c⟩ ⟨type, scope, c'⟩
  | element {kind : CollectionKind} {type : TypeRef} {scope : Nat} {c : Compilation} :
      Calls k rec ⟨.collection kind type, scope, c⟩ ⟨type, scope, c⟩
  | property {name : String} {d : Definition} {scope inner : Nat} {c c1 c2 : Compilation}
      {before after : Dict Property} {label : String} {p : Property} {schemas : Dict Json} :
      k.types.find? name = some d → d.isObject = true →
      c.registry.slots.find? name = none → k.enter name d scope c = .ok inner c1 →
      (k.types.flatten d).properties = before ++ (label, p) :: after →
      k.eachProperty rec inner before c1 = .ok schemas c2 →
      Calls k rec ⟨.named name, scope, c⟩ ⟨p.type, inner, c2⟩

/-- The properties of a type are asked for one after the other once its key has been reserved. -/
theorem Calls.after {rec : Recursion} {name : String} {d : Definition} {scope inner : Nat}
    {c c0 c1 c2 c3 : Compilation} {before rest : Dict Property} {label : String} {p : Property}
    {schemas : Dict Json} (found : k.types.find? name = some d) (isObject : d.isObject = true)
    (opened : Compile.child scope d.kind.text name c = .ok inner c0)
    (reserved : Registry.reserve name .type c0 = .ok true c1)
    (noted : k.noteAncestors d inner c1 = .ok () c2)
    (split : (k.types.flatten d).properties = before ++ (label, p) :: rest)
    (done : k.eachProperty rec inner before c2 = .ok schemas c3) :
    k.Calls rec ⟨.named name, scope, c⟩ ⟨p.type, inner, c3⟩ := by
  have entered : k.enter name d scope c = .ok inner c2 :=
    Work.bind_ok_iff.2 ⟨inner, c0, opened, Work.bind_ok_iff.2 ⟨true, c1, reserved,
      Work.bind_ok_iff.2 ⟨(), c2, noted, rfl⟩⟩⟩
  have new : c.registry.slots.find? name = none := by
    cases opened
    obtain ⟨_, _, _, no, _⟩ | ⟨missing, _⟩ := Registry.reserve_ok_iff.1 reserved
    · cases no
    · exact missing
  exact .property found isObject new entered split done

/-- Two ways to compile references do the same with what is asked. -/
def SameOn (rec rec' : Recursion) (call : Call) : Prop :=
  rec call.type call.scope call.state = rec' call.type call.scope call.state

section Congruence

variable {rec rec' : Recursion} {scope : Nat}

theorem each_congr : {types : List TypeRef} → {c : Compilation} →
    (∀ before type after schemas c', types = before ++ type :: after →
      each rec scope before c = .ok schemas c' → SameOn rec rec' ⟨type, scope, c'⟩) →
    each rec scope types c = each rec' scope types c
  | [], _, _ => rfl
  | type :: rest, c, agree => by
      refine Work.bind_congr (agree [] type rest [] c rfl rfl) fun schema c1 first => ?_
      refine Work.bind_congr (each_congr fun before type' after schemas c' split done => ?_)
        fun _ _ _ => rfl
      refine agree (type :: before) type' after (schema :: schemas) c' (by rw [split]; rfl) ?_
      exact Work.bind_ok_iff.2 ⟨schema, c1, first, Work.bind_ok_iff.2 ⟨schemas, c', done, rfl⟩⟩

theorem eachProperty_congr : {properties : Dict Property} → {c : Compilation} →
    (∀ before label p after schemas c', properties = before ++ (label, p) :: after →
      k.eachProperty rec scope before c = .ok schemas c' → SameOn rec rec' ⟨p.type, scope, c'⟩) →
    k.eachProperty rec scope properties c = k.eachProperty rec' scope properties c
  | [], _, _ => rfl
  | (label, p) :: rest, c, agree => by
      refine Work.bind_congr (agree [] label p rest [] c rfl rfl) fun schema c1 first => ?_
      refine Work.bind_congr rfl fun offered c2 second => ?_
      refine Work.bind_congr
        (eachProperty_congr fun before label' p' after schemas c' split done => ?_) fun _ _ _ => rfl
      refine agree ((label, p) :: before) label' p' after
        ((label, Fragment.describe p.summary offered) :: schemas) c' (by rw [split]; rfl) ?_
      exact Work.bind_ok_iff.2 ⟨schema, c1, first, Work.bind_ok_iff.2 ⟨offered, c2, second,
        Work.bind_ok_iff.2 ⟨schemas, c', done, rfl⟩⟩⟩

/-- A type leads to its properties when its key is new, and to nothing when it is not. -/
theorem define_congr {name : String} {d : Definition} {c : Compilation}
    (found : k.types.find? name = some d) (isObject : d.isObject = true)
    (agree : ∀ inner, k.Calls rec ⟨.named name, scope, c⟩ inner → SameOn rec rec' inner) :
    (Compile.child scope d.kind.text name >>= fun inner =>
        Registry.define name .type (k.objectStep rec d inner)) c =
      (Compile.child scope d.kind.text name >>= fun inner =>
        Registry.define name .type (k.objectStep rec' d inner)) c := by
  refine Work.bind_congr rfl fun inner c0 opened => ?_
  refine Registry.define_congr fun c1 reserved => ?_
  refine Work.bind_congr rfl fun _ c2 noted => ?_
  split
  · rfl
  refine Work.bind_congr (eachProperty_congr fun before label p after schemas c3 split done => ?_)
    fun _ _ _ => rfl
  exact agree _ (.after found isObject opened reserved noted split done)

theorem compileName_congr {name : String} {c : Compilation}
    (agree : ∀ inner, k.Calls rec ⟨.named name, scope, c⟩ inner → SameOn rec rec' inner) :
    k.compileName (k.objectStep rec) name scope c =
      k.compileName (k.objectStep rec') name scope c := by
  cases found : k.types.find? name with
  | none => simp only [compileName, found]
  | some d =>
      cases d with
      | enumDef e => simp only [compileName, found]
      | classDef _ | interfaceDef _ =>
          simp only [compileName, found]
          refine Work.bind_congr rfl fun r c' read => ?_
          cases read
          cases c.registry.owner? name with
          | none => exact define_congr found rfl agree
          | some owner =>
              cases owner with
              | resource | extension => rfl
              | type => exact define_congr found rfl agree

/-- A compilation depends on nothing but the compilations inside it. -/
theorem step_congr {type : TypeRef} {c : Compilation}
    (agree : ∀ inner, k.Calls rec ⟨type, scope, c⟩ inner → SameOn rec rec' inner) :
    k.step rec type scope c = k.step rec' type scope c := by
  cases type with
  | primitive p => rfl
  | unsupported raw => rfl
  | named name => exact compileName_congr agree
  | collection kind element =>
      exact Work.bind_congr (agree ⟨element, scope, c⟩ .element) fun _ _ _ => rfl
  | union members =>
      refine Work.bind_congr (each_congr fun before type after schemas c' split done => ?_)
        fun _ _ _ => rfl
      subst split
      exact agree _ (.member done)

end Congruence

/-! ## What becomes smaller -/

/-- `work` takes nothing out of the registry. -/
def Adds {α : Type} (work : Compile α) : Prop :=
  ∀ c a c', work c = .ok a c' → c.registry.slots.keys ⊆ c'.registry.slots.keys

theorem adds_of_advances {α : Type} {work : Compile α} (h : ∀ taken, Advances taken work) :
    Adds work := fun c a c' done => (h c.registry.taken c a c' rfl done).2

theorem adds_compileWith (levels : Nat) (type : TypeRef) (scope : Nat) :
    Adds (k.compileWith (k.compileObject levels) type scope) :=
  adds_of_advances fun _ => (gives_reference (gives_objects levels) scope type).advances

section Measure

variable {rec : Recursion} {scope : Nat}

theorem Adds.each (adds : ∀ type scope, Adds (rec type scope)) (types : List TypeRef) :
    Adds (each rec scope types) := by
  induction types with
  | nil =>
      intro c a c' done
      rw [← (Work.pure_ok_iff.1 done).2]
      exact fun _ => id
  | cons type rest ih =>
      intro c a c' done
      obtain ⟨_, c1, first, done⟩ := Work.bind_ok_iff.1 done
      obtain ⟨_, c2, others, done⟩ := Work.bind_ok_iff.1 done
      obtain ⟨_, rfl⟩ := Work.pure_ok_iff.1 done
      exact fun _ h => ih _ _ _ others (adds _ _ _ _ _ first h)

theorem Adds.eachProperty (adds : ∀ type scope, Adds (rec type scope))
    (properties : Dict Property) : Adds (k.eachProperty rec scope properties) := by
  induction properties with
  | nil =>
      intro c a c' done
      rw [← (Work.pure_ok_iff.1 done).2]
      exact fun _ => id
  | cons p rest ih =>
      intro c a c' done
      obtain ⟨schema, c1, first, done⟩ := Work.bind_ok_iff.1 done
      obtain ⟨_, c2, second, done⟩ := Work.bind_ok_iff.1 done
      obtain ⟨_, c3, others, done⟩ := Work.bind_ok_iff.1 done
      obtain ⟨_, rfl⟩ := Work.pure_ok_iff.1 done
      have kept := adds_of_advances (fun _ => (gives_alternative schema).advances) _ _ _ second
      exact fun _ h => ih _ _ _ others (kept (adds _ _ _ _ _ first h))

/-- Entering a type reserves its key. -/
theorem slots_enter {name : String} {d : Definition} {inner : Nat} {c c' : Compilation}
    (new : c.registry.slots.find? name = none) (done : k.enter name d scope c = .ok inner c') :
    c'.registry.slots = c.registry.slots ++ [(name, ⟨.type, .pending⟩)] := by
  obtain ⟨_, c1, opened, done⟩ := Work.bind_ok_iff.1 done
  obtain ⟨_, c2, reserved, done⟩ := Work.bind_ok_iff.1 done
  obtain ⟨_, c3, noted, done⟩ := Work.bind_ok_iff.1 done
  obtain ⟨_, rfl⟩ := Work.pure_ok_iff.1 done
  obtain ⟨_, c4, cycles, unresolved⟩ := Work.bind_ok_iff.1 noted
  rw [keepsRegistry_errors _ _ _ _ _ _ unresolved, keepsRegistry_errors _ _ _ _ _ _ cycles]
  have same := keepsRegistry_child _ _ _ _ _ _ opened
  obtain ⟨_, found, _⟩ | ⟨_, _, rfl⟩ := Registry.reserve_ok_iff.1 reserved
  · have found : c1.registry.slots.find? name = _ := found
    rw [same, new] at found
    cases found
  · exact congrArg (fun r : Registry => r.slots ++ [(name, Slot.mk .type .pending)]) same

/-- The number of classes and interfaces whose keys are not in the registry. -/
def vacancies (k : Compiler) (c : Compilation) : Nat :=
  k.types.objects.room c.registry.slots.keys

theorem vacancies_le_size (k : Compiler) (c : Compilation) : k.vacancies c ≤ k.types.size :=
  Nat.le_trans (TypeSystem.room_le_size _ _) k.types.size_objects_le

/-- A compilation inside another one is that of a part of the reference, where no class or interface
has lost its key, or one of them has got its key in between. -/
theorem Calls.descends {outer inner : Call} (adds : ∀ type scope, Adds (rec type scope))
    (h : k.Calls rec outer inner) :
    (inner.type.PartOf outer.type ∧ k.vacancies inner.state ≤ k.vacancies outer.state) ∨
      k.vacancies inner.state < k.vacancies outer.state := by
  cases h with
  | member done =>
      exact .inl ⟨.member (by simp), TypeSystem.room_le_of_subset (Adds.each adds _ _ _ _ done)⟩
  | element => exact .inl ⟨.element, Nat.le_refl _⟩
  | property found isObject new entered split done =>
      have more := Adds.eachProperty adds _ _ _ _ done
      rw [slots_enter new entered, Dict.keys_append] at more
      refine .inr (TypeSystem.room_lt_of_subset (fun _ h => more (List.mem_append_left _ h))
        (TypeSystem.mem_keys_objects found isObject) (Dict.find?_eq_none_iff.1 new) (more ?_))
      exact List.mem_append_right _ List.mem_cons_self

/-- Calls in the order of what becomes smaller: the vacancies first, then the reference. -/
def Below (k : Compiler) (inner outer : Call) : Prop :=
  Prod.Lex (· < ·) (· < ·) (k.vacancies inner.state, sizeOf inner.type)
    (k.vacancies outer.state, sizeOf outer.type)

theorem below_wf (k : Compiler) : WellFounded k.Below :=
  InvImage.wf (fun call : Call => (k.vacancies call.state, sizeOf call.type))
    (Prod.lex Nat.lt_wfRel Nat.lt_wfRel).wf

theorem Calls.below {outer inner : Call} (adds : ∀ type scope, Adds (rec type scope))
    (h : k.Calls rec outer inner) : k.Below inner outer := by
  rw [Below, Prod.lex_def]
  obtain ⟨part, notMore⟩ | less := h.descends adds
  · have smaller := part.sizeOf_lt
    exact (Nat.lt_or_eq_of_le notMore).imp_right fun same => ⟨same, smaller⟩
  · exact .inl less

theorem Calls.not_more {outer inner : Call}
    (adds : ∀ type scope, Adds (rec type scope)) (h : k.Calls rec outer inner) :
    k.vacancies inner.state ≤ k.vacancies outer.state := by
  obtain ⟨_, notMore⟩ | less := h.descends adds
  · exact notMore
  · exact Nat.le_of_lt less

theorem Calls.less_of_name {name : String} {c : Compilation}
    {inner : Call} (adds : ∀ type scope, Adds (rec type scope))
    (h : k.Calls rec ⟨.named name, scope, c⟩ inner) : k.vacancies inner.state < k.vacancies c := by
  obtain ⟨part, _⟩ | less := h.descends adds
  · cases part
  · exact less

end Measure

end Compiler

end ManifestSchema
