import Mathlib.Data.List.Chain
import ManifestSchema.Proofs.Compile.Termination

/-!
# Definitions that are left pending

A compilation that succeeds leaves no definition of its own without a body. One that fails does so
at a property, where the alternative is missing, and unwinds through the types that it has begun:
those, and no others, are pending in the end. Each of them was begun because the one before it has a
property that names it.

Results:

1. `Compiler.compile_error`: a compilation fails inside a chain of compilations (`BreaksOff`), at a
   property next to which the alternative cannot be offered (`Misses`);
2. `Compiler.BreaksOff.suspends`: the types that were begun in the chain are left pending;
3. `Compiler.compile_suspends`: what a compilation leaves pending, whether it succeeds or fails.
-/

namespace ManifestSchema

namespace Registry

/-! ## Suspended definitions -/

/-- `r.Suspends chain r'`: behind the entries of `r` there are entries of types in `r'`, under new
keys. Those of `chain` are pending, in this order, and the others have their bodies. -/
def Suspends (r : Registry) (chain : List String) (r' : Registry) : Prop :=
  ∃ added : Dict Slot, r'.slots = r.slots ++ added ∧ (∀ p ∈ added, p.2.owner = .type) ∧
    (added.Distinct ∧ ∀ key ∈ added.keys, key ∉ r.slots.keys) ∧ pending ⟨added⟩ = chain

variable {r r' r'' : Registry} {chain chain' : List String}

theorem Suspends.refl (r : Registry) : r.Suspends [] r :=
  ⟨[], by simp, by simp, ⟨List.nodup_nil, by simp [Dict.keys]⟩, rfl⟩

theorem Suspends.trans (h : r.Suspends chain r') (h' : r'.Suspends chain' r'') :
    r.Suspends (chain ++ chain') r'' := by
  obtain ⟨added, slots, types, ⟨distinct, fresh⟩, rfl⟩ := h
  obtain ⟨added', slots', types', ⟨distinct', fresh'⟩, rfl⟩ := h'
  rw [slots, Dict.keys_append] at fresh'
  refine ⟨added ++ added', by rw [slots', slots, List.append_assoc], ?_, ⟨?_, ?_⟩,
    pending_append ⟨added⟩ added'⟩
  · exact fun p hp => (List.mem_append.1 hp).elim (types p) (types' p)
  · rw [Dict.Distinct, Dict.keys_append]
    refine List.nodup_append.2 ⟨distinct, distinct', ?_⟩
    rintro key first _ second rfl
    exact fresh' key second (List.mem_append_right _ first)
  · intro key member
    rw [Dict.keys_append] at member
    rcases List.mem_append.1 member with member | member
    · exact fresh key member
    · exact fun before => fresh' key member (List.mem_append_left _ before)

/-- A key that was reserved and has no body yet is suspended. -/
theorem Suspends.reserve {name : String} (new : r.slots.find? name = none)
    (slots : r'.slots = r.slots ++ [(name, ⟨.type, .pending⟩)]) : r.Suspends [name] r' := by
  refine ⟨_, slots, by simp, ⟨List.pairwise_singleton _ _, ?_⟩, rfl⟩
  intro key member
  rw [List.mem_singleton.1 member]
  exact Dict.find?_eq_none_iff.1 new

theorem Suspends.pending_eq (h : r.Suspends chain r') : r'.pending = r.pending ++ chain := by
  obtain ⟨added, slots, _, _, rfl⟩ := h
  rw [← pending_append, ← slots]

/-! ## Failures -/

variable {σ : Type} [HoldsRegistry σ] {s s' : σ} {key alternative : String} {owner : Owner}

theorem reserve_ne_missing :
    Registry.reserve key owner s ≠ .error (.missingAlternative alternative) s' := by
  simp only [reserve]
  split
  · split <;> simp
  · simp

theorem resolve_ne_missing {body : Json} :
    Registry.resolve key body s ≠ .error (.missingAlternative alternative) s' := by
  simp only [resolve]
  split
  · simp
  · split <;> simp

/-- The alternative is missing only where the body of a new key is produced. -/
theorem define_missing {produce : Work σ Json}
    (failed : define key owner produce s = .error (.missingAlternative alternative) s') :
    ∃ s1, reserve key owner s = .ok true s1 ∧
      produce s1 = .error (.missingAlternative alternative) s' := by
  rcases Work.bind_error_iff.1 failed with failed | ⟨new, s1, reserved, failed⟩
  · exact absurd failed reserve_ne_missing
  cases new with
  | false => cases failed
  | true =>
      refine ⟨s1, reserved, ?_⟩
      rcases Work.bind_error_iff.1 failed with failed | ⟨body, s2, _, failed⟩
      · exact failed
      · rcases Work.bind_error_iff.1 failed with failed | ⟨_, _, _, failed⟩
        · exact absurd failed resolve_ne_missing
        · cases failed

end Registry

namespace TypeSystem

/-- The name `inner` occurs in the type of a property of the class or interface `outer`. -/
def Refers (ts : TypeSystem) (outer inner : String) : Prop :=
  ∃ d, ts.find? outer = some d ∧ d.isObject = true ∧ inner ∈ ts.propertyNames d

end TypeSystem

namespace Compiler

variable {k : Compiler}

/-! ## Where a compilation fails -/

/-- The reference of a property is compiled, and then the alternative is not there to be offered
next to it. -/
def Misses (k : Compiler) (rec : Recursion) (alternative : String) (call : Call)
    (c' : Compilation) : Prop :=
  (∃ schema, rec call.type call.scope call.state = .ok schema c') ∧
    k.alternative = some alternative ∧ c'.registry.contains alternative = false

/-- `k.BreaksOff alternative call chain c'`: the alternative is missing inside the compilation of
`call`, and `c'` is what has been produced until then. The types of `chain` have been begun inside
each other, the last of them has the property at which the alternative is missing. -/
inductive BreaksOff (k : Compiler) (alternative : String) : Call → List String → Compilation → Prop
  | here {name : String} {scope : Nat} {c c' : Compilation} {inner : Call} :
      k.Calls k.compile ⟨.named name, scope, c⟩ inner → k.Misses k.compile alternative inner c' →
      BreaksOff k alternative ⟨.named name, scope, c⟩ [name] c'
  | property {name : String} {scope : Nat} {c c' : Compilation} {inner : Call}
      {chain : List String} : k.Calls k.compile ⟨.named name, scope, c⟩ inner →
      BreaksOff k alternative inner chain c' →
      BreaksOff k alternative ⟨.named name, scope, c⟩ (name :: chain) c'
  | part {outer inner : Call} {chain : List String} {c' : Compilation} :
      outer.type.fqn? = none → k.Calls k.compile outer inner →
      BreaksOff k alternative inner chain c' → BreaksOff k alternative outer chain c'

section Failures

variable {rec : Recursion} {scope inner : Nat} {c c' : Compilation} {e : EngineError}
  {alternative name : String}

theorem each_error : {types : List TypeRef} → {c : Compilation} →
    each rec scope types c = .error e c' →
    ∃ before type after schemas c1, types = before ++ type :: after ∧
      each rec scope before c = .ok schemas c1 ∧ rec type scope c1 = .error e c'
  | [], _, failed => nomatch failed
  | type :: rest, c, failed => by
      rcases Work.bind_error_iff.1 failed with failed | ⟨schema, c1, first, failed⟩
      · exact ⟨[], type, rest, [], c, rfl, rfl, failed⟩
      rcases Work.bind_error_iff.1 failed with failed | ⟨_, _, _, failed⟩
      · obtain ⟨before, type', after, schemas, c2, rfl, done, failed⟩ := each_error failed
        refine ⟨type :: before, type', after, schema :: schemas, c2, rfl, ?_, failed⟩
        exact Work.bind_ok_iff.2 ⟨schema, c1, first, Work.bind_ok_iff.2 ⟨schemas, c2, done, rfl⟩⟩
      · cases failed

theorem offerAlternative_error {schema : Json}
    (failed : k.offerAlternative schema c = .error (.missingAlternative alternative) c') :
    c' = c ∧ k.alternative = some alternative ∧ c.registry.contains alternative = false := by
  unfold offerAlternative at failed
  cases configured : k.alternative with
  | none =>
      rw [configured] at failed
      cases failed
  | some key =>
      simp only [configured] at failed
      rcases Work.bind_error_iff.1 failed with failed | ⟨r, c1, read, failed⟩
      · cases failed
      · cases read
        split at failed
        · cases failed
        · next absent =>
            cases failed
            exact ⟨rfl, rfl, Bool.eq_false_iff.2 absent⟩

theorem eachProperty_error : {properties : Dict Property} → {c : Compilation} →
    k.eachProperty rec scope properties c = .error (.missingAlternative alternative) c' →
    ∃ before label p after schemas c1, properties = before ++ (label, p) :: after ∧
      k.eachProperty rec scope before c = .ok schemas c1 ∧
      (rec p.type scope c1 = .error (.missingAlternative alternative) c' ∨
        k.Misses rec alternative ⟨p.type, scope, c1⟩ c')
  | [], _, failed => nomatch failed
  | (label, p) :: rest, c, failed => by
      rcases Work.bind_error_iff.1 failed with failed | ⟨schema, c1, first, failed⟩
      · exact ⟨[], label, p, rest, [], c, rfl, rfl, .inl failed⟩
      rcases Work.bind_error_iff.1 failed with failed | ⟨offered, c2, second, failed⟩
      · obtain ⟨rfl, misses⟩ := offerAlternative_error failed
        exact ⟨[], label, p, rest, [], c, rfl, rfl, .inr ⟨⟨schema, first⟩, misses⟩⟩
      rcases Work.bind_error_iff.1 failed with failed | ⟨_, _, _, failed⟩
      · obtain ⟨before, label', p', after, schemas, c3, rfl, done, stops⟩ :=
          eachProperty_error failed
        refine ⟨(label, p) :: before, label', p', after,
          (label, Fragment.describe p.summary offered) :: schemas, c3, rfl, ?_, stops⟩
        exact Work.bind_ok_iff.2 ⟨schema, c1, first, Work.bind_ok_iff.2 ⟨offered, c2, second,
          Work.bind_ok_iff.2 ⟨schemas, c3, done, rfl⟩⟩⟩
      · cases failed

theorem errors_ne_error {lead : String} {names : List String} :
    Compile.errors scope lead names c ≠ .error e c' := by
  induction names generalizing c with
  | nil => exact nofun
  | cons name rest ih =>
      intro failed
      rcases Work.bind_error_iff.1 failed with failed | ⟨_, c1, _, failed⟩
      · cases failed
      · exact ih failed

theorem noteAncestors_ne_error {d : Definition} : k.noteAncestors d scope c ≠ .error e c' := by
  intro failed
  rcases Work.bind_error_iff.1 failed with failed | ⟨_, _, _, failed⟩
  · exact errors_ne_error failed
  · exact errors_ne_error failed

theorem any_ne_error {message : String} :
    (do Compile.error scope message; return Fragment.any : Compile Json) c ≠ .error e c' := nofun

/-- The body of a type fails where its properties do. -/
theorem objectStep_error {d : Definition}
    (failed : k.objectStep rec d scope c = .error e c') :
    ∃ c1, k.noteAncestors d scope c = .ok () c1 ∧
      k.eachProperty rec scope (k.types.flatten d).properties c1 = .error e c' := by
  rcases Work.bind_error_iff.1 failed with failed | ⟨_, c1, noted, failed⟩
  · exact absurd failed noteAncestors_ne_error
  refine ⟨c1, noted, ?_⟩
  split at failed
  · cases failed
  · rcases Work.bind_error_iff.1 failed with failed | ⟨_, _, _, failed⟩
    · exact failed
    · cases failed

/-- A name fails only when it is that of a type that is begun. -/
theorem compileName_missing (failed : k.compileName (k.objectStep rec) name scope c =
      .error (.missingAlternative alternative) c') :
    ∃ d inner c0 c1, k.types.find? name = some d ∧ d.isObject = true ∧
      Compile.child scope d.kind.text name c = .ok inner c0 ∧
      Registry.reserve name .type c0 = .ok true c1 ∧
      k.objectStep rec d inner c1 = .error (.missingAlternative alternative) c' := by
  cases found : k.types.find? name with
  | none =>
      simp only [compileName, found] at failed
      exact absurd failed any_ne_error
  | some d =>
      cases d with
      | enumDef e =>
          simp only [compileName, found] at failed
          cases failed
      | classDef _ | interfaceDef _ =>
          cases held : c.registry.taken name with
          | true =>
              obtain ⟨owner, same⟩ : ∃ owner, k.compileName (k.objectStep rec) name scope c =
                  compileName.clash name scope owner c := compileName_of_taken found rfl held scope
              rw [same] at failed
              exact absurd failed any_ne_error
          | false =>
              rw [compileName_of_not_taken found rfl held] at failed
              rcases Work.bind_error_iff.1 failed with failed | ⟨inner, c0, opened, failed⟩
              · cases failed
              · obtain ⟨c1, reserved, failed⟩ := Registry.define_missing failed
                exact ⟨_, inner, c0, c1, rfl, rfl, opened, reserved, failed⟩

/-- The alternative is missing inside a compilation that comes next, or at the property that was
compiled last. -/
theorem step_missing {call : Call} (failed : k.step rec call.type call.scope call.state =
      .error (.missingAlternative alternative) c') :
    ∃ inner, k.Calls rec call inner ∧
      (rec inner.type inner.scope inner.state = .error (.missingAlternative alternative) c' ∨
        (∃ name, call.type = .named name) ∧ k.Misses rec alternative inner c') := by
  obtain ⟨type, scope, c⟩ := call
  cases type with
  | primitive p => cases failed
  | unsupported raw => exact absurd failed any_ne_error
  | collection kind element =>
      rcases Work.bind_error_iff.1 failed with failed | ⟨_, _, _, failed⟩
      · exact ⟨_, .element, .inl failed⟩
      · cases failed
  | union members =>
      rcases Work.bind_error_iff.1 failed with failed | ⟨_, _, _, failed⟩
      · obtain ⟨before, type, after, schemas, c1, rfl, done, failed⟩ := each_error failed
        exact ⟨_, .member done, .inl failed⟩
      · cases failed
  | named name =>
      obtain ⟨d, inner, c0, c1, found, isObject, opened, reserved, failed⟩ :=
        compileName_missing failed
      obtain ⟨c2, noted, failed⟩ := objectStep_error failed
      obtain ⟨before, label, p, after, schemas, c3, split, done, stops⟩ :=
        eachProperty_error failed
      exact ⟨_, .after found isObject opened reserved noted split done,
        stops.imp_right fun misses => ⟨⟨name, rfl⟩, misses⟩⟩

end Failures

/-- The failure is handed up from compilation to compilation. -/
theorem exists_breaksOff {alternative : String} {c' : Compilation} {call : Call}
    (failed : k.compile call.type call.scope call.state =
      .error (.missingAlternative alternative) c') :
    ∃ chain, k.BreaksOff alternative call chain c' := by
  induction call using k.calls_wf.induction with
  | _ call ih =>
      rw [compile_step] at failed
      obtain ⟨inner, calls, failed | ⟨⟨name, named⟩, misses⟩⟩ := step_missing failed
      · obtain ⟨chain, breaks⟩ := ih inner calls failed
        obtain ⟨type, scope, c⟩ := call
        cases type with
        | named name => exact ⟨name :: chain, .property calls breaks⟩
        | primitive _ | union _ | collection _ _ | unsupported _ =>
            exact ⟨chain, .part rfl calls breaks⟩
      · obtain ⟨type, scope, c⟩ := call
        cases named
        exact ⟨[name], .here calls misses⟩

/-- A compilation that fails breaks off at a property, as the alternative is missing. -/
theorem compile_error {call : Call} {e : EngineError} {c' : Compilation}
    (failed : k.compile call.type call.scope call.state = .error e c') :
    ∃ alternative chain, k.alternative = some alternative ∧
      e = .missingAlternative alternative ∧ k.BreaksOff alternative call chain c' := by
  obtain ⟨_, _, done⟩ | ⟨alternative, _, configured, missing⟩ := k.ends_compile call
  · cases failed.symm.trans done
  · cases failed.symm.trans missing
    obtain ⟨chain, breaks⟩ := exists_breaksOff failed
    exact ⟨alternative, chain, configured, rfl, breaks⟩

/-! ## What is left pending -/

/-- Growth leaves nothing pending. -/
theorem Grows.suspends {taken : String → Bool} {names : List String} {r r' : Registry}
    (h : k.Grows taken names r r') : r.Suspends [] r' := by
  obtain ⟨added, slots, walk⟩ := h
  obtain ⟨_, same, nodup, fresh⟩ := walk.exists_added
  obtain rfl := List.append_cancel_left same
  refine ⟨_, slots, ?_, ⟨?_, ?_⟩, ?_⟩
  · intro p member
    obtain ⟨key, _, rfl⟩ := List.mem_map.1 member
    rfl
  · rwa [Dict.Distinct, keys_map_typeSlot]
  · rwa [keys_map_typeSlot]
  · simp [Registry.pending, typeSlot]

theorem suspends_of_compile {type : TypeRef} {scope : Nat} {schema : Json} {c c' : Compilation}
    (done : k.compile type scope c = .ok schema c') : c.registry.Suspends [] c'.registry :=
  (compile_gives type scope c schema c' rfl done).2.suspends

/-- When a compilation comes to one inside it, the registry has grown, behind the key of the type
that was entered, if one was. -/
theorem Calls.grows {outer inner : Call} (h : k.Calls k.compile outer inner) :
    ∃ r names, k.Grows r.taken names r inner.state.registry ∧
      ((outer.type.fqn? = none ∧ r = outer.state.registry) ∨
        ∃ name d, outer.type = .named name ∧ k.types.find? name = some d ∧ d.isObject = true ∧
          outer.state.registry.slots.find? name = none ∧
          r.slots = outer.state.registry.slots ++ [(name, ⟨.type, .pending⟩)]) := by
  have whole : k.compile = k.compileWith (k.compileObject (k.types.size + 1)) := rfl
  cases h with
  | element => exact ⟨_, [], .of_nothing rfl, .inl ⟨rfl, rfl⟩⟩
  | member done =>
      rw [whole, ← compileEach_eq] at done
      exact ⟨_, _, (gives_each (gives_objects _) _ _ _ _ _ rfl done).2, .inl ⟨rfl, rfl⟩⟩
  | @property name d _ _ _ _ _ _ _ _ _ _ found isObject new entered split done =>
      rw [whole, ← compileProperties_eq] at done
      exact ⟨_, _, (gives_properties (gives_objects _) _ _ _ _ _ rfl done).2,
        .inr ⟨name, d, rfl, found, isObject, new, slots_enter new entered⟩⟩

theorem Calls.suspends {outer inner : Call} (h : k.Calls k.compile outer inner) :
    outer.state.registry.Suspends outer.type.fqn?.toList inner.state.registry := by
  obtain ⟨r, names, grows, ⟨other, rfl⟩ | ⟨name, _, named, _, _, new, reserved⟩⟩ := h.grows
  · rw [other]
    exact grows.suspends
  · rw [named]
    exact (Registry.Suspends.reserve new reserved).trans grows.suspends

theorem BreaksOff.suspends {alternative : String} {call : Call} {chain : List String}
    {c' : Compilation} (h : k.BreaksOff alternative call chain c') :
    call.state.registry.Suspends chain c'.registry := by
  induction h with
  | here calls misses =>
      obtain ⟨⟨_, done⟩, _⟩ := misses
      exact calls.suspends.trans (suspends_of_compile done)
  | property calls _ ih => exact calls.suspends.trans ih
  | part other calls _ ih =>
      have nothing := calls.suspends
      rw [other] at nothing
      exact nothing.trans ih

/-! ## The chain -/

theorem Calls.refers {rec : Recursion} {name : String} {scope : Nat} {c : Compilation}
    {inner : Call} (h : k.Calls rec ⟨.named name, scope, c⟩ inner) :
    ∀ other ∈ inner.type.names, k.types.Refers name other := by
  cases h with
  | @property _ d _ _ _ _ _ before after label p _ found isObject _ _ split _ =>
      intro other occurs
      refine ⟨d, found, isObject, List.mem_flatMap.2 ⟨(label, p), ?_, occurs⟩⟩
      rw [split]
      exact List.mem_append_right _ List.mem_cons_self

theorem Calls.names_subset {rec : Recursion} {outer inner : Call} (h : k.Calls rec outer inner)
    (other : outer.type.fqn? = none) : inner.type.names ⊆ outer.type.names := by
  cases h with
  | member _ =>
      intro name occurs
      rw [TypeRef.names, TypeRef.namesOfAll_eq_flatMap]
      exact List.mem_flatMap.2 ⟨_, by simp, occurs⟩
  | element =>
      rw [TypeRef.names]
      exact List.Subset.refl _
  | property => cases other

/-- The first type of the chain occurs in the reference, each other one in the type of a property of
the one before it, and the last one has the property at which the alternative is missing. -/
theorem BreaksOff.chained {alternative : String} {call : Call} {chain : List String}
    {c' : Compilation} (h : k.BreaksOff alternative call chain c') :
    (∃ first rest, chain = first :: rest ∧ first ∈ call.type.names) ∧
      List.IsChain k.types.Refers chain ∧
      ∃ last scope c inner, chain.getLast? = some last ∧
        k.Calls k.compile ⟨.named last, scope, c⟩ inner ∧
        k.Misses k.compile alternative inner c' := by
  induction h with
  | @here name scope c c' inner calls misses =>
      refine ⟨⟨name, [], rfl, ?_⟩, .singleton _, name, scope, c, inner, rfl, calls, misses⟩
      rw [TypeRef.names]
      exact List.mem_singleton_self _
  | @property name scope c c' inner chain calls _ ih =>
      obtain ⟨⟨first, rest, rfl, occurs⟩, chained, last, ends⟩ := ih
      refine ⟨⟨name, _, rfl, ?_⟩, .cons_cons (calls.refers first occurs) chained, last, ends⟩
      rw [TypeRef.names]
      exact List.mem_singleton_self _
  | part other calls _ ih =>
      obtain ⟨⟨first, rest, rfl, occurs⟩, chained⟩ := ih
      exact ⟨⟨first, rest, rfl, calls.names_subset other occurs⟩, chained⟩

/-- A compilation that succeeds leaves what is pending as it was: it only adds definitions of types
behind those that are there, and each of them has its body. One that fails does so because the
alternative is missing. What was there before is as it was then, too, and the new definitions that
are pending are, in this order, those of a chain of types. The first of them occurs in the
reference, each other one in the type of a property of the one before it, and the last one has the
property next to which the alternative could not be offered. The other new definitions are those of
types as well, and have their bodies. -/
theorem compile_suspends (k : Compiler) (type : TypeRef) (scope : Nat) (c : Compilation) :
    (∀ schema c', k.compile type scope c = .ok schema c' →
      c.registry.Suspends [] c'.registry ∧ c'.registry.pending = c.registry.pending) ∧
    ∀ e c', k.compile type scope c = .error e c' →
      ∃ alternative chain, k.alternative = some alternative ∧
        e = .missingAlternative alternative ∧ c.registry.Suspends chain c'.registry ∧
        k.BreaksOff alternative ⟨type, scope, c⟩ chain c' ∧
        (∃ first rest, chain = first :: rest ∧ first ∈ type.names) ∧
        List.IsChain k.types.Refers chain ∧
        ∃ last scope' c1 inner, chain.getLast? = some last ∧
          k.Calls k.compile ⟨.named last, scope', c1⟩ inner ∧
          k.Misses k.compile alternative inner c' := by
  constructor
  · intro schema c' done
    have nothing := suspends_of_compile done
    exact ⟨nothing, by rw [nothing.pending_eq, List.append_nil]⟩
  · intro e c' failed
    have broken : ∃ alternative chain, k.alternative = some alternative ∧
        e = .missingAlternative alternative ∧ k.BreaksOff alternative ⟨type, scope, c⟩ chain c' :=
      compile_error failed
    obtain ⟨alternative, chain, configured, missing, breaks⟩ := broken
    exact ⟨alternative, chain, configured, missing, breaks.suspends, breaks, breaks.chained⟩

/-! ## An example -/

/-- The registry after a compilation in the outermost scope that failed. -/
def remains? (k : Compiler) (type : TypeRef) (c : Compilation) : Option Registry :=
  match k.compile type 0 c with
  | .ok _ _ => none
  | .error _ c' => some c'.registry

theorem exists_error_of_remains {type : TypeRef} {c : Compilation} {r : Registry}
    (h : k.remains? type c = some r) :
    ∃ e c', k.compile type 0 c = .error e c' ∧ c'.registry = r := by
  unfold remains? at h
  split at h
  · cases h
  · next e c' failed =>
      cases h
      exact ⟨e, c', failed, rfl⟩

end Compiler

namespace Shop

/-- A registry in which the entry of a root is pending, and nothing can be offered. -/
def bare : Compilation := ⟨⟨[("resource:shop.Order", ⟨.resource, .pending⟩)]⟩, .empty⟩

/-- A mark has no properties, so it is compiled before anything is missing. -/
def marked : TypeRef := .union [.named "shop.Mark", .collection .array (.named "shop.Order")]

end Shop

namespace Compiler

/-- In the shop, the alternative is missing at the first property of the lines, inside the first
property of orders. The mark has its body by then, and the root is pending as before. -/
theorem compile_suspends_shop : ∃ c',
    Shop.compiler.compile Shop.marked 0 Shop.bare =
      .error (.missingAlternative "Expression") c' ∧
    c'.registry.slots.keys = ["resource:shop.Order", "shop.Mark", "shop.Order", "shop.Line"] ∧
    c'.registry.pending = ["resource:shop.Order", "shop.Order", "shop.Line"] ∧
    Shop.compiler.BreaksOff "Expression" ⟨Shop.marked, 0, Shop.bare⟩
      ["shop.Order", "shop.Line"] c' := by
  have outcome : (Shop.compiler.remains? Shop.marked Shop.bare).map
      (fun r => (r.slots.keys, r.pending)) =
        some (["resource:shop.Order", "shop.Mark", "shop.Order", "shop.Line"],
          ["resource:shop.Order", "shop.Order", "shop.Line"]) := by decide +kernel
  obtain ⟨r, remains, parts⟩ := Option.map_eq_some_iff.1 outcome
  obtain ⟨keys, pending⟩ := Prod.mk.inj parts
  obtain ⟨_, c', failed, rfl⟩ := exists_error_of_remains remains
  obtain ⟨alternative, chain, configured, rfl, suspends, breaks, _⟩ :=
    (compile_suspends Shop.compiler Shop.marked 0 Shop.bare).2 _ c' failed
  cases configured
  refine ⟨c', failed, keys, pending, ?_⟩
  have same : Shop.bare.registry.pending ++ chain = ["resource:shop.Order", "shop.Order",
      "shop.Line"] := suspends.pending_eq.symm.trans pending
  cases same
  exact breaks

end Compiler

end ManifestSchema
