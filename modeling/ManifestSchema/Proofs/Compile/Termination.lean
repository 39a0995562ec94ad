import ManifestSchema.Proofs.Ancestors
import ManifestSchema.Proofs.Compile.Calls
import ManifestSchema.Proofs.Compile.Run

/-!
# Compilations end

A compiler is given a number of levels, one for each type that is begun inside another one, and it
never uses them up: every level takes up a key. So it does what its recursion says without any
bound, however the types refer to each other.

Results:

1. `Compiler.agree_levels`: more levels than there are vacancies make no difference;
2. `Compiler.step_iff`: the compiler is the only solution of its recursion;
3. `Compiler.ends_compile`: a compilation answers, or the alternative is missing;
4. `Compiler.compile_terminates`: all this together, with the walk through ancestors.
-/

namespace ManifestSchema

namespace Compiler

variable {k : Compiler}

/-! ## Levels -/

/-- More levels than there are vacancies make no difference. -/
theorem agree_levels (call : Call) : ∀ n m, k.vacancies call.state < n →
    k.vacancies call.state < m →
    SameOn (k.compileWith (k.compileObject n)) (k.compileWith (k.compileObject m)) call := by
  induction call using k.below_wf.induction with
  | _ call ih =>
      intro n m hn hm
      obtain ⟨type, scope, c⟩ := call
      have parts : type.fqn? = none → SameOn (k.compileWith (k.compileObject n))
          (k.compileWith (k.compileObject m)) ⟨type, scope, c⟩ := by
        intro other
        unfold SameOn
        rw [compileWith_other other, compileWith_other other]
        refine step_congr fun inner inside => ?_
        have notMore := inside.not_more (adds_compileWith n)
        exact ih inner (inside.below (adds_compileWith n)) n m (Nat.lt_of_le_of_lt notMore hn)
          (Nat.lt_of_le_of_lt notMore hm)
      cases type with
      | primitive _ | union _ | collection _ _ | unsupported _ => exact parts rfl
      | named name =>
          obtain ⟨n, rfl⟩ := Nat.exists_eq_succ_of_ne_zero (Nat.ne_zero_of_lt hn)
          obtain ⟨m, rfl⟩ := Nat.exists_eq_succ_of_ne_zero (Nat.ne_zero_of_lt hm)
          unfold SameOn
          rw [compileWith_name, compileWith_name]
          refine step_congr fun inner inside => ?_
          have less := inside.less_of_name (adds_compileWith n)
          exact ih inner (inside.below (adds_compileWith n)) n m
            (Nat.lt_of_lt_of_le less (Nat.le_of_lt_succ hn))
            (Nat.lt_of_lt_of_le less (Nat.le_of_lt_succ hm))

/-! ## The only solution -/

theorem adds_compile (type : TypeRef) (scope : Nat) : Adds (k.compile type scope) :=
  adds_compileWith _ type scope

/-- The compiler compiles what a reference leads to as it compiles the reference. -/
theorem compile_step (type : TypeRef) (scope : Nat) (c : Compilation) :
    k.compile type scope c = k.step k.compile type scope c := by
  have whole : k.compile = k.compileWith (k.compileObject (k.types.size + 1)) := rfl
  cases type with
  | primitive _ | union _ | collection _ _ | unsupported _ => rw [whole, compileWith_other rfl]
  | named name =>
      rw [whole, compileWith_name]
      refine step_congr fun inner inside => ?_
      have less := inside.less_of_name (adds_compileWith _)
      have size := k.vacancies_le_size c
      exact agree_levels inner _ _ (by omega) (by omega)

/-- No chain of compilations inside each other is endless. -/
theorem calls_wf (k : Compiler) : WellFounded fun inner outer => k.Calls k.compile outer inner :=
  Subrelation.wf (fun h => Calls.below adds_compile h) k.below_wf

/-- The compiler is the only solution of its recursion. -/
theorem step_iff {rec : Recursion} :
    (∀ type scope c, rec type scope c = k.step rec type scope c) ↔ rec = k.compile := by
  constructor
  · intro solves
    have agree : ∀ call, SameOn k.compile rec call := by
      intro call
      induction call using k.calls_wf.induction with
      | _ call ih =>
          calc
            k.compile call.type call.scope call.state =
                k.step k.compile call.type call.scope call.state := compile_step _ _ _
            _ = k.step rec call.type call.scope call.state := step_congr fun inner inside =>
                ih inner inside
            _ = rec call.type call.scope call.state := (solves _ _ _).symm
    funext type scope c
    exact (agree ⟨type, scope, c⟩).symm
  · rintro rfl
    exact compile_step

/-! ## How a compilation ends -/

/-- `work` answers, or it fails because the alternative is missing. -/
def Ends {α : Type} (k : Compiler) (work : Compile α) (c : Compilation) : Prop :=
  (∃ a c', work c = .ok a c') ∨
    ∃ key c', k.alternative = some key ∧ work c = .error (.missingAlternative key) c'

section Endings

variable {α β : Type} {work : Compile α} {f : α → Compile β} {c : Compilation} {scope : Nat}

theorem ends_pure (a : α) : k.Ends (pure a) c := .inl ⟨a, c, rfl⟩

theorem Ends.bind (h : k.Ends work c) (rest : ∀ a c', work c = .ok a c' → k.Ends (f a) c') :
    k.Ends (work >>= f) c := by
  obtain ⟨a, c', done⟩ | ⟨key, c', isAlternative, failed⟩ := h
  · obtain ⟨b, c'', done'⟩ | ⟨key, c'', isAlternative, failed⟩ := rest a c' done
    · exact .inl ⟨b, c'', Work.bind_ok_iff.2 ⟨a, c', done, done'⟩⟩
    · refine .inr ⟨key, c'', isAlternative, ?_⟩
      simp only [Bind.bind, EStateM.bind, done, failed]
  · refine .inr ⟨key, c', isAlternative, ?_⟩
    simp only [Bind.bind, EStateM.bind, failed]

theorem ends_each : {types : List TypeRef} → {c : Compilation} →
    (∀ before type after schemas c', types = before ++ type :: after →
      each k.compile scope before c = .ok schemas c' → k.Ends (k.compile type scope) c') →
    k.Ends (each k.compile scope types) c
  | [], _, _ => ends_pure []
  | type :: rest, c, inside => by
      refine (inside [] type rest [] c rfl rfl).bind fun schema c1 first => ?_
      refine (ends_each fun before type' after schemas c' split done => ?_).bind
        fun _ _ _ => ends_pure _
      refine inside (type :: before) type' after (schema :: schemas) c' (by rw [split]; rfl) ?_
      exact Work.bind_ok_iff.2 ⟨schema, c1, first, Work.bind_ok_iff.2 ⟨schemas, c', done, rfl⟩⟩

theorem ends_alternative (schema : Json) : k.Ends (k.offerAlternative schema) c := by
  unfold offerAlternative
  cases alternative : k.alternative with
  | none => exact ends_pure schema
  | some key =>
      refine Ends.bind (.inl ⟨c.registry, c, rfl⟩) fun r c' read => ?_
      split
      · exact ends_pure _
      · exact .inr ⟨key, c', alternative, rfl⟩

theorem ends_eachProperty : {properties : Dict Property} → {c : Compilation} →
    (∀ before label p after schemas c', properties = before ++ (label, p) :: after →
      k.eachProperty k.compile scope before c = .ok schemas c' →
      k.Ends (k.compile p.type scope) c') →
    k.Ends (k.eachProperty k.compile scope properties) c
  | [], _, _ => ends_pure []
  | (label, p) :: rest, c, inside => by
      refine (inside [] label p rest [] c rfl rfl).bind fun schema c1 first => ?_
      refine (ends_alternative schema).bind fun offered c2 second => ?_
      refine (ends_eachProperty fun before label' p' after schemas c' split done => ?_).bind
        fun _ _ _ => ends_pure _
      refine inside ((label, p) :: before) label' p' after
        ((label, Fragment.describe p.summary offered) :: schemas) c' (by rw [split]; rfl) ?_
      exact Work.bind_ok_iff.2 ⟨schema, c1, first, Work.bind_ok_iff.2 ⟨offered, c2, second,
        Work.bind_ok_iff.2 ⟨schemas, c', done, rfl⟩⟩⟩

/-- A key that was reserved for a type is still without a body when its body is there. -/
theorem ends_define {name : String} {d : Definition}
    (free : ∀ slot, c.registry.slots.find? name = some slot → slot.owner = .type)
    (produces : ∀ c1, Registry.reserve name .type c = .ok true c1 →
      k.Ends (k.objectStep k.compile d scope) c1) :
    k.Ends (Registry.define name .type (k.objectStep k.compile d scope)) c := by
  have reserves : k.Ends (Registry.reserve name .type) c := by
    cases found : c.registry.slots.find? name with
    | none => exact .inl ⟨true, _, Registry.reserve_ok_iff.2 (.inr ⟨found, rfl, rfl⟩)⟩
    | some slot =>
        exact .inl ⟨false, c, Registry.reserve_ok_iff.2
          (.inl ⟨slot, found, free slot found, rfl, rfl⟩)⟩
  refine reserves.bind fun new c1 reserved => ?_
  cases new with
  | false => exact ends_pure _
  | true =>
      refine (produces c1 reserved).bind fun body c2 produced => ?_
      obtain ⟨_, _, _, no, _⟩ | ⟨missing, _, rfl⟩ := Registry.reserve_ok_iff.1 reserved
      · cases no
      have missing : c.registry.slots.find? name = none := missing
      have body_eq : k.objectStep k.compile = k.compileObject (k.types.size + 2) :=
        (compileObject_succ _).symm
      rw [body_eq] at produced
      obtain ⟨_, added, slots, _⟩ := gives_objects (k := k) _ d scope _ body c2 rfl produced
      have pending : c2.registry.slots.find? name = some ⟨.type, .pending⟩ := by
        rw [slots, Dict.find?_append]
        show Option.or (Dict.find? (c.registry.slots ++ _) name) _ = _
        simp [Dict.find?_append, missing, Dict.find?_cons]
      refine Ends.bind (.inl ⟨(), _, Registry.resolve_ok_iff.2 ⟨_, pending, rfl, rfl⟩⟩)
        fun _ _ _ => ends_pure _

theorem ends_errors (scope : Nat) (lead : String) (names : List String) (c : Compilation) :
    k.Ends (Compile.errors scope lead names) c := by
  induction names generalizing c with
  | nil => exact ends_pure ()
  | cons name rest ih => exact Ends.bind (.inl ⟨(), _, rfl⟩) fun _ c' _ => ih c'

theorem ends_noteAncestors (d : Definition) (scope : Nat) (c : Compilation) :
    k.Ends (k.noteAncestors d scope) c :=
  (ends_errors scope _ _ c).bind fun _ c' _ => ends_errors scope _ _ c'

theorem ends_any (scope : Nat) (message : String) (c : Compilation) :
    k.Ends (do Compile.error scope message; return Fragment.any) c :=
  Ends.bind (.inl ⟨(), _, rfl⟩) fun _ _ _ => ends_pure _

/-- A type whose key no one else holds is compiled when its properties are. -/
theorem ends_type {name : String} {d : Definition} (found : k.types.find? name = some d)
    (isObject : d.isObject = true)
    (free : ∀ slot, c.registry.slots.find? name = some slot → slot.owner = .type)
    (inside : ∀ inner, k.Calls k.compile ⟨.named name, scope, c⟩ inner →
      k.Ends (k.compile inner.type inner.scope) inner.state) :
    k.Ends (Compile.child scope d.kind.text name >>= fun inner =>
      Registry.define name .type (k.objectStep k.compile d inner)) c := by
  refine Ends.bind (.inl ⟨_, _, rfl⟩) fun inner c0 opened => ?_
  have same := keepsRegistry_child _ _ _ _ _ _ opened
  refine ends_define (same ▸ free) fun c1 reserved => ?_
  refine (ends_noteAncestors d inner c1).bind fun _ c2 noted => ?_
  split
  · exact Ends.bind (.inl ⟨(), _, rfl⟩) fun _ _ _ => ends_pure _
  · refine (ends_eachProperty fun before label p after schemas c3 split done => ?_).bind
      fun _ _ _ => ends_pure _
    exact inside _ (.after found isObject opened reserved noted split done)

theorem ends_name {name : String}
    (inside : ∀ inner, k.Calls k.compile ⟨.named name, scope, c⟩ inner →
      k.Ends (k.compile inner.type inner.scope) inner.state) :
    k.Ends (k.compileName (k.objectStep k.compile) name scope) c := by
  cases found : k.types.find? name with
  | none =>
      simp only [compileName, found]
      exact ends_any scope _ c
  | some d =>
      cases d with
      | enumDef e =>
          simp only [compileName, found]
          exact ends_pure _
      | classDef _ | interfaceDef _ =>
          cases held : c.registry.taken name with
          | true =>
              have clashes : ∃ owner, k.compileName (k.objectStep k.compile) name scope c =
                  compileName.clash name scope owner c := compileName_of_taken found rfl held scope
              obtain ⟨owner, same⟩ := clashes
              unfold Ends
              rw [same]
              exact ends_any scope _ c
          | false =>
              unfold Ends
              rw [compileName_of_not_taken found rfl held]
              refine ends_type found rfl (fun slot present => ?_) inside
              rw [Registry.taken, Registry.owner?, present, Option.map_some] at held
              cases owner : slot.owner <;> simp_all

end Endings

/-- A compilation answers with a schema, or it fails because the alternative is missing. -/
theorem ends_compile (call : Call) : k.Ends (k.compile call.type call.scope) call.state := by
  induction call using k.calls_wf.induction with
  | _ call ih =>
      obtain ⟨type, scope, c⟩ := call
      unfold Ends
      rw [compile_step]
      cases type with
      | primitive p => exact ends_pure _
      | unsupported raw => exact ends_any scope _ c
      | named name => exact ends_name ih
      | collection kind element =>
          exact (ih ⟨element, scope, c⟩ .element).bind fun _ _ _ => ends_pure _
      | union members =>
          refine (ends_each fun before type after schemas c' split done => ?_).bind
            fun _ _ _ => ends_pure _
          subst split
          exact ih _ (.member done)

/-- Every compilation ends, whatever the types refer to and inherit from. The walk through the
ancestors of a type and the compilation of references are the only solutions of their recursions, so
the numbers of steps that they are given are never used up. The walk enters each class or interface
at most once. From a compilation to one inside it, the reference becomes one of its parts while no
class or interface loses its key, or one more of them has its key. So no chain of compilations
inside each other is endless, and each of them answers, or fails because the alternative is
missing. -/
theorem compile_terminates (k : Compiler) (keyed : k.types.WellKeyed) :
    (∀ visit, (∀ path d w, visit path d w = k.types.visitWith visit path d w) ↔
      visit = k.types.flattenWithin k.types.walkBound) ∧
    (∀ d, k.types.Once d.fqn (k.types.entered d)) ∧
    (∀ rec : Recursion, (∀ type scope c, rec type scope c = k.step rec type scope c) ↔
      rec = k.compile) ∧
    (∀ outer inner, k.Calls k.compile outer inner →
      (inner.type.PartOf outer.type ∧ k.vacancies inner.state ≤ k.vacancies outer.state) ∨
        k.vacancies inner.state < k.vacancies outer.state) ∧
    (WellFounded fun inner outer => k.Calls k.compile outer inner) ∧
    ∀ type scope c, k.Ends (k.compile type scope) c :=
  ⟨fun _ => TypeSystem.visitWith_iff keyed, TypeSystem.once_entered keyed, fun _ => step_iff,
    fun _ _ h => h.descends adds_compile, k.calls_wf,
    fun type scope c => ends_compile ⟨type, scope, c⟩⟩

/-- In the shop, orders and their lines refer to each other, records to themselves, and marks extend
themselves. -/
theorem compile_terminates_shop : Shop.types.WellKeyed ∧
    Shop.types.entered Shop.order = ["shop.Mark", "shop.Record", "shop.Order"] ∧
    (Shop.types.entered Shop.order).Nodup ∧
    (WellFounded fun inner outer => Shop.compiler.Calls Shop.compiler.compile outer inner) ∧
    Shop.compiler.Ends (Shop.compiler.compile (.named "shop.Order") 0) Shop.start := by
  have keyed : Shop.types.WellKeyed := by
    unfold TypeSystem.WellKeyed
    decide
  obtain ⟨_, entered, _, _, wf, ends⟩ := compile_terminates Shop.compiler keyed
  exact ⟨keyed, by decide +kernel, (entered Shop.order).apart, wf, ends _ _ _⟩

end Compiler

end ManifestSchema
