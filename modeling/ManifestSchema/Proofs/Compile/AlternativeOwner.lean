import ManifestSchema.Proofs.Compile.Pending
import ManifestSchema.Proofs.Inheritance.Walk

/-!
# Who holds the alternative

Properties offer a definition that an extension has brought. The compiler looks whether its key is
there, and not who holds it. At the same time it fills the registry with definitions of types, so a
type that has the name of the alternative stands in for a definition that no extension brought.

Results:

1. `Compiler.Attempts.adds`: compilations, whether they succeed or fail, only add definitions of
   declared types, and no key changes hands;
2. `Compiler.Wraps.owner?_eq`: who holds the alternative when it is offered;
3. `Compiler.wraps_of_compile`: where a type with a property is compiled, the alternative is offered;
4. `Compiler.offers_needs_extension`: when it is certain that what is offered comes from an
   extension.
-/

namespace ManifestSchema

namespace TypeSystem

/-- A class or interface that has a property, be it an inherited one. -/
def HasProperty (ts : TypeSystem) (name : String) : Prop :=
  ∃ d, ts.find? name = some d ∧ d.isObject = true ∧ (ts.flatten d).properties ≠ []

end TypeSystem

namespace Registry

theorem owner?_eq_none_iff {r : Registry} {key : String} :
    r.owner? key = none ↔ key ∉ r.slots.keys := by
  rw [owner?, Option.map_eq_none_iff, Dict.find?_eq_none_iff]

theorem taken_of_new {r : Registry} {key : String} (new : key ∉ r.slots.keys) :
    r.taken key = false := by
  rw [taken, owner?_eq_none_iff.2 new]

end Registry

namespace Compiler

variable {k : Compiler} {r r' r'' : Registry} {alternative name : String} {scope : Nat}
  {start c c' : Compilation} {schema : Json}

/-! ## What a compilation adds -/

/-- Behind the entries of `r` there are in `r'` definitions of classes and interfaces, each under
its own name. -/
def AddsTypes (k : Compiler) (r r' : Registry) : Prop :=
  ∃ added : Dict Slot, r'.slots = r.slots ++ added ∧
    ∀ p ∈ added, p.2.owner = .type ∧ k.types.namesObject p.1 = true

theorem AddsTypes.refl (r : Registry) : k.AddsTypes r r := ⟨[], by simp, by simp⟩

theorem AddsTypes.trans (h : k.AddsTypes r r') (h' : k.AddsTypes r' r'') : k.AddsTypes r r'' := by
  obtain ⟨added, slots, types⟩ := h
  obtain ⟨added', slots', types'⟩ := h'
  refine ⟨added ++ added', by rw [slots', slots, List.append_assoc], fun p member => ?_⟩
  exact (List.mem_append.1 member).elim (types p) (types' p)

theorem AddsTypes.keys_subset (h : k.AddsTypes r r') : r.slots.keys ⊆ r'.slots.keys := by
  obtain ⟨added, slots, _⟩ := h
  rw [slots, Dict.keys_append]
  exact List.subset_append_left _ _

/-- A key stays with its owner, and a new one is that of a declared type. -/
theorem AddsTypes.owner?_eq (h : k.AddsTypes r r') (held : name ∈ r'.slots.keys) :
    r'.owner? name = some ((r.owner? name).getD .type) ∧
      (r.owner? name = none → k.types.namesObject name = true) := by
  obtain ⟨added, slots, types⟩ := h
  have owners : r'.owner? name = (r.owner? name).or (Registry.owner? ⟨added⟩ name) := by
    rw [← Registry.owner?_append, ← slots]
  cases before : r.owner? name with
  | some owner =>
      rw [owners, before]
      exact ⟨rfl, nofun⟩
  | none =>
      rw [before, Option.none_or] at owners
      obtain ⟨owner, after⟩ := Option.ne_none_iff_exists'.1 fun nobody =>
        Registry.owner?_eq_none_iff.1 nobody held
      obtain ⟨slot, found, rfl⟩ := Option.map_eq_some_iff.1 (owners ▸ after)
      obtain ⟨isType, object⟩ := types _ (Dict.mem_of_find? found)
      rw [after, isType]
      exact ⟨rfl, fun _ => object⟩

theorem Grows.adds {taken : String → Bool} {names : List String}
    (h : k.Grows taken names r r') : k.AddsTypes r r' := by
  obtain ⟨added, slots, walk⟩ := h
  obtain ⟨_, same, _, fresh⟩ := walk.exists_added
  obtain rfl := List.append_cancel_left same
  refine ⟨_, slots, fun p member => ?_⟩
  obtain ⟨key, isAdded, rfl⟩ := List.mem_map.1 member
  have reached := (walk.reached key (List.mem_append_right _ isAdded)).resolve_left
    (fresh key isAdded)
  obtain ⟨d, found, isObject, _⟩ :=
    TypeSystem.opens_iff.1 (TypeSystem.opens_of_reached reached)
  exact ⟨rfl, TypeSystem.namesObject_iff.2 ⟨d, found, isObject⟩⟩

theorem adds_of_compile {type : TypeRef} (done : k.compile type scope c = .ok schema c') :
    k.AddsTypes c.registry c'.registry :=
  (compile_gives type scope c schema c' rfl done).2.adds

theorem Calls.adds {outer inner : Call} (h : k.Calls k.compile outer inner) :
    k.AddsTypes outer.state.registry inner.state.registry := by
  obtain ⟨r, names, grows, ⟨_, rfl⟩ | ⟨name, d, _, found, isObject, _, reserved⟩⟩ := h.grows
  · exact grows.adds
  · have entered : k.AddsTypes outer.state.registry r := ⟨_, reserved, fun p member => by
      rw [List.mem_singleton.1 member]
      exact ⟨rfl, TypeSystem.namesObject_iff.2 ⟨d, found, isObject⟩⟩⟩
    exact entered.trans grows.adds

theorem BreaksOff.adds {call : Call} {chain : List String}
    (h : k.BreaksOff alternative call chain c') :
    k.AddsTypes call.state.registry c'.registry := by
  induction h with
  | here calls misses =>
      obtain ⟨⟨_, done⟩, _⟩ := misses
      exact calls.adds.trans (adds_of_compile done)
  | property calls _ ih => exact calls.adds.trans ih
  | part _ calls _ ih => exact calls.adds.trans ih

/-- `k.Attempts start c`: requests were compiled one after the other, and it went on when one of
them failed. -/
inductive Attempts (k : Compiler) (start : Compilation) : Compilation → Prop
  | start : Attempts k start start
  | record {c : Compilation} (d : Diagnostics) : Attempts k start c →
      Attempts k start { c with diagnostics := d }
  | answered {c c' : Compilation} {type : TypeRef} {scope : Nat} {schema : Json} :
      Attempts k start c → k.compile type scope c = .ok schema c' → Attempts k start c'
  | failed {c c' : Compilation} {type : TypeRef} {scope : Nat} {e : EngineError} :
      Attempts k start c → k.compile type scope c = .error e c' → Attempts k start c'

theorem Attempts.adds (h : k.Attempts start c) : k.AddsTypes start.registry c.registry := by
  induction h with
  | start => exact .refl _
  | record d _ ih => exact ih
  | answered _ done ih => exact ih.trans (adds_of_compile done)
  | @failed c _ type scope _ _ failed ih =>
      have broken : ∃ alternative chain, k.alternative = some alternative ∧ _ ∧
          k.BreaksOff alternative ⟨type, scope, c⟩ chain _ := compile_error failed
      obtain ⟨_, _, _, _, breaks⟩ := broken
      exact ih.trans breaks.adds

/-! ## Where the alternative is offered -/

/-- `k.Wraps alternative call c'`: inside the compilation of `call`, the schema of a property is
wrapped together with the alternative, and `c'` is what has been produced by then. -/
inductive Wraps (k : Compiler) (alternative : String) : Call → Compilation → Prop
  | here {name : String} {scope : Nat} {c c' : Compilation} {inner : Call} {schema : Json} :
      k.Calls k.compile ⟨.named name, scope, c⟩ inner →
      k.compile inner.type inner.scope inner.state = .ok schema c' →
      k.offerAlternative schema c' = .ok (Fragment.anyOf [schema, reference alternative]) c' →
      Wraps k alternative ⟨.named name, scope, c⟩ c'
  | inside {outer inner : Call} {c' : Compilation} : k.Calls k.compile outer inner →
      Wraps k alternative inner c' → Wraps k alternative outer c'

theorem Wraps.adds {call : Call} (h : k.Wraps alternative call c') :
    k.AddsTypes call.state.registry c'.registry := by
  induction h with
  | here calls done _ => exact calls.adds.trans (adds_of_compile done)
  | inside calls _ ih => exact calls.adds.trans ih

/-- A name leads to other references when it is that of a new type that has a property. -/
theorem Calls.hasProperty {rec : Recursion} {inner : Call}
    (h : k.Calls rec ⟨.named name, scope, c⟩ inner) :
    k.types.HasProperty name ∧ name ∉ c.registry.slots.keys := by
  cases h with
  | @property _ d _ _ _ _ _ _ _ _ _ _ found isObject new _ split _ =>
      exact ⟨⟨d, found, isObject, by simp [split]⟩, Dict.find?_eq_none_iff.1 new⟩

/-- The alternative is offered inside a new type that has a property. -/
theorem Wraps.exists_hasProperty {call : Call} (h : k.Wraps alternative call c') :
    ∃ name, k.types.HasProperty name ∧ name ∉ call.state.registry.slots.keys := by
  induction h with
  | here calls _ _ => exact ⟨_, calls.hasProperty⟩
  | inside calls _ ih =>
      obtain ⟨name, property, new⟩ := ih
      exact ⟨name, property, fun before => new (calls.adds.keys_subset before)⟩

section Offers

variable (configured : k.alternative = some alternative)

include configured

theorem Wraps.mem_keys {call : Call} (h : k.Wraps alternative call c') :
    alternative ∈ c'.registry.slots.keys := by
  induction h with
  | here _ _ offered =>
      exact Dict.contains_iff.1 ((offerAlternative_ok_iff configured).1 offered).1
  | inside _ _ ih => exact ih

/-- What is offered is held by whoever held it at the start. If that was nobody, then the
alternative is the name of a declared type, and its definition is offered. -/
theorem Wraps.owner?_eq {call : Call} (attempts : k.Attempts start call.state)
    (h : k.Wraps alternative call c') :
    c'.registry.owner? alternative = some ((start.registry.owner? alternative).getD .type) ∧
      (start.registry.owner? alternative = none → k.types.namesObject alternative = true) :=
  (attempts.adds.trans h.adds).owner?_eq (h.mem_keys configured)

/-- A new type that has a property is compiled only with the alternative next to it. -/
theorem wraps_of_compile (property : k.types.HasProperty name) (new : name ∉ c.registry.slots.keys)
    (done : k.compile (.named name) scope c = .ok schema c') :
    ∃ c1, k.Wraps alternative ⟨.named name, scope, c⟩ c1 := by
  obtain ⟨d, found, isObject, some⟩ := property
  have unmarked : k.types.isMarker d = false := by
    rw [TypeSystem.isMarker, List.isEmpty_eq_false_iff.2 some, Bool.false_and]
  rw [compile_step, step, compileName_of_not_taken found isObject (Registry.taken_of_new new)]
    at done
  obtain ⟨inner, c0, opened, done⟩ := Work.bind_ok_iff.1 done
  have same := keepsRegistry_child _ _ _ _ _ _ opened
  obtain ⟨isNew, c1, reserved, done⟩ := Work.bind_ok_iff.1 done
  obtain rfl : isNew = true := by
    obtain ⟨_, present, _⟩ | ⟨_, rfl, _⟩ := Registry.reserve_ok_iff.1 reserved
    · exact absurd (same ▸ Dict.mem_keys_of_find? present) new
    · rfl
  obtain ⟨body, c2, produced, _⟩ := Work.bind_ok_iff.1 done
  obtain ⟨_, c3, noted, produced⟩ := Work.bind_ok_iff.1 produced
  simp only [unmarked] at produced
  obtain ⟨schemas, c4, compiled, _⟩ := Work.bind_ok_iff.1 produced
  obtain ⟨⟨label, p⟩, rest, split⟩ := List.exists_cons_of_ne_nil some
  have atFirst : (k.types.flatten d).properties = [] ++ (label, p) :: rest := split
  rw [split] at compiled
  obtain ⟨first, c5, answered, compiled⟩ := Work.bind_ok_iff.1 compiled
  obtain ⟨offered, c6, offers, _⟩ := Work.bind_ok_iff.1 compiled
  obtain ⟨_, rfl, rfl⟩ := (offerAlternative_ok_iff configured).1 offers
  exact ⟨_, .here (.after found isObject opened reserved noted atFirst rfl) answered offers⟩

/-! ## A type in place of the alternative -/

/-- A type that has the name of the alternative does not lack it: its own key is reserved before its
properties are compiled. -/
theorem exists_compile_alternative (scope : Nat) (c : Compilation) :
    ∃ schema c', k.compile (.named alternative) scope c = .ok schema c' := by
  rcases k.ends_compile ⟨.named alternative, scope, c⟩ with done | ⟨key, c', isKey, failed⟩
  · exact done
  cases configured.symm.trans isKey
  obtain ⟨chain, breaks⟩ := exists_breaksOff failed
  obtain ⟨⟨first, rest, rfl, occurs⟩, _, _, _, _, _, _, _, _, _, absent⟩ := breaks.chained
  rw [TypeRef.names, List.mem_singleton] at occurs
  have pending : alternative ∈ c'.registry.pending := by
    rw [breaks.suspends.pending_eq, occurs]
    exact List.mem_append_right _ List.mem_cons_self
  have held : alternative ∈ c'.registry.slots.keys := (List.filter_sublist.map _).subset pending
  rw [Registry.contains, Dict.contains_iff.2 held] at absent
  cases absent

end Offers

theorem mem_keys_of_compile (object : k.types.namesObject name = true)
    (done : k.compile (.named name) scope c = .ok schema c') : name ∈ c'.registry.slots.keys := by
  by_cases new : name ∈ c.registry.slots.keys
  · exact (adds_of_compile done).keys_subset new
  obtain ⟨d, found, isObject⟩ := TypeSystem.namesObject_iff.1 object
  have opens : k.types.opens c.registry.taken name = true :=
    TypeSystem.opens_iff.2 ⟨d, found, isObject, Registry.taken_of_new new⟩
  obtain ⟨_, added, slots, walk⟩ := compile_gives _ _ _ _ _ rfl done
  rw [keys_of_slots slots]
  refine walk.todo_subset (List.mem_filter.2 ⟨?_, opens⟩)
  rw [TypeRef.names]
  exact List.mem_singleton_self _

/-- A type without properties adds itself alone. -/
theorem keys_of_plain (plain : ¬k.types.HasProperty name)
    (object : k.types.namesObject name = true)
    (done : k.compile (.named name) scope c = .ok schema c') :
    ∀ key ∈ c'.registry.slots.keys, key ∈ c.registry.slots.keys ∨ key = name := by
  obtain ⟨d, found, isObject⟩ := TypeSystem.namesObject_iff.1 object
  have none : (k.types.flatten d).properties = [] :=
    Classical.not_not.1 fun some => plain ⟨d, found, isObject, some⟩
  have ends : k.types.leads c.registry.taken name = [] := by
    rw [TypeSystem.leads_of_find found, TypeSystem.propertyNames, none]
    rfl
  have alone : ∀ key, ReachedFrom (k.types.leads c.registry.taken)
      ((TypeRef.named name).names.filter (k.types.opens c.registry.taken)) key → key = name := by
    intro key reached
    induction reached with
    | start member =>
        have named := (List.mem_filter.1 member).1
        rwa [TypeRef.names, List.mem_singleton] at named
    | step _ member ih =>
        rw [ih, ends] at member
        exact absurd member List.not_mem_nil
  obtain ⟨_, added, slots, walk⟩ := compile_gives _ _ _ _ _ rfl done
  rw [keys_of_slots slots]
  exact fun key member => (walk.reached key member).imp_right (alone key)

/-! ## Alternatives from extensions -/

/-- What is offered comes from an extension. Whenever it is offered an extension holds it, and where
no extension does, no new type that has a property is compiled. -/
structure NeedsExtension (k : Compiler) (start : Compilation) (alternative : String) : Prop where
  held : ∀ c, k.Attempts start c → ∀ type scope c', k.Wraps alternative ⟨type, scope, c⟩ c' →
    c'.registry.owner? alternative = some .extension
  refused : start.registry.owner? alternative ≠ some .extension → ∀ c, k.Attempts start c →
    ∀ name, k.types.HasProperty name → name ∉ c.registry.slots.keys →
      ∀ scope, ∃ c', k.compile (.named name) scope c = .error (.missingAlternative alternative) c'

/-- Nobody holds the alternative, and no type can come to hold it. -/
def Unfilled (k : Compiler) (r : Registry) (alternative : String) : Prop :=
  r.owner? alternative = none ∧ k.types.namesObject alternative = false

section Needs

variable (configured : k.alternative = some alternative)

include configured

theorem not_wraps_of_unfilled (unfilled : k.Unfilled start.registry alternative) {call : Call}
    (attempts : k.Attempts start call.state) : ¬k.Wraps alternative call c' := by
  obtain ⟨nobody, noObject⟩ := unfilled
  intro wraps
  have object := (wraps.owner?_eq configured attempts).2 nobody
  rw [noObject] at object
  cases object

theorem error_of_unfilled (unfilled : k.Unfilled start.registry alternative)
    (attempts : k.Attempts start c) (property : k.types.HasProperty name)
    (new : name ∉ c.registry.slots.keys) (scope : Nat) :
    ∃ c', k.compile (.named name) scope c = .error (.missingAlternative alternative) c' := by
  rcases k.ends_compile ⟨.named name, scope, c⟩ with ⟨schema, c', done⟩ | ⟨key, c', isKey, failed⟩
  · obtain ⟨c1, wraps⟩ := wraps_of_compile configured property new done
    exact absurd wraps (not_wraps_of_unfilled configured unfilled attempts)
  · cases configured.symm.trans isKey
    exact ⟨c', failed⟩

/-- A type in place of the alternative lets others pass. -/
theorem NeedsExtension.unfilled (needs : k.NeedsExtension start alternative)
    (noExtension : start.registry.owner? alternative ≠ some .extension)
    (property : k.types.HasProperty name) (new : name ∉ start.registry.slots.keys) :
    k.Unfilled start.registry alternative := by
  have refused := needs.refused noExtension
  -- nothing is refused once the key is there, whoever holds it
  have absent : ∀ c, k.Attempts start c → ∀ name, k.types.HasProperty name →
      name ∉ c.registry.slots.keys → alternative ∉ c.registry.slots.keys := by
    intro c attempts name property new present
    have offers : k.Offers c.registry := fun key isKey => by
      cases configured.symm.trans isKey
      exact present
    obtain ⟨schema, c', done⟩ := compile_succeeds (.named name) 0 offers
    obtain ⟨c'', failed⟩ := refused c attempts name property new 0
    cases done.symm.trans failed
  have missing := absent start .start name property new
  refine ⟨Registry.owner?_eq_none_iff.2 missing, Bool.eq_false_iff.2 fun object => ?_⟩
  obtain ⟨schema, c', done⟩ := exists_compile_alternative configured 0 start
  by_cases bearing : k.types.HasProperty alternative
  · obtain ⟨c'', failed⟩ := refused start .start alternative bearing missing 0
    cases done.symm.trans failed
  · refine absent c' (.answered .start done) name property (fun member => ?_)
      (mem_keys_of_compile object done)
    rcases keys_of_plain bearing object done name member with before | rfl
    · exact new before
    · exact bearing property

/-- Whenever the alternative is offered its key is there, held by whoever held it before the first
compilation, or by the declared type of that name if nobody did. So what is offered comes from an
extension exactly if one brought it, or if there is nothing that could stand in for it: nobody
holds the key and no declared type has that name. The one other case is that no new type has a
property, and nothing is ever offered. -/
theorem offers_needs_extension (start : Compilation) :
    (∀ c, k.Attempts start c → ∀ type scope c', k.Wraps alternative ⟨type, scope, c⟩ c' →
      c'.registry.owner? alternative = some ((start.registry.owner? alternative).getD .type) ∧
        (start.registry.owner? alternative = none → k.types.namesObject alternative = true)) ∧
    (k.NeedsExtension start alternative ↔
      start.registry.owner? alternative = some .extension ∨
        k.Unfilled start.registry alternative ∨
        ∀ name, k.types.HasProperty name → name ∈ start.registry.slots.keys) := by
  refine ⟨fun c attempts _ _ _ wraps => wraps.owner?_eq configured attempts, ?_, ?_⟩
  · intro needs
    by_cases extension : start.registry.owner? alternative = some .extension
    · exact .inl extension
    refine .inr (Classical.or_iff_not_imp_right.2 fun some => ?_)
    obtain ⟨name, property, new⟩ : ∃ name, k.types.HasProperty name ∧
        name ∉ start.registry.slots.keys := by
      simpa using some
    exact needs.unfilled configured extension property new
  · rintro (extension | unfilled | nothing)
    · refine ⟨fun c attempts _ _ _ wraps => ?_, fun noExtension => absurd extension noExtension⟩
      rw [(wraps.owner?_eq configured attempts).1, extension]
      rfl
    · refine ⟨fun c attempts _ _ _ wraps => ?_, fun _ c attempts name property new scope =>
        error_of_unfilled configured unfilled attempts property new scope⟩
      exact absurd wraps (not_wraps_of_unfilled configured unfilled attempts)
    · have known : ∀ c, k.Attempts start c → ∀ name, k.types.HasProperty name →
          name ∈ c.registry.slots.keys := fun c attempts name property =>
        attempts.adds.keys_subset (nothing name property)
      refine ⟨fun c attempts _ _ _ wraps => ?_, fun _ c attempts name property new _ =>
        absurd (known c attempts name property) new⟩
      obtain ⟨name, property, new⟩ := wraps.exists_hasProperty
      exact absurd (known c attempts name property) new

end Needs

/-! ## Examples -/

/-- In the shop an extension holds the key of the class that is the alternative, and it is the
extension's definition that is offered. Without it the class takes its place. -/
theorem offers_needs_extension_shop :
    Shop.compiler.alternative = some "Expression" ∧
      (∃ c', Shop.compiler.Wraps "Expression" ⟨.named "shop.Line", 0, Shop.start⟩ c' ∧
        c'.registry.owner? "Expression" = some .extension) ∧
      Shop.compiler.NeedsExtension Shop.start "Expression" ∧
      ¬Shop.compiler.NeedsExtension ⟨.empty, .empty⟩ "Expression" := by
  have configured : Shop.compiler.alternative = some "Expression" := rfl
  have property : Shop.compiler.types.HasProperty "shop.Line" :=
    ⟨Shop.line, rfl, rfl, by decide +kernel⟩
  obtain ⟨owner, needs⟩ := offers_needs_extension configured Shop.start
  obtain ⟨_, needs'⟩ := offers_needs_extension configured ⟨.empty, .empty⟩
  refine ⟨configured, ?_, needs.2 (.inl rfl), fun certain => ?_⟩
  · have offers : Shop.compiler.Offers Shop.start.registry := fun key isKey => by
      cases configured.symm.trans isKey
      exact List.mem_singleton_self _
    obtain ⟨schema, c', done⟩ := compile_succeeds (.named "shop.Line") 0 offers
    obtain ⟨c1, wraps⟩ := wraps_of_compile configured property (by decide) done
    exact ⟨c1, wraps, (owner _ .start _ _ _ wraps).1⟩
  · rcases needs'.1 certain with extension | ⟨_, noObject⟩ | nothing
    · cases extension
    · exact absurd noObject (by decide)
    · exact absurd (nothing _ property) List.not_mem_nil

end Compiler

namespace Lamps

def lamp : Definition :=
  .classDef ⟨"shop.Lamp", none, [], none, [⟨"watts", .primitive .number, false, false, none⟩], none⟩

/-- Properties offer the class that has them. -/
def compiler : Compiler := ⟨⟨[("shop.Lamp", lamp)], []⟩, some "shop.Lamp"⟩

def start : Compilation := ⟨.empty, .empty⟩

/-- The definition of the class, with the class in place of a number. -/
def body : Json :=
  describedBy "shop.Lamp" (Fragment.object
    [("watts", Fragment.anyOf [Fragment.primitive .number, reference "shop.Lamp"])] ["watts"] none)

end Lamps

namespace Compiler

/-- A lamp is compiled though no extension has brought the alternative, and offers itself. -/
theorem compile_lamp_offers_itself :
    (∃ d, Lamps.compiler.Run Lamps.start [(.named "shop.Lamp", reference "shop.Lamp")]
      ⟨⟨[("shop.Lamp", ⟨.type, .resolved Lamps.body⟩)]⟩, d⟩) ∧
    (∃ c', Lamps.compiler.Wraps "shop.Lamp" ⟨.named "shop.Lamp", 0, Lamps.start⟩ c' ∧
      c'.registry.owner? "shop.Lamp" = some .type) ∧
    ¬Lamps.compiler.NeedsExtension Lamps.start "shop.Lamp" := by
  have configured : Lamps.compiler.alternative = some "shop.Lamp" := rfl
  have property : Lamps.compiler.types.HasProperty "shop.Lamp" :=
    ⟨Lamps.lamp, rfl, rfl, by decide +kernel⟩
  have attempts : Lamps.compiler.Attempts Lamps.start Lamps.start := .start
  have outcome : Lamps.compiler.outcome? [.named "shop.Lamp"] Lamps.start =
      some ([reference "shop.Lamp"], ⟨[("shop.Lamp", ⟨.type, .resolved Lamps.body⟩)]⟩) := by
    decide +kernel
  obtain ⟨schema, c', done⟩ := exists_compile_alternative configured 0 Lamps.start
  obtain ⟨c1, wraps⟩ := wraps_of_compile configured property List.not_mem_nil done
  have owner : c1.registry.owner? "shop.Lamp" = _ := (wraps.owner?_eq configured attempts).1
  refine ⟨exists_run_of_outcome outcome, ⟨c1, wraps, owner⟩, fun certain => ?_⟩
  obtain ⟨c'', failed⟩ := certain.refused nofun _ attempts "shop.Lamp" property List.not_mem_nil 0
  cases done.symm.trans failed

end Compiler

end ManifestSchema
