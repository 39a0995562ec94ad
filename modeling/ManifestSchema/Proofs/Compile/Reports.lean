import ManifestSchema.Proofs.Compile.Complaints
import ManifestSchema.Proofs.Compile.Run
import ManifestSchema.Proofs.Diagnostics

/-!
# What a compilation reports

Every reference to a class or interface opens a scope of its own, but only the one that reaches it
first compiles it. So the messages about a type are on one scope, however often and from wherever it
is referred to, and what is wrong with a reference itself is on the scope in which the reference is
compiled.

Results:

1. `Compiler.Opened.at_visit`: which scope of a type has its messages;
2. `Compiler.notes_define`: a type that is entered brings its messages to the scope that was opened
   for it, and a type that was met before brings none;
3. `Compiler.compile_notes`: what a compilation writes to the scopes;
4. `Compiler.compile_accounts`: messages are neither lost nor duplicated.
-/

namespace ManifestSchema

namespace Compiler

variable {k : Compiler} {holder : String → Option Owner}

/-! ## Scopes that are opened one after the other -/

/-- A scope without messages. -/
def Silent (s : Scope) : Prop := s.warnings = [] ∧ s.errors = []

/-- A scope with the messages of a class or interface. -/
def Tells (k : Compiler) (holder : String → Option Owner) (d : Definition) (s : Scope) : Prop :=
  s.warnings = k.objectWarnings d ∧ s.errors = k.objectErrors holder d

/-- `k.Opened holder seen visits added`: scopes were opened for the names of `visits` in order. When
the keys `seen` were there before, the names of `added` were new, each at its first visit, and the
scope of this visit has the messages of the type; all others have none. -/
inductive Opened (k : Compiler) (holder : String → Option Owner) :
    (seen : List String) → (visits : Dict Scope) → (added : List String) → Prop
  | done (seen : List String) : Opened k holder seen [] []
  | again {seen added : List String} {visits : Dict Scope} {name : String} {d : Definition}
      {s : Scope} : name ∈ seen → k.types.find? name = some d →
      s.name = Scope.nameOf d.kind.text name → Silent s →
      Opened k holder seen visits added → Opened k holder seen ((name, s) :: visits) added
  | first {seen added : List String} {visits : Dict Scope} {name : String} {d : Definition}
      {s : Scope} : name ∉ seen → k.types.find? name = some d →
      s.name = Scope.nameOf d.kind.text name → k.Tells holder d s →
      Opened k holder (seen ++ [name]) visits added →
      Opened k holder seen ((name, s) :: visits) (name :: added)

theorem Opened.append {seen added added' : List String} {visits visits' : Dict Scope}
    (h : k.Opened holder seen visits added) (h' : k.Opened holder (seen ++ added) visits' added') :
    k.Opened holder seen (visits ++ visits') (added ++ added') := by
  induction h with
  | done seen => rwa [List.append_nil] at h'
  | again met found name silent _ ih => exact .again met found name silent (ih h')
  | first new found name tells _ ih =>
      refine .first new found name tells (ih ?_)
      rwa [List.append_assoc, List.singleton_append]

theorem Opened.fresh {seen added : List String} {visits : Dict Scope}
    (h : k.Opened holder seen visits added) : ∀ name ∈ added, name ∉ seen := by
  induction h with
  | done _ => exact fun _ member => absurd member List.not_mem_nil
  | again _ _ _ _ _ ih => exact ih
  | first new _ _ _ _ ih =>
      intro name member
      rcases List.mem_cons.1 member with rfl | member
      · exact new
      · exact fun old => ih name member (List.mem_append_left _ old)

theorem Opened.added_subset {seen added : List String} {visits : Dict Scope}
    (h : k.Opened holder seen visits added) : added ⊆ visits.keys := by
  induction h with
  | done _ => exact List.nil_subset _
  | again _ _ _ _ _ ih => exact fun _ member => List.mem_cons_of_mem _ (ih member)
  | first _ _ _ _ _ ih => exact List.cons_subset_cons _ ih

/-- The scope of a visit has the messages of the type when the type was added and the visit is its
first one, and none otherwise. -/
theorem Opened.at_visit {seen added : List String} {visits : Dict Scope}
    (h : k.Opened holder seen visits added) {before after : Dict Scope} {name : String} {s : Scope}
    (visit : visits = before ++ (name, s) :: after) :
    ∃ d, k.types.find? name = some d ∧ s.name = Scope.nameOf d.kind.text name ∧
      if name ∈ added ∧ name ∉ before.keys then k.Tells holder d s else Silent s := by
  induction h generalizing before with
  | done _ => simp at visit
  | @again seen added visits other d t old found title silent opened ih =>
      cases before with
      | nil =>
          obtain ⟨⟨rfl, rfl⟩, _⟩ : (other = name ∧ t = s) ∧ visits = after := by simpa using visit
          have absent : other ∉ added := fun member => opened.fresh other member old
          exact ⟨d, found, title, by rw [if_neg fun h => absent h.1]; exact silent⟩
      | cons p before =>
          obtain ⟨rfl, rest⟩ := List.cons_eq_cons.1 visit
          obtain ⟨d, found, title, told⟩ := ih rest
          refine ⟨d, found, title, ?_⟩
          -- a type that was met before is not added, so its earlier visit makes no difference
          have same : (name ∈ added ∧ name ∉ Dict.keys ((other, t) :: before)) ↔
              (name ∈ added ∧ name ∉ Dict.keys before) := by
            refine and_congr_right fun member => not_congr ?_
            have apart : name ≠ other := fun e => opened.fresh name member (e ▸ old)
            simp [Dict.keys, apart]
          simp only [same]
          exact told
  | @first seen added visits other d t new found title tells opened ih =>
      cases before with
      | nil =>
          obtain ⟨⟨rfl, rfl⟩, _⟩ : (other = name ∧ t = s) ∧ visits = after := by simpa using visit
          exact ⟨d, found, title, by rw [if_pos (by simp [Dict.keys])]; exact tells⟩
      | cons p before =>
          obtain ⟨rfl, rest⟩ := List.cons_eq_cons.1 visit
          obtain ⟨d, found, title, told⟩ := ih rest
          refine ⟨d, found, title, ?_⟩
          have same : (name ∈ other :: added ∧ name ∉ Dict.keys ((other, t) :: before)) ↔
              (name ∈ added ∧ name ∉ Dict.keys before) := by
            have once : name ∈ added → name ≠ other := fun member e =>
              opened.fresh name member (by simp [e])
            simp only [Dict.keys, List.map_cons, List.mem_cons, not_or]
            constructor
            · rintro ⟨rfl | member, apart, first⟩
              · exact absurd rfl apart
              · exact ⟨member, first⟩
            · rintro ⟨member, first⟩
              exact ⟨.inr member, once member, first⟩
          simp only [same]
          exact told

theorem Opened.length_errors {seen added : List String} {visits : Dict Scope}
    (h : k.Opened holder seen visits added) :
    ((visits.map Prod.snd).flatMap Scope.errors).length =
      (added.map (k.errorsOf (isHeld holder))).sum := by
  induction h with
  | done _ => rfl
  | again _ _ _ silent _ ih =>
      rw [List.map_cons, List.flatMap_cons, List.length_append, silent.2, ih, List.length_nil,
        Nat.zero_add]
  | first _ found _ tells _ ih =>
      rw [List.map_cons, List.flatMap_cons, List.length_append, tells.2, ih, List.map_cons,
        List.sum_cons, length_objectErrors found]

theorem Opened.length_warnings {seen added : List String} {visits : Dict Scope}
    (h : k.Opened holder seen visits added) :
    ((visits.map Prod.snd).flatMap Scope.warnings).length = added.countP k.namesMarker := by
  induction h with
  | done _ => rfl
  | again _ _ _ silent _ ih =>
      rw [List.map_cons, List.flatMap_cons, List.length_append, silent.1, ih, List.length_nil,
        Nat.zero_add]
  | first _ found _ tells _ ih =>
      rw [List.map_cons, List.flatMap_cons, List.length_append, tells.1, ih, List.countP_cons,
        length_objectWarnings found, Nat.add_comm]

/-! ## Steps -/

/-- The names for which scopes are opened: those of the classes and interfaces that get a definition
among `names` and in the properties of the added types. -/
def met (k : Compiler) (taken : String → Bool) (names added : List String) : List String :=
  names.filter (k.types.opens taken) ++ added.flatMap (k.types.leads taken)

/-- From `c` to `c'` the definitions of `added` were added, the scope gained messages, and scopes
were opened for `visits`. -/
structure Noted (k : Compiler) (holder : String → Option Owner) (scope : Nat)
    (warnings errors names : List String) (c c' : Compilation) (added : List String)
    (visits : Dict Scope) : Prop where
  holders : c'.registry.holder? = holder
  keys : c'.registry.slots.keys = c.registry.slots.keys ++ added
  scopes : Diagnostics.Gains scope warnings errors (visits.map Prod.snd) c.diagnostics
    c'.diagnostics
  opened : k.Opened holder c.registry.slots.keys visits added
  visited : visits.keys.Perm (k.met (isHeld holder) names added)

/-- `k.Notes holder scope work warnings errors names`: whenever `work` succeeds, it has written these
messages to the scope and opened scopes for what `names` leads to. -/
def Notes {α : Type} (k : Compiler) (holder : String → Option Owner) (scope : Nat)
    (work : Compile α) (warnings errors names : List String) : Prop :=
  ∀ c a c', c.registry.holder? = holder → scope < c.diagnostics.scopes.length →
    work c = .ok a c' → ∃ added visits, k.Noted holder scope warnings errors names c c' added visits

section Steps

variable {α β : Type} {work : Compile α} {f : α → Compile β} {scope : Nat}
  {w w' e e' n n' : List String}

theorem Noted.nothing {c c' : Compilation} (holders : c'.registry.holder? = holder)
    (keys : c'.registry.slots.keys = c.registry.slots.keys)
    (scopes : Diagnostics.Gains scope w e [] c.diagnostics c'.diagnostics) :
    k.Noted holder scope w e [] c c' [] [] :=
  ⟨holders, by rw [keys, List.append_nil], scopes, .done _, .refl _⟩

theorem Noted.trans {c c1 c' : Compilation} {a a' : List String} {v v' : Dict Scope}
    (here : scope < c.diagnostics.scopes.length) (h : k.Noted holder scope w e n c c1 a v)
    (h' : k.Noted holder scope w' e' n' c1 c' a' v') :
    k.Noted holder scope (w ++ w') (e ++ e') (n ++ n') c c' (a ++ a') (v ++ v') where
  holders := h'.holders
  keys := by rw [h'.keys, h.keys, List.append_assoc]
  scopes := by
    rw [List.map_append]
    exact h.scopes.trans here h'.scopes
  opened := h.opened.append (h.keys ▸ h'.opened)
  visited := by
    rw [Dict.keys_append]
    refine (h.visited.append h'.visited).trans (List.perm_iff_count.2 fun name => ?_)
    simp only [met, List.filter_append, List.flatMap_append, List.count_append]
    omega

theorem Noted.errorCount {c c' : Compilation} {added : List String} {visits : Dict Scope}
    (here : scope < c.diagnostics.scopes.length)
    (h : k.Noted holder scope w e n c c' added visits) :
    c'.diagnostics.errorCount =
      c.diagnostics.errorCount + e.length + (added.map (k.errorsOf (isHeld holder))).sum := by
  rw [h.scopes.errorCount here, h.opened.length_errors]

theorem Noted.warningCount {c c' : Compilation} {added : List String} {visits : Dict Scope}
    (here : scope < c.diagnostics.scopes.length)
    (h : k.Noted holder scope w e n c c' added visits) :
    c'.diagnostics.warningCount =
      c.diagnostics.warningCount + w.length + added.countP k.namesMarker := by
  rw [h.scopes.warningCount here, h.opened.length_warnings]

theorem notes_pure (a : α) : k.Notes holder scope (pure a) [] [] [] := by
  intro c b c' holders _ h
  obtain ⟨_, rfl⟩ := Work.pure_ok_iff.1 h
  exact ⟨[], [], .nothing holders rfl (.nothing scope _)⟩

theorem notes_error (message : String) :
    k.Notes holder scope (Compile.error scope message) [] [message] [] := by
  intro c b c' holders _ h
  cases h
  exact ⟨[], [], .nothing holders rfl (Diagnostics.gains_error scope message _)⟩

theorem notes_warn (message : String) :
    k.Notes holder scope (Compile.warn scope message) [message] [] [] := by
  intro c b c' holders _ h
  cases h
  exact ⟨[], [], .nothing holders rfl (Diagnostics.gains_warn scope message _)⟩

theorem Notes.bind (h : k.Notes holder scope work w e n)
    (h' : ∀ a, k.Notes holder scope (f a) w' e' n') :
    k.Notes holder scope (work >>= f) (w ++ w') (e ++ e') (n ++ n') := by
  intro c b c' holders here hb
  obtain ⟨a, c1, ha, hb⟩ := Work.bind_ok_iff.1 hb
  obtain ⟨added, visits, noted⟩ := h c a c1 holders here ha
  have there := Nat.lt_of_lt_of_le here noted.scopes.length_le
  obtain ⟨added', visits', noted'⟩ := h' a c1 b c' noted.holders there hb
  exact ⟨_, _, noted.trans here noted'⟩

theorem Notes.bind_pure (h : k.Notes holder scope work w e n) (g : α → β) :
    k.Notes holder scope (work >>= fun a => pure (g a)) w e n := by
  rw [← List.append_nil w, ← List.append_nil e, ← List.append_nil n]
  exact h.bind fun _ => notes_pure _

theorem notes_errors (lead : String) (names : List String) :
    k.Notes holder scope (Compile.errors scope lead names) [] (names.map (lead ++ ·)) [] := by
  induction names with
  | nil => exact notes_pure ()
  | cons name rest ih => exact (notes_error (lead ++ name)).bind fun _ => ih

end Steps

/-! ## The compiler -/

/-- What the compilation of bodies has to be like for that of references. -/
def NotesObjects (k : Compiler) (holder : String → Option Owner)
    (object : Definition → Nat → Compile Json) : Prop :=
  ∀ d scope, k.Notes holder scope (object d scope) (k.objectWarnings d) (k.objectErrors holder d)
    (k.types.propertyNames d)

variable {object : Definition → Nat → Compile Json} {scope : Nat}

/-- A broken name opens no scope. -/
theorem notes_any {name : String} (h : k.types.opens (isHeld holder) name = false)
    (message : String) :
    k.Notes holder scope (do Compile.error scope message; return Fragment.any) [] [message]
      [name] := by
  intro c a c' holders here done
  obtain ⟨added, visits, noted⟩ :=
    (notes_error message).bind_pure (fun _ => Fragment.any) c a c' holders here done
  refine ⟨added, visits, noted.holders, noted.keys, noted.scopes, noted.opened, ?_⟩
  simpa [met, h] using noted.visited

/-- A reference to a class or interface opens a scope. The messages of the type go there when the
reference is the first one. -/
theorem notes_define {name : String} {d : Definition} (found : k.types.find? name = some d)
    (opens : k.types.opens (isHeld holder) name = true) (notes : k.NotesObjects holder object) :
    k.Notes holder scope (Compile.child scope d.kind.text name >>= fun inner =>
      Registry.define name .type (object d inner)) [] [] [name] := by
  intro c a c' holders here h
  obtain ⟨inner, c1, opened, h⟩ := Work.bind_ok_iff.1 h
  cases opened
  obtain ⟨rfl, ⟨slot, present, _, rfl⟩ | ⟨missing, body, c2, produced, resolved⟩⟩ :=
    Registry.define_ok_iff.1 h
  · obtain ⟨s, title, warnings, errors, scopes⟩ := Diagnostics.Gains.inside (.nothing _ _)
    refine ⟨[], [(name, s)], holders, (List.append_nil _).symm, scopes, ?_, ?_⟩
    · exact .again (Dict.mem_keys_of_find? present) found title ⟨warnings, errors⟩ (.done _)
    · simp [met, opens, Dict.keys]
  · obtain ⟨_, _, _, rfl⟩ := Registry.resolve_ok_iff.1 resolved
    have reserved : Registry.holder? ⟨c.registry.slots ++ [(name, Slot.mk .type .pending)]⟩ =
        holder := by
      rw [← holders]
      exact c.registry.holder?_append_types (by simp)
    have there : c.diagnostics.scopes.length <
        (c.diagnostics.child scope d.kind.text name).2.scopes.length := by
      simp [Diagnostics.child]
    obtain ⟨added, visits, noted⟩ := notes d _ _ body c2 reserved there produced
    obtain ⟨s, title, warnings, errors, scopes⟩ := noted.scopes.inside
    have keys := noted.keys
    have inside := noted.opened
    simp only [HoldsRegistry.withRegistry, Dict.keys_append] at keys inside
    refine ⟨name :: added, (name, s) :: visits, ?_, ?_, scopes, ?_, ?_⟩
    · exact (Registry.holder?_adjust c2.registry name (fun slot =>
        { slot with entry := .resolved (describedBy name body) }) fun _ => rfl).trans noted.holders
    · rw [List.append_cons]
      exact (Dict.keys_adjust _ name _).trans keys
    · exact .first (Dict.find?_eq_none_iff.1 missing) found title ⟨warnings, errors⟩ inside
    · rw [met, List.filter_cons_of_pos opens, List.flatMap_cons, TypeSystem.leads_of_find found]
      exact noted.visited.cons name

theorem compileName_of_holder {name : String} {d : Definition}
    (found : k.types.find? name = some d) (isObject : d.isObject = true) {c : Compilation}
    {owner : Owner} (h : c.registry.holder? name = some owner) (scope : Nat) :
    k.compileName object name scope c = compileName.clash name scope owner c := by
  obtain ⟨held, other⟩ := Option.filter_eq_some_iff.1 h
  simp only [compileName, found]
  cases d with
  | enumDef e => cases isObject
  | classDef _ | interfaceDef _ =>
      simp only [bind, EStateM.bind, Compile.registry, held]
      cases owner with
      | type => simp at other
      | resource | extension => rfl

theorem notes_name (name : String) (notes : k.NotesObjects holder object) :
    k.Notes holder scope (k.compileName object name scope) [] (k.complaints holder (.named name))
      [name] := by
  cases found : k.types.find? name with
  | none =>
      simp only [compileName, found]
      have said : k.complaints holder (.named name) = ["unresolvable type reference " ++ name] := by
        simp [complaints, TypeRef.leaves, complaint?, found]
      rw [said]
      exact notes_any (by simp [TypeSystem.opens, found]) _
  | some d =>
      by_cases isObject : d.isObject = true
      · have said : k.complaints holder (.named name) = ((holder name).map fun owner =>
            "type " ++ name ++ " clashes with the " ++ owner.text ++
              " definition of the same key").toList := by
          cases d with
          | enumDef _ => cases isObject
          | classDef _ | interfaceDef _ =>
              cases held : holder name <;> simp [complaints, TypeRef.leaves, complaint?, found, held]
        rw [said]
        intro c a c' holders here h
        cases held : holder name with
        | some owner =>
            rw [compileName_of_holder found isObject (by rw [holders, held])] at h
            exact notes_any (by simp [TypeSystem.opens, found, isHeld, held]) _ c a c' holders here h
        | none =>
            have free : isHeld holder name = false := by simp [isHeld, held]
            rw [compileName_of_not_taken found isObject
              (by rw [← Registry.isHeld_holder?, holders, free])] at h
            exact notes_define found (TypeSystem.opens_iff.2 ⟨d, found, isObject, free⟩) notes
              c a c' holders here h
      · cases d with
        | classDef _ | interfaceDef _ => simp [Definition.isObject] at isObject
        | enumDef e =>
            have said : k.complaints holder (.named name) = [] := by
              simp [complaints, TypeRef.leaves, complaint?, found]
            simp only [compileName, found]
            rw [said]
            intro c a c' holders _ h
            obtain ⟨_, rfl⟩ := Work.pure_ok_iff.1 h
            refine ⟨[], [], holders, (List.append_nil _).symm, .nothing scope _, .done _, ?_⟩
            simp [met, TypeSystem.opens, found, Definition.isObject, Dict.keys]

mutual

theorem notes_reference (notes : k.NotesObjects holder object) : (type : TypeRef) →
    k.Notes holder scope (k.compileWith object type scope) [] (k.complaints holder type) type.names
  | .primitive p => by
      rw [compileWith]
      exact notes_pure _
  | .named name => by
      rw [compileWith]
      exact notes_name name notes
  | .union members => by
      rw [compileWith]
      exact (notes_each notes members).bind_pure Fragment.anyOf
  | .collection kind element => by
      rw [compileWith]
      exact (notes_reference notes element).bind_pure (Fragment.collection kind)
  | .unsupported raw => by
      rw [compileWith]
      exact (notes_error _).bind_pure fun _ => Fragment.any

theorem notes_each (notes : k.NotesObjects holder object) : (types : List TypeRef) →
    k.Notes holder scope (k.compileEach object types scope) []
      ((TypeRef.leavesOfAll types).filterMap (k.complaint? holder)) (TypeRef.namesOfAll types)
  | [] => by
      rw [compileEach]
      exact notes_pure _
  | type :: rest => by
      rw [compileEach, TypeRef.leavesOfAll, List.filterMap_append]
      exact (notes_reference notes type).bind fun schema =>
        (notes_each notes rest).bind_pure fun others => schema :: others

end

theorem notes_alternative (schema : Json) :
    k.Notes holder scope (k.offerAlternative schema) [] [] [] := by
  unfold offerAlternative
  cases k.alternative with
  | none => exact notes_pure _
  | some key =>
      intro c a c' holders _ h
      obtain ⟨r, c1, hr, h⟩ := Work.bind_ok_iff.1 h
      cases hr
      split at h
      · obtain ⟨_, rfl⟩ := Work.pure_ok_iff.1 h
        exact ⟨[], [], .nothing holders rfl (.nothing scope _)⟩
      · exact (Work.throw_ok_iff.1 h).elim

theorem notes_properties (notes : k.NotesObjects holder object) (properties : Dict Property) :
    k.Notes holder scope (k.compileProperties object scope properties) []
      (properties.flatMap fun p => k.complaints holder p.2.type)
      (properties.flatMap fun p => p.2.type.names) := by
  induction properties with
  | nil => exact notes_pure _
  | cons p rest ih =>
      exact (notes_reference notes p.2.type).bind fun _ => (notes_alternative _).bind fun schema =>
        ih.bind_pure fun others => (p.1, Fragment.describe p.2.summary schema) :: others

theorem notes_objects (levels : Nat) : k.NotesObjects holder (k.compileObject levels) := by
  induction levels with
  | zero => exact fun d scope c a c' _ _ h => (Work.throw_ok_iff.1 h).elim
  | succ levels ih =>
      intro d scope
      have body : k.Notes holder scope (do
          if (k.types.flatten d).properties.isEmpty && d.kind == .interfaceKind then
            Compile.warn scope markerInterfaceWarning
            return Fragment.ofType "object"
          let schemas ← k.compileProperties (k.compileObject levels) scope
            (k.types.flatten d).properties
          return Fragment.object schemas (requiredNames (k.types.flatten d).properties) d.summary)
          (k.objectWarnings d)
          ((k.types.flatten d).properties.flatMap fun p => k.complaints holder p.2.type)
          (k.types.propertyNames d) := by
        unfold objectWarnings TypeSystem.isMarker
        split
        · next marker =>
            have empty := List.isEmpty_iff.1 ((Bool.and_eq_true _ _).mp marker).1
            rw [TypeSystem.propertyNames, empty]
            exact (notes_warn _).bind_pure fun _ => Fragment.ofType "object"
        · exact (notes_properties ih _).bind_pure fun schemas =>
            Fragment.object schemas (requiredNames (k.types.flatten d).properties) d.summary
      rw [compileObject, objectErrors, List.append_assoc]
      exact (notes_errors _ _).bind fun _ => (notes_errors _ _).bind fun _ => body

/-- What a compilation writes to the scopes. -/
theorem compile_notes (type : TypeRef) :
    k.Notes holder scope (k.compile type scope) [] (k.complaints holder type) type.names :=
  notes_reference (notes_objects _) type

/-- What a compilation adds to the registry and writes to the scopes. -/
theorem compile_noted {type : TypeRef} {c c' : Compilation} {schema : Json}
    (here : scope < c.diagnostics.scopes.length)
    (compiled : k.compile type scope c = .ok schema c') :
    ∃ added visits,
      c'.registry.slots = c.registry.slots ++ added.map (k.typeSlot c.registry.taken) ∧
      DepthFirst (k.types.leads c.registry.taken) c.registry.slots.keys
        (type.names.filter (k.types.opens c.registry.taken)) (c.registry.slots.keys ++ added) ∧
      k.Noted c.registry.holder? scope [] (k.complaints c.registry.holder? type) type.names c c'
        added visits := by
  obtain ⟨added, visits, noted⟩ := compile_notes type c schema c' rfl here compiled
  obtain ⟨_, grown, slots, walk⟩ := compile_gives type scope c schema c' rfl compiled
  obtain rfl : added = grown :=
    List.append_cancel_left (noted.keys.symm.trans (keys_of_slots slots))
  exact ⟨added, visits, slots, walk, noted⟩

/-! ## The account of a compilation -/

/-- What a compilation of `type` in a scope has done from `c` to `c'`: it has defined the types
`added`, written to the scope, and opened scopes for `visits`. -/
structure Account (k : Compiler) (type : TypeRef) (scope : Nat) (c c' : Compilation)
    (added : List String) (visits : Dict Scope) : Prop where
  defined : c'.registry.slots = c.registry.slots ++ added.map (k.typeSlot c.registry.taken)
  once : added.Nodup ∧ ∀ key ∈ added, key ∉ c.registry.slots.keys
  /-- Each bad leaf of the reference is an error, and so is whatever is wrong with the types that
  were added. -/
  errors : c'.diagnostics.errorCount = c.diagnostics.errorCount +
    k.badLeaves c.registry.taken type + (added.map (k.errorsOf c.registry.taken)).sum
  /-- Each interface without properties that was added is a warning. -/
  warnings : c'.diagnostics.warningCount = c.diagnostics.warningCount + added.countP k.namesMarker
  /-- The scope has the errors of the bad leaves; no other scope that was there before has gained a
  message. -/
  scopes : (k.complaints c.registry.holder? type).length = k.badLeaves c.registry.taken type ∧
    ∃ inside, c'.diagnostics.scopes = c.diagnostics.scopes.modify scope
      (Scope.gain [] (k.complaints c.registry.holder? type) inside) ++ visits.map Prod.snd
  /-- A scope was opened for each reference to a class or interface, in `type` itself and in the
  properties of the types that were added. -/
  visited : visits.keys.Perm (k.met c.registry.taken type.names added)
  reached : added ⊆ visits.keys
  /-- All messages of an added type are on the scope that was opened for it first; the other scopes
  have none. -/
  first : ∀ (before : Dict Scope) name s after, visits = before ++ (name, s) :: after →
    ∃ d, k.types.find? name = some d ∧ s.name = Scope.nameOf d.kind.text name ∧
      if name ∈ added ∧ name ∉ before.keys then
        s.warnings = k.objectWarnings d ∧ s.errors = k.objectErrors c.registry.holder? d
      else s.warnings = [] ∧ s.errors = []

/-- Messages are neither lost nor duplicated, whatever was compiled before. -/
theorem compile_accounts {type : TypeRef} {c c' : Compilation} {schema : Json}
    (here : scope < c.diagnostics.scopes.length)
    (compiled : k.compile type scope c = .ok schema c') :
    ∃ added visits, k.Account type scope c c' added visits := by
  obtain ⟨added, visits, slots, walk, noted⟩ := compile_noted here compiled
  obtain ⟨_, same, nodup, fresh⟩ := walk.exists_added
  obtain rfl := List.append_cancel_left same
  have errors := noted.errorCount here
  have warnings := noted.warningCount here
  have said : (k.complaints c.registry.holder? type).length =
      k.badLeaves (isHeld c.registry.holder?) type := length_complaints type
  have visited := noted.visited
  rw [Registry.isHeld_holder?] at errors said visited
  rw [said] at errors
  exact ⟨added, visits, {
    defined := slots
    once := ⟨nodup, fresh⟩
    errors := errors
    warnings := warnings
    scopes := ⟨said, noted.scopes⟩
    visited := visited
    reached := noted.opened.added_subset
    first := fun before name s after visit => noted.opened.at_visit visit }⟩

end Compiler

/-! ## An example -/

namespace Shop

/-- An order is referred to twice, its lines refer back to it, and two leaves are bad. -/
def report : TypeRef :=
  .union [.named "shop.Order", .named "shop.Missing", .collection .array (.named "shop.Order"),
    .named "shop.Mark", .named "Expression"]

def reported : Option Compilation :=
  match compiler.compile report 0 start with
  | .ok _ c => some c
  | .error _ _ => none

theorem exists_reported : ∃ schema c, compiler.compile report 0 start = .ok schema c ∧
    c.registry.slots.keys = start.registry.slots.keys ++
      ["shop.Order", "shop.Line", "shop.Record", "shop.Mark"] := by
  have keys : reported.map (fun c => c.registry.slots.keys) = some (start.registry.slots.keys ++
      ["shop.Order", "shop.Line", "shop.Record", "shop.Mark"]) := by decide +kernel
  unfold reported at keys
  split at keys
  · next schema c compiled => exact ⟨schema, c, compiled, by simpa using keys⟩
  · simp at keys

end Shop

namespace Compiler

/-- In the example each of the four types has its messages once. -/
theorem compile_accounts_shop : 0 < Shop.start.diagnostics.scopes.length ∧
    ∃ schema c, Shop.compiler.compile Shop.report 0 Shop.start = .ok schema c ∧
      ∃ visits, Shop.compiler.Account Shop.report 0 Shop.start c
        ["shop.Order", "shop.Line", "shop.Record", "shop.Mark"] visits ∧
      c.diagnostics.errorCount = 9 ∧ c.diagnostics.warningCount = 1 := by
  have here : 0 < Shop.start.diagnostics.scopes.length := by decide
  obtain ⟨schema, c, compiled, keys⟩ := Shop.exists_reported
  obtain ⟨added, visits, account⟩ := compile_accounts here compiled
  obtain rfl := List.append_cancel_left (keys.symm.trans (keys_of_slots account.defined))
  refine ⟨here, schema, c, compiled, visits, account, ?_, ?_⟩
  · rw [account.errors]
    decide +kernel
  · rw [account.warnings]
    decide +kernel

/-- The scopes of the example in the order in which they were opened, with the numbers of their
warnings and errors. -/
example : Shop.reported.map (fun c => c.diagnostics.scopes.map fun s =>
    (s.name, s.warnings.length, s.errors.length)) =
    some [("", 0, 2), ("[class \"shop.Order\"]", 0, 2), ("[interface \"shop.Line\"]", 0, 2),
      ("[class \"shop.Order\"]", 0, 0), ("[class \"shop.Record\"]", 0, 2),
      ("[class \"shop.Record\"]", 0, 0), ("[class \"shop.Order\"]", 0, 0),
      ("[interface \"shop.Mark\"]", 1, 1)] := by
  decide +kernel

end Compiler

end ManifestSchema
