import ManifestSchema.Proofs.WriteOnce

/-!
# Producers

The body of a definition is produced by work on the same state. Between the reservation of its key
and the moment in which the body is written, the producer may reserve, resolve and define keys
itself, its own key among them, and it may fail halfway. No operation takes a key out of the
registry or hands it to another owner. So how a definition ends is decided by two things: by what
its producer answers, and by the first schema that the producer has given for the key itself.

Results:

1. `Registry.Becomes.find?_settled`: what a run of operations makes of an entry that is there;
2. `Work.Operates.define`, `Script.operates` and `Compiler.compile_operates`: the work that is done
   on a registry is a run of operations, at any depth;
3. `Registry.define_runs_producer`: how a definition ends, for every producer.
-/

namespace ManifestSchema

open HoldsRegistry (registry withRegistry)

/-- A state in which the registry that was put there is found. -/
class LawfulRegistry (σ : Type) [HoldsRegistry σ] : Prop where
  registry_withRegistry (s : σ) (r : Registry) : registry (withRegistry s r) = r

attribute [simp] LawfulRegistry.registry_withRegistry

instance : LawfulRegistry Registry := ⟨fun _ _ => rfl⟩

instance : LawfulRegistry Compilation := ⟨fun _ _ => rfl⟩

instance : LawfulRegistry Session := ⟨fun _ _ => rfl⟩

/-! ## Single operations -/

namespace Registry

variable {σ : Type} [HoldsRegistry σ] {key : String} {owner : Owner} {body : Json} {s : σ}

/-- The state in which a key has just been reserved. -/
def opened (key : String) (owner : Owner) (s : σ) : σ :=
  withRegistry s ⟨(registry s).slots ++ [(key, ⟨owner, .pending⟩)]⟩

/-- The state in which the body of a key has just been written. -/
def written (key : String) (body : Json) (s : σ) : σ :=
  withRegistry s ⟨(registry s).slots.adjust key fun slot =>
    { slot with entry := .resolved (describedBy key body) }⟩

theorem reserve_of_found {slot : Slot} (found : (registry s).slots.find? key = some slot) :
    reserve key owner s =
      if slot.owner = owner then .ok false s else .error (.keyClash key slot.owner owner) s := by
  simp only [reserve, found]

theorem reserve_of_missing (missing : (registry s).slots.find? key = none) :
    reserve key owner s = .ok true (opened key owner s) := by
  simp only [reserve, missing, opened]

theorem resolve_of_missing (missing : (registry s).slots.find? key = none) :
    resolve key body s = .error (.notReserved key) s := by
  simp only [resolve, missing]

theorem resolve_of_resolved {old : Json}
    (found : (registry s).slots.find? key = some ⟨owner, .resolved old⟩) :
    resolve key body s = .error (.alreadyResolved key) s := by
  simp only [resolve, found]

theorem resolve_of_pending (found : (registry s).slots.find? key = some ⟨owner, .pending⟩) :
    resolve key body s = .ok () (written key body s) := by
  simp only [resolve, found, written]

variable [LawfulRegistry σ]

theorem find?_opened (key : String) (owner : Owner) (s : σ) (other : String) :
    (registry (opened key owner s)).slots.find? other =
      ((registry s).slots.find? other).or
        (if key = other then some ⟨owner, .pending⟩ else none) := by
  rw [opened, LawfulRegistry.registry_withRegistry, Dict.find?_append, Dict.find?_cons,
    Dict.find?_nil]

theorem find?_written (key : String) (body : Json) (s : σ) (other : String) :
    (registry (written key body s)).slots.find? other =
      if key = other then ((registry s).slots.find? other).map fun slot =>
        { slot with entry := .resolved (describedBy key body) }
      else (registry s).slots.find? other := by
  rw [written, LawfulRegistry.registry_withRegistry, Dict.find?_adjust]

theorem keys_written (key : String) (body : Json) (s : σ) :
    (registry (written key body s)).slots.keys = (registry s).slots.keys := by
  rw [written, LawfulRegistry.registry_withRegistry, Dict.keys_adjust]

end Registry

/-! ## Runs of operations -/

/-- `Becomes s given s'`: operations on the registry, one after the other, lead from `s` to `s'`.
Some of them may have failed. In order, `given` are the keys that were to be resolved, with their
schemas.

* `reserve` and `resolve`: the two operations that write to a registry. A definition is made of
  them and of what its producer does.
* `beside`: what the state holds besides the registry is nobody's business. -/
inductive Registry.Becomes {σ : Type} [HoldsRegistry σ] (s : σ) : List (String × Json) → σ → Prop
  | refl : Becomes s [] s
  | reserve {given : List (String × Json)} {s' : σ} (key : String) (owner : Owner) :
      Becomes s given s' → Becomes s given (Work.after (Registry.reserve key owner) s')
  | resolve {given : List (String × Json)} {s' : σ} (key : String) (body : Json) :
      Becomes s given s' →
      Becomes s (given ++ [(key, body)]) (Work.after (Registry.resolve key body) s')
  | beside {given : List (String × Json)} {s' s'' : σ} :
      Becomes s given s' → registry s'' = registry s' → Becomes s given s''

/-- What becomes of the entry of a key when schemas are given for keys: a pending one takes the
first schema of its key. -/
def Entry.settle (key : String) (given : List (String × Json)) : Entry → Entry
  | .resolved body => .resolved body
  | .pending =>
      match Dict.find? given key with
      | some body => .resolved (describedBy key body)
      | none => .pending

namespace Entry

variable {key other : String} {body : Json} {entry : Entry}

@[simp] theorem settle_nil (key : String) (entry : Entry) : entry.settle key [] = entry := by
  cases entry <;> rfl

theorem settle_append (key : String) (given more : List (String × Json)) (entry : Entry) :
    entry.settle key (given ++ more) = (entry.settle key given).settle key more := by
  cases entry with
  | resolved body => rfl
  | pending =>
      simp only [settle, Dict.find?_append]
      cases Dict.find? given key <;> rfl

theorem settle_other (apart : other ≠ key) : entry.settle key [(other, body)] = entry := by
  cases entry <;> simp [settle, Dict.find?_cons, apart]

theorem settle_pending : Entry.pending.settle key [(key, body)] =
    .resolved (describedBy key body) := by
  simp [settle, Dict.find?_cons]

end Entry

namespace Registry

variable {σ : Type} [HoldsRegistry σ] {s s' s'' : σ} {given more : List (String × Json)}
  {key : String} {slot : Slot}

theorem Becomes.trans (h : Becomes s given s') (h' : Becomes s' more s'') :
    Becomes s (given ++ more) s'' := by
  induction h' with
  | refl => rwa [List.append_nil]
  | reserve key owner _ ih => exact ih.reserve key owner
  | resolve key body _ ih =>
      rw [← List.append_assoc]
      exact ih.resolve key body
  | beside _ same ih => exact ih.beside same

variable [LawfulRegistry σ]

theorem find?_after_reserve (found : (registry s).slots.find? key = some slot) (other : String)
    (owner : Owner) :
    (registry (Work.after (reserve other owner) s)).slots.find? key = some slot := by
  unfold Work.after
  cases present : (registry s).slots.find? other with
  | some held =>
      rw [reserve_of_found present]
      by_cases same : held.owner = owner <;> simpa only [same, if_true, if_false]
  | none =>
      rw [reserve_of_missing present]
      exact (find?_opened other owner s key).trans (by rw [found, Option.some_or])

theorem find?_after_resolve (found : (registry s).slots.find? key = some slot) (other : String)
    (body : Json) :
    (registry (Work.after (resolve other body) s)).slots.find? key =
      some { slot with entry := slot.entry.settle key [(other, body)] } := by
  unfold Work.after
  by_cases same : other = key
  · subst same
    obtain ⟨owner, _ | old⟩ := slot
    · rw [resolve_of_pending found, Entry.settle_pending]
      simp only [find?_written, if_true, found, Option.map_some]
    · rw [resolve_of_resolved found]
      exact found
  · rw [Entry.settle_other same]
    rcases present : (registry s).slots.find? other with _ | ⟨owner, _ | old⟩
    · rw [resolve_of_missing present]
      exact found
    · rw [resolve_of_pending present]
      simpa only [find?_written, if_neg same] using found
    · rw [resolve_of_resolved present]
      exact found

/-- Operations keep the owner of a key, and its entry but for the first schema that is given for
it. -/
theorem Becomes.find?_settled (h : Becomes s given s')
    (found : (registry s).slots.find? key = some slot) :
    (registry s').slots.find? key = some { slot with entry := slot.entry.settle key given } := by
  induction h with
  | refl => rw [Entry.settle_nil, found]
  | reserve other owner _ ih => exact find?_after_reserve ih other owner
  | resolve other body _ ih =>
      rw [Entry.settle_append]
      exact find?_after_resolve ih other body
  | beside _ same ih => rw [same, ih]

end Registry

/-! ## Work on a registry -/

/-- What `work` does to the registry, from any state and whether it succeeds or not, is a run of
operations. -/
def Work.Operates {σ α : Type} [HoldsRegistry σ] (work : Work σ α) : Prop :=
  ∀ s, ∃ given, Registry.Becomes s given (work.after s)

namespace Work

variable {σ α β : Type} {work : Work σ α} {f : α → Work σ β}

theorem after_bind (work : Work σ α) (f : α → Work σ β) (s : σ) :
    (work >>= f).after s =
      match work s with
      | .ok a s => (f a).after s
      | .error _ s => s := by
  simp only [after, bind, EStateM.bind]
  cases work s <;> rfl

theorem after_attempt (work : Work σ α) (s : σ) : work.attempt.after s = work.after s := by
  unfold after attempt
  cases work s <;> rfl

variable [HoldsRegistry σ]

/-- Work that does nothing to the registry may do what it likes to the rest of the state. -/
theorem operates_of_same (same : ∀ s, registry (work.after s) = registry s) : work.Operates :=
  fun s => ⟨[], .beside .refl (same s)⟩

theorem operates_pure (a : α) : (pure a : Work σ α).Operates := operates_of_same fun _ => rfl

theorem operates_throw (e : EngineError) : (throw e : Work σ α).Operates :=
  operates_of_same fun _ => rfl

theorem Operates.bind (h : work.Operates) (h' : ∀ a, (f a).Operates) : (work >>= f).Operates := by
  intro s
  obtain ⟨given, first⟩ := h s
  rw [after_bind]
  unfold after at first
  cases outcome : work s with
  | error e s1 => exact ⟨given, by rwa [outcome] at first⟩
  | ok a s1 =>
      rw [outcome] at first
      obtain ⟨more, second⟩ := h' a s1
      exact ⟨given ++ more, first.trans second⟩

theorem Operates.attempt (h : work.Operates) : work.attempt.Operates := by
  intro s
  rw [after_attempt]
  exact h s

theorem operates_reserve (key : String) (owner : Owner) :
    (Registry.reserve key owner : Work σ Bool).Operates :=
  fun _ => ⟨[], .reserve key owner .refl⟩

theorem operates_resolve (key : String) (body : Json) :
    (Registry.resolve key body : Work σ Unit).Operates :=
  fun _ => ⟨[(key, body)], .resolve key body .refl⟩

/-- A definition is a run of operations if what its producer does is one. -/
theorem Operates.define {produce : Work σ Json} (h : produce.Operates) (key : String)
    (owner : Owner) : (Registry.define key owner produce).Operates := by
  refine (operates_reserve key owner).bind fun new => ?_
  cases new with
  | false => exact operates_pure _
  | true => exact h.bind fun body => (operates_resolve key body).bind fun _ => operates_pure _

end Work

/-! ## Scripts and compilations -/

namespace Session

theorem operates_mark : mark.Operates := Work.operates_of_same fun _ => rfl

theorem operates_watch {α : Type} {work : Work Session α} (h : work.Operates) :
    (watch work).Operates :=
  operates_mark.bind fun _ => h.attempt.bind fun answer =>
    operates_mark.bind fun _ => Work.operates_pure answer

theorem operates_reserve (key : String) (owner : Owner) : (reserve key owner).Operates := by
  refine (Work.operates_reserve key owner).bind fun new => ?_
  cases new with
  | false => exact Work.operates_pure false
  | true => exact (Work.operates_of_same fun _ => rfl).bind fun _ => Work.operates_pure true

theorem operates_resolve (key : String) (body : Json) : (resolve key body).Operates :=
  (Work.operates_of_same fun _ => rfl).bind fun _ => Work.operates_resolve key body

theorem operates_define (key : String) (owner : Owner) {produce : Work Session Json}
    (h : produce.Operates) : (define key owner produce).Operates := by
  refine Work.Operates.define ?_ key owner
  refine (Work.operates_of_same fun _ => rfl).bind fun _ => ?_
  refine (Work.operates_of_same fun _ => rfl).bind fun _ => ?_
  refine operates_mark.bind fun _ => h.bind fun body => ?_
  exact (Work.operates_of_same fun _ => rfl).bind fun _ =>
    operates_mark.bind fun _ => Work.operates_pure body

end Session

/-- A script is a run of operations, and so are the producers in it, at any depth. -/
theorem Script.operates (p : Script) : p.run.Operates := by
  induction p with
  | finish result =>
      cases result with
      | ok body => exact Work.operates_pure body
      | error e => exact Work.operates_throw e
  | look next ih => exact fun s => ih s.registry s
  | reserve key owner next ih =>
      exact (Session.operates_watch (Session.operates_reserve key owner)).bind ih
  | resolve key body next ih =>
      exact (Session.operates_watch (Session.operates_resolve key body)).bind ih
  | define key owner producer next ihProducer ih =>
      exact (Session.operates_watch (Session.operates_define key owner ihProducer)).bind ih

namespace Compiler

variable {k : Compiler} {object : Definition → Nat → Compile Json}

theorem operates_error (scope : Nat) (message : String) : (Compile.error scope message).Operates :=
  Work.operates_of_same fun _ => rfl

theorem operates_any (scope : Nat) (message : String) :
    (do Compile.error scope message; return Fragment.any : Compile Json).Operates :=
  (operates_error scope message).bind fun _ => Work.operates_pure _

theorem operates_errors (scope : Nat) (lead : String) (names : List String) :
    (Compile.errors scope lead names).Operates := by
  induction names with
  | nil => exact Work.operates_pure ()
  | cons name rest ih => exact (operates_error scope (lead ++ name)).bind fun _ => ih

theorem operates_name (h : ∀ d scope, (object d scope).Operates) (name : String) (scope : Nat) :
    (k.compileName object name scope).Operates := by
  have entered : ∀ d : Definition, Work.Operates (do
      let inner ← Compile.child scope d.kind.text name
      Registry.define name .type (object d inner) : Compile Json) := fun d =>
    (Work.operates_of_same fun _ => rfl).bind fun inner => (h d inner).define name .type
  unfold compileName
  split
  · exact operates_any scope _
  · exact Work.operates_pure _
  · refine (Work.operates_of_same fun _ => rfl).bind fun r => ?_
    split
    · exact operates_any scope _
    · exact operates_any scope _
    · exact entered _
    · exact entered _

mutual

theorem operates_reference (h : ∀ d scope, (object d scope).Operates) (scope : Nat) :
    (type : TypeRef) → (k.compileWith object type scope).Operates
  | .primitive p => by
      rw [compileWith]
      exact Work.operates_pure _
  | .named name => by
      rw [compileWith]
      exact operates_name h name scope
  | .union members => by
      rw [compileWith]
      exact (operates_each h scope members).bind fun _ => Work.operates_pure _
  | .collection kind element => by
      rw [compileWith]
      exact (operates_reference h scope element).bind fun _ => Work.operates_pure _
  | .unsupported raw => by
      rw [compileWith]
      exact operates_any scope _

theorem operates_each (h : ∀ d scope, (object d scope).Operates) (scope : Nat) :
    (types : List TypeRef) → (k.compileEach object types scope).Operates
  | [] => by
      rw [compileEach]
      exact Work.operates_pure _
  | type :: rest => by
      rw [compileEach]
      exact (operates_reference h scope type).bind fun _ =>
        (operates_each h scope rest).bind fun _ => Work.operates_pure _

end

theorem operates_alternative (schema : Json) : (k.offerAlternative schema).Operates := by
  unfold offerAlternative
  split
  · exact Work.operates_pure schema
  · refine (Work.operates_of_same fun _ => rfl).bind fun r => ?_
    split
    · exact Work.operates_pure _
    · exact Work.operates_throw _

theorem operates_properties (h : ∀ d scope, (object d scope).Operates) (scope : Nat)
    (properties : Dict Property) : (k.compileProperties object scope properties).Operates := by
  induction properties with
  | nil => exact Work.operates_pure []
  | cons p rest ih =>
      exact (operates_reference h scope p.2.type).bind fun schema =>
        (operates_alternative schema).bind fun _ => ih.bind fun _ => Work.operates_pure _

theorem operates_object (levels : Nat) (d : Definition) (scope : Nat) :
    (k.compileObject levels d scope).Operates := by
  induction levels generalizing d scope with
  | zero => exact Work.operates_throw _
  | succ levels ih =>
      rw [compileObject]
      refine (operates_errors scope _ _).bind fun _ => (operates_errors scope _ _).bind fun _ => ?_
      split
      · exact (Work.operates_of_same fun _ => rfl).bind fun _ => Work.operates_pure _
      · exact (operates_properties ih scope _).bind fun _ => Work.operates_pure _

/-- What the compilation of a reference does to the registry is a run of operations. -/
theorem compile_operates (k : Compiler) (type : TypeRef) (scope : Nat) :
    (k.compile type scope).Operates :=
  operates_reference (operates_object _) scope type

end Compiler

/-! ## How a definition ends -/

instance {σ : Type} [HoldsRegistry σ] : HoldsRegistry (σ × Nat) :=
  ⟨fun s => registry s.1, fun s r => (withRegistry s.1 r, s.2)⟩

/-- Work that counts how often it is done. -/
def Work.counted {σ α : Type} (work : Work σ α) : Work (σ × Nat) α := fun s =>
  match work s.1 with
  | .ok a s' => .ok a (s', s.2 + 1)
  | .error e s' => .error e (s', s.2 + 1)

namespace Registry

variable {σ : Type} [HoldsRegistry σ] {key : String} {owner : Owner} {produce : Work σ Json}
  {s s' : σ}

theorem owner?_eq_some_iff {r : Registry} : r.owner? key = some owner ↔
    ∃ entry, r.slots.find? key = some ⟨owner, entry⟩ := by
  rw [owner?, Option.map_eq_some_iff]
  constructor
  · rintro ⟨slot, found, rfl⟩
    exact ⟨slot.entry, found⟩
  · rintro ⟨entry, found⟩
    exact ⟨_, found, rfl⟩

theorem define_of_error {e : EngineError} (missing : (registry s).slots.find? key = none)
    (failed : produce (opened key owner s) = .error e s') :
    define key owner produce s = .error e s' := by
  rw [define_of_missing missing]
  exact Work.bind_error_iff.2 (.inl failed)

theorem define_of_resolved {body old : Json} (missing : (registry s).slots.find? key = none)
    (produced : produce (opened key owner s) = .ok body s')
    (found : (registry s').slots.find? key = some ⟨owner, .resolved old⟩) :
    define key owner produce s = .error (.alreadyResolved key) s' := by
  rw [define_of_missing missing]
  exact Work.bind_error_iff.2 (.inr ⟨body, s', produced,
    Work.bind_error_iff.2 (.inl (resolve_of_resolved found))⟩)

theorem define_of_pending {body : Json} (missing : (registry s).slots.find? key = none)
    (produced : produce (opened key owner s) = .ok body s')
    (found : (registry s').slots.find? key = some ⟨owner, .pending⟩) :
    define key owner produce s = .ok (reference key) (written key body s') := by
  rw [define_of_missing missing]
  exact Work.bind_ok_iff.2 ⟨body, s', produced,
    Work.bind_ok_iff.2 ⟨(), _, resolve_of_pending found, rfl⟩⟩

theorem after_resolve_counted (key : String) (body : Json) (s : σ) (n : Nat) :
    Work.after (resolve key body) (s, n) = (Work.after (resolve key body) s, n) := by
  unfold Work.after
  rcases present : (registry s).slots.find? key with _ | ⟨owner, _ | old⟩
  · rw [resolve_of_missing present, resolve_of_missing (s := (s, n)) present]
  · rw [resolve_of_pending present, resolve_of_pending (s := (s, n)) present]
    rfl
  · rw [resolve_of_resolved present, resolve_of_resolved (s := (s, n)) present]

theorem after_define (missing : (registry s).slots.find? key = none) :
    (define key owner produce).after s =
      match produce (opened key owner s) with
      | .ok body s' => Work.after (resolve key body) s'
      | .error _ s' => s' := by
  rw [Work.after, define_of_missing missing]
  refine (Work.after_bind produce _ (opened key owner s)).trans ?_
  cases produce (opened key owner s) with
  | error e s' => rfl
  | ok body s' =>
      have last := Work.after_bind (resolve key body) (fun _ => pure (reference key)) s'
      refine last.trans (?_ : _ = Work.after (resolve key body) s')
      unfold Work.after
      cases resolve key body s' <;> rfl

/-- A producer is run once for a new key, and never for one that is there. -/
theorem after_define_counted (key : String) (owner : Owner) (produce : Work σ Json) (s : σ)
    (n : Nat) :
    (define key owner produce.counted).after (s, n) =
      ((define key owner produce).after s,
        if (registry s).owner? key = none then n + 1 else n) := by
  cases present : (registry s).slots.find? key with
  | some slot =>
      have held : (registry s).owner? key ≠ none := by simp [owner?, present]
      rw [Work.after, Work.after, define_of_found present,
        define_of_found (s := (s, n)) present, if_neg held]
      by_cases same : slot.owner = owner <;> simp only [same, if_true, if_false]
  | none =>
      have new : (registry s).owner? key = none := by simp [owner?, present]
      rw [after_define present, after_define (s := (s, n)) present, if_pos new]
      have started : opened key owner (s, n) = (opened key owner s, n) := rfl
      rw [started, Work.counted]
      cases produce (opened key owner s) with
      | ok body s' => exact after_resolve_counted key body s' (n + 1)
      | error e s' => rfl

/-- How a definition ends. A key that is held is not touched: its owner gets a reference, and
another one a clash. The producer of a new key starts when the key is pending, and it may do to the
registry what operations can do, its own key included. Its error is the error of the definition, and
the key stays with its owner, pending unless the producer gave it a schema. The first such schema
stays, and an answer comes too late then. Otherwise the answer is written, and nothing else is. That
a key is not reserved is nothing that the definition reports by itself. The last part counts how
often the producer is run. -/
theorem define_runs_producer [LawfulRegistry σ] (key : String) (owner : Owner)
    (produce : Work σ Json) (s : σ) :
    (∀ held, (registry s).owner? key = some held →
      define key owner produce s =
        if held = owner then .ok (reference key) s else .error (.keyClash key held owner) s) ∧
    (∀ given, (registry s).owner? key = none →
      Becomes (opened key owner s) given (produce.after (opened key owner s)) →
      (registry (opened key owner s)).slots.find? key = some ⟨owner, .pending⟩ ∧
      (∀ e s', produce (opened key owner s) = .error e s' →
        define key owner produce s = .error e s' ∧
        (registry s').slots.find? key = some ⟨owner, Entry.pending.settle key given⟩) ∧
      (∀ body s', produce (opened key owner s) = .ok body s' →
        (∀ own, Dict.find? given key = some own →
          define key owner produce s = .error (.alreadyResolved key) s' ∧
          (registry s').slots.find? key = some ⟨owner, .resolved (describedBy key own)⟩) ∧
        (Dict.find? given key = none →
          define key owner produce s = .ok (reference key) (written key body s') ∧
          (registry (written key body s')).slots.keys = (registry s').slots.keys ∧
          ∀ other, (registry (written key body s')).slots.find? other =
            if other = key then some ⟨owner, .resolved (describedBy key body)⟩
            else (registry s').slots.find? other)) ∧
      ∀ name s', define key owner produce s = .error (.notReserved name) s' →
        produce (opened key owner s) = .error (.notReserved name) s') ∧
    ∀ n, (define key owner produce.counted).after (s, n) =
      ((define key owner produce).after s,
        if (registry s).owner? key = none then n + 1 else n) := by
  refine ⟨fun held holds => ?_, fun given new runs => ?_, after_define_counted key owner produce s⟩
  · obtain ⟨entry, found⟩ := owner?_eq_some_iff.1 holds
    exact define_of_found found
  have missing : (registry s).slots.find? key = none := Option.map_eq_none_iff.1 new
  have pending : (registry (opened key owner s)).slots.find? key = some ⟨owner, .pending⟩ := by
    rw [find?_opened, missing, if_pos rfl, Option.none_or]
  have settled := runs.find?_settled pending
  -- after the producer, the entry of the key tells how the definition goes on
  have answered : ∀ body s', produce (opened key owner s) = .ok body s' →
      (∀ own, Dict.find? given key = some own →
        (registry s').slots.find? key = some ⟨owner, .resolved (describedBy key own)⟩) ∧
      (Dict.find? given key = none →
        (registry s').slots.find? key = some ⟨owner, .pending⟩) := by
    intro body s' produced
    rw [Work.after, produced, Entry.settle] at settled
    exact ⟨fun own gave => by rwa [gave] at settled, fun kept => by rwa [kept] at settled⟩
  refine ⟨pending, fun e s' failed => ⟨define_of_error missing failed, ?_⟩,
    fun body s' produced => ⟨fun own gave => ?_, fun kept => ?_⟩, fun name s' failed => ?_⟩
  · rwa [Work.after, failed] at settled
  · have found := (answered body s' produced).1 own gave
    exact ⟨define_of_resolved missing produced found, found⟩
  · have found := (answered body s' produced).2 kept
    refine ⟨define_of_pending missing produced found, keys_written key body s', fun other => ?_⟩
    rw [find?_written]
    by_cases same : key = other
    · subst same
      rw [if_pos rfl, if_pos rfl, found, Option.map_some]
    · rw [if_neg same, if_neg (Ne.symm same)]
  · cases outcome : produce (opened key owner s) with
    | error e s1 => rwa [define_of_error missing outcome] at failed
    | ok body s1 =>
        cases gave : Dict.find? given key with
        | some own =>
            have found := (answered body s1 outcome).1 own gave
            rw [define_of_resolved missing outcome found] at failed
            cases failed
        | none =>
            have found := (answered body s1 outcome).2 gave
            rw [define_of_pending missing outcome found] at failed
            cases failed

/-- A producer that asks for its own key, is refused it for another owner, and resolves it. -/
def overtake (key : String) : Work Registry Json := do
  let again ← define key .type (throw (.unresolvedDefinition key))
  let _ ← Work.attempt (reserve key .resource)
  resolve key (.obj [("next", again)])
  return .null

/-- What is there when that producer has answered. -/
def overtaken (key : String) : Registry :=
  ⟨[(key, ⟨.type, .resolved (.obj [("next", reference key), ("description", .str key)])⟩)]⟩

/-- The producer has resolved its own key, so its answer comes too late. -/
theorem define_runs_producer_overtaken :
    (registry empty).owner? "a" = none ∧
    Becomes (opened "a" .type empty) [("a", .obj [("next", reference "a")])]
      ((overtake "a").after (opened "a" .type empty)) ∧
    overtake "a" (opened "a" .type empty) = .ok .null (overtaken "a") ∧
    define "a" .type (overtake "a") empty = .error (.alreadyResolved "a") (overtaken "a") := by
  have runs : Becomes (opened "a" .type empty) [("a", .obj [("next", reference "a")])]
      ((overtake "a").after (opened "a" .type empty)) := .resolve "a" _ .refl
  have produced : overtake "a" (opened "a" .type empty) = .ok .null (overtaken "a") := rfl
  obtain ⟨_, _, answered, _⟩ :=
    (define_runs_producer "a" .type (overtake "a") empty).2.1 _ rfl runs
  exact ⟨rfl, runs, produced, ((answered _ _ produced).1 _ rfl).1⟩

end Registry

end ManifestSchema
