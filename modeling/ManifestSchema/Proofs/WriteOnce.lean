import ManifestSchema.Proofs.Registry

/-!
# The registry is write-once

A script is any finite run of operations on a registry. It sees the answer of each operation, also
when it is an error, and may look at the registry before it goes on. The producer of a definition is
a script itself, so operations on different keys interleave as they like, and a producer may resolve
or redefine its own key, or fail halfway.

A script runs on a session, which holds the registry and remembers what happened: all registries in
the order in which they were there, the keys that were reserved, those whose producer ran, and the
schemas that were given for keys.

Results:

1. `Registry.definitions_error_iff`: when there are no definitions, and what is reported then;
2. `Session.Sound.reserve` and `Session.Sound.resolve`: what one operation keeps;
3. `Script.keeps_sound`: what a whole run keeps, at any depth;
4. `Script.writes_once`: keys are only added, each with one owner and one body, and a producer runs
   at most once for a key.
-/

namespace ManifestSchema

/-! ## Scripts -/

/-- A finite run of operations, each of which decides with its answer how to go on. The result is
that of the producer when the script is one. -/
inductive Script
  | finish (result : Except EngineError Json)
  | look (next : Registry → Script)
  | reserve (key : String) (owner : Owner) (next : Except EngineError Bool → Script)
  | resolve (key : String) (body : Json) (next : Except EngineError Unit → Script)
  | define (key : String) (owner : Owner) (producer : Script)
      (next : Except EngineError Json → Script)

/-- A registry and what has happened to it. -/
structure Session where
  registry : Registry
  /-- The registries before and after each operation, in order. -/
  history : List Registry
  /-- The keys in the order in which they were reserved. -/
  reserved : List String
  /-- The keys for which a producer was run. -/
  produced : List String
  /-- The schemas that were given for keys. -/
  given : List (String × Json)

instance : HoldsRegistry Session := ⟨Session.registry, fun s r => { s with registry := r }⟩

namespace Work

variable {σ α : Type}

/-- The state after some work, whether it succeeds or not. -/
def after (work : Work σ α) (s : σ) : σ :=
  match work s with
  | .ok _ s => s
  | .error _ s => s

/-- Do some work, and go on with its answer or its error. -/
def attempt (work : Work σ α) : Work σ (Except EngineError α) := fun s =>
  match work s with
  | .ok a s => .ok (.ok a) s
  | .error e s => .ok (.error e) s

end Work

namespace Session

/-- A new registry. -/
def start : Session := ⟨.empty, [.empty], [], [], []⟩

/-- Remember the registry as it is. -/
def mark : Work Session Unit := fun s => .ok () { s with history := s.history ++ [s.registry] }

/-- Remember that a key was reserved. -/
def noteReserved (key : String) : Work Session Unit := fun s =>
  .ok () { s with reserved := s.reserved ++ [key] }

/-- Remember that a producer is run for a key. -/
def noteProduced (key : String) : Work Session Unit := fun s =>
  .ok () { s with produced := s.produced ++ [key] }

/-- Remember that a schema is given for a key. -/
def noteGiven (key : String) (body : Json) : Work Session Unit := fun s =>
  .ok () { s with given := s.given ++ [(key, body)] }

/-- An operation with the registries before and after it. -/
def watch {α : Type} (work : Work Session α) : Work Session (Except EngineError α) := do
  mark
  let answer ← Work.attempt work
  mark
  return answer

/-- Reserve a key. -/
def reserve (key : String) (owner : Owner) : Work Session Bool := do
  let new ← Registry.reserve key owner
  if new then noteReserved key
  return new

/-- Resolve a key. -/
def resolve (key : String) (body : Json) : Work Session Unit := do
  noteGiven key body
  Registry.resolve key body

/-- Define a key. The producer is run when the key has just been reserved. -/
def define (key : String) (owner : Owner) (produce : Work Session Json) : Work Session Json :=
  Registry.define key owner do
    noteReserved key
    noteProduced key
    mark
    let body ← produce
    noteGiven key body
    mark
    return body

end Session

namespace Script

/-- Run a script. -/
def run : Script → Work Session Json
  | finish (.ok body) => pure body
  | finish (.error e) => throw e
  | look next => fun s => (next s.registry).run s
  | reserve key owner next => do
      let answer ← Session.watch (Session.reserve key owner)
      (next answer).run
  | resolve key body next => do
      let answer ← Session.watch (Session.resolve key body)
      (next answer).run
  | define key owner producer next => do
      let answer ← Session.watch (Session.define key owner producer.run)
      (next answer).run

/-- What a script has done to a new registry. -/
def session (p : Script) : Session := p.run.after .start

end Script

/-! ## Registries before and after -/

namespace Registry

/-- `r.Extends r'`: the keys of `r` come first in `r'`, with the owners that they had and with the
bodies that were there. -/
structure Extends (r r' : Registry) : Prop where
  keys : r.slots.keys <+: r'.slots.keys
  owners : ∀ key owner, r.owner? key = some owner → r'.owner? key = some owner
  bodies : ∀ key body, r.body? key = some body → r'.body? key = some body

theorem Extends.refl (r : Registry) : r.Extends r :=
  ⟨List.prefix_refl _, fun _ _ => id, fun _ _ => id⟩

theorem Extends.trans {r r1 r2 : Registry} (h : r.Extends r1) (h' : r1.Extends r2) :
    r.Extends r2 where
  keys := h.keys.trans h'.keys
  owners key owner held := h'.owners key owner (h.owners key owner held)
  bodies key body found := h'.bodies key body (h.bodies key body found)

theorem extends_reserved (r : Registry) (key : String) (slot : Slot) :
    r.Extends ⟨r.slots ++ [(key, slot)]⟩ where
  keys := by
    rw [Dict.keys_append]
    exact List.prefix_append _ _
  owners other owner held := by
    unfold owner? at held ⊢
    obtain ⟨slot, found, rfl⟩ := Option.map_eq_some_iff.1 held
    rw [Dict.find?_append, found, Option.some_or, Option.map_some]
  bodies other body found := by
    unfold body? entry? at found ⊢
    rw [Dict.find?_append]
    cases present : r.slots.find? other with
    | none => simp [present] at found
    | some slot => rwa [present] at found

theorem body?_adjust {r : Registry} {key : String} {slot : Slot}
    (found : r.slots.find? key = some slot) (body : Json) (other : String) :
    body? ⟨r.slots.adjust key fun slot => { slot with entry := .resolved body }⟩ other =
      if key = other then some body else r.body? other := by
  unfold body? entry?
  rw [Dict.find?_adjust]
  by_cases same : key = other
  · subst same
    simp [found]
  · simp [same]

/-- The body of a key that has none yet may be written. -/
theorem extends_resolved {r : Registry} {key : String} {slot : Slot}
    (found : r.slots.find? key = some slot) (pending : slot.entry = .pending) (body : Json) :
    r.Extends ⟨r.slots.adjust key fun slot => { slot with entry := .resolved body }⟩ where
  keys := by simp only [Dict.keys_adjust, List.prefix_refl]
  owners other owner held := by
    unfold owner? at held ⊢
    rw [Dict.find?_adjust]
    split
    · rwa [Option.map_map]
    · exact held
  bodies other old known := by
    rw [body?_adjust found]
    have apart : key ≠ other := by
      rintro rfl
      simp [body?, entry?, found, pending] at known
    rwa [if_neg apart]

theorem definitions_error_iff {r : Registry} {e : EngineError} :
    r.definitions = .error e ↔
      ∃ key, r.pending.head? = some key ∧ e = .unresolvedDefinition key := by
  unfold definitions pending
  generalize r.slots = slots
  induction slots with
  | nil => simp [pure, Except.pure]
  | cons p rest ih =>
      obtain ⟨key, owner, entry⟩ := p
      rw [List.mapM_cons]
      cases entry with
      | pending => simp [bind, Except.bind, eq_comm]
      | resolved body =>
          have skipped : ((key, Slot.mk owner (.resolved body)) :: rest).filter
              (fun p => p.2.entry = .pending) = rest.filter fun p => p.2.entry = .pending := by
            simp
          rw [skipped, ← ih]
          generalize List.mapM (m := Except EngineError) _ rest = others
          cases others <;> simp [bind, Except.bind, pure, Except.pure]

end Registry

/-! ## What a run keeps -/

namespace Session

/-- What a session remembers is what has happened to its registry. -/
structure Sound (s : Session) : Prop where
  keys : s.registry.slots.keys = s.reserved
  distinct : s.reserved.Nodup
  produced : s.produced.Sublist s.reserved
  given : ∀ key body, s.registry.body? key = some body →
    ∃ fragment, (key, fragment) ∈ s.given ∧ body = describedBy key fragment
  history : s.history.Pairwise Registry.Extends
  extended : ∀ r ∈ s.history, r.Extends s.registry

theorem sound_start : start.Sound where
  keys := rfl
  distinct := List.nodup_nil
  produced := List.Sublist.refl _
  given _ _ found := by cases found
  history := List.pairwise_singleton _ _
  extended r member := by
    rw [List.mem_singleton.1 member]
    exact .refl _

variable {s : Session}

theorem Sound.mark (h : s.Sound) : Sound { s with history := s.history ++ [s.registry] } where
  keys := h.keys
  distinct := h.distinct
  produced := h.produced
  given := h.given
  history := by
    refine List.pairwise_append.2 ⟨h.history, List.pairwise_singleton _ _, fun r member r' last => ?_⟩
    rw [List.mem_singleton.1 last]
    exact h.extended r member
  extended r member := by
    rcases List.mem_append.1 member with member | last
    · exact h.extended r member
    · rw [List.mem_singleton.1 last]
      exact .refl _

theorem Sound.give (h : s.Sound) (key : String) (fragment : Json) :
    Sound { s with given := s.given ++ [(key, fragment)] } where
  keys := h.keys
  distinct := h.distinct
  produced := h.produced
  given key body found := by
    obtain ⟨fragment, member, value⟩ := h.given key body found
    exact ⟨fragment, List.mem_append_left _ member, value⟩
  history := h.history
  extended := h.extended

/-- A missing key is reserved, and a producer may be run for it. -/
theorem Sound.reserve (h : s.Sound) {key : String}
    (missing : s.registry.slots.find? key = none) (owner : Owner) {ran : List String}
    (atMost : ran.Sublist [key]) :
    Sound { s with
      registry := ⟨s.registry.slots ++ [(key, ⟨owner, .pending⟩)]⟩
      reserved := s.reserved ++ [key]
      produced := s.produced ++ ran } where
  keys := by rw [Dict.keys_append, h.keys]; rfl
  distinct := by
    have new : key ∉ s.reserved := h.keys ▸ Dict.find?_eq_none_iff.1 missing
    refine List.nodup_append.2 ⟨h.distinct, by simp, fun a old b last same => ?_⟩
    rw [List.mem_singleton.1 last] at same
    exact new (same ▸ old)
  produced := h.produced.append atMost
  given other body found := by
    refine h.given other body ?_
    unfold Registry.body? Registry.entry? at found ⊢
    rw [Dict.find?_append] at found
    cases present : s.registry.slots.find? other with
    | some slot => rwa [present] at found
    | none =>
        by_cases same : key = other <;> simp [present, Dict.find?_cons, same] at found
  history := h.history
  extended r member := (h.extended r member).trans (s.registry.extends_reserved _ _)

/-- A key that is pending is given its body. -/
theorem Sound.resolve (h : s.Sound) {key : String} {fragment : Json} {slot : Slot}
    (found : s.registry.slots.find? key = some slot) (pending : slot.entry = .pending)
    (member : (key, fragment) ∈ s.given) :
    Sound { s with
      registry := ⟨s.registry.slots.adjust key fun slot =>
        { slot with entry := .resolved (describedBy key fragment) }⟩ } where
  keys := by rw [Dict.keys_adjust, h.keys]
  distinct := h.distinct
  produced := h.produced
  given other body known := by
    rw [Registry.body?_adjust found] at known
    split at known
    · next same =>
        cases known
        exact ⟨fragment, same ▸ member, by rw [same]⟩
    · exact h.given other body known
  history := h.history
  extended r old := (h.extended r old).trans (Registry.extends_resolved found pending _)

/-- `work` keeps what a session remembers right, whether it succeeds or not. -/
def Keeps {α : Type} (work : Work Session α) : Prop := ∀ s, s.Sound → (work.after s).Sound

section Steps

variable {α β : Type} {work : Work Session α} {f : α → Work Session β}

theorem keeps_pure (a : α) : Keeps (pure a) := fun _ h => h

theorem keeps_throw (e : EngineError) : Keeps (throw e : Work Session α) := fun _ h => h

theorem Keeps.bind (h : Keeps work) (h' : ∀ a, Keeps (f a)) : Keeps (work >>= f) := by
  intro s sound
  have first := h s sound
  unfold Work.after at first ⊢
  simp only [Bind.bind, EStateM.bind]
  cases result : work s with
  | error e s1 => rwa [result] at first
  | ok a s1 =>
      rw [result] at first
      exact h' a s1 first

theorem Keeps.attempt (h : Keeps work) : Keeps (Work.attempt work) := by
  intro s sound
  have first := h s sound
  unfold Work.after at first ⊢
  unfold Work.attempt
  cases result : work s <;> rwa [result] at first

theorem keeps_mark : Keeps mark := fun _ h => h.mark

theorem Keeps.watch (h : Keeps work) : Keeps (watch work) :=
  keeps_mark.bind fun _ => h.attempt.bind fun answer => keeps_mark.bind fun _ => keeps_pure answer

end Steps

theorem keeps_reserve (key : String) (owner : Owner) : Keeps (reserve key owner) := by
  intro s h
  cases found : s.registry.slots.find? key with
  | some slot =>
      have same : (reserve key owner).after s = s := by
        by_cases held : slot.owner = owner <;>
          simp [Work.after, reserve, Bind.bind, EStateM.bind, Registry.reserve,
            HoldsRegistry.registry, found, held, pure, EStateM.pure]
      rwa [same]
  | none =>
      have reserved := h.reserve found owner (List.nil_sublist [key])
      have same : (reserve key owner).after s = { s with
          registry := ⟨s.registry.slots ++ [(key, ⟨owner, .pending⟩)]⟩
          reserved := s.reserved ++ [key]
          produced := s.produced ++ [] } := by
        simp [Work.after, reserve, Bind.bind, EStateM.bind, Registry.reserve,
          HoldsRegistry.registry, HoldsRegistry.withRegistry, found, noteReserved, pure,
          EStateM.pure]
      rwa [same]

/-- A schema that was given for a key may be written there. -/
theorem after_resolve_sound {key : String} {fragment : Json} (h : s.Sound)
    (member : (key, fragment) ∈ s.given) :
    (Work.after (Registry.resolve key fragment) s).Sound := by
  unfold Work.after Registry.resolve
  simp only [HoldsRegistry.registry, HoldsRegistry.withRegistry]
  cases found : s.registry.slots.find? key with
  | none => exact h
  | some slot =>
      cases entry : slot.entry with
      | resolved _ => simpa only [entry] using h
      | pending => simpa only [entry] using h.resolve found entry member

theorem keeps_resolve (key : String) (body : Json) : Keeps (resolve key body) := by
  intro s h
  exact after_resolve_sound (h.give key body) (List.mem_append_right _ (List.mem_singleton_self _))

/-- A definition keeps what its producer keeps. -/
theorem keeps_define (key : String) (owner : Owner) {produce : Work Session Json}
    (h : Keeps produce) : Keeps (define key owner produce) := by
  intro s sound
  cases found : s.registry.slots.find? key with
  | some slot =>
      have same : (define key owner produce).after s = s := by
        unfold Work.after define
        rw [Registry.define_of_found found]
        by_cases held : slot.owner = owner <;> simp [held]
      rwa [same]
  | none =>
      -- the producer starts when its key has just been reserved
      have begun := (sound.reserve found owner (List.Sublist.refl [key])).mark
      have handOver : ∀ body, Keeps (do
          noteGiven key body
          mark
          Registry.resolve key body) := fun body s h =>
        after_resolve_sound (h.give key body).mark
          (List.mem_append_right _ (List.mem_singleton_self _))
      have rest : Keeps (do
          let body ← produce
          noteGiven key body
          mark
          Registry.resolve key body
          return reference key) := by
        refine h.bind fun body => ?_
        have done := (handOver body).bind fun _ => keeps_pure (reference key)
        simpa only [bind_assoc] using done
      have final := rest _ begun
      unfold define Work.after
      rw [Registry.define_of_missing found]
      simp only [bind_assoc, pure_bind]
      exact final

end Session

/-- A run of a script keeps what the session remembers right, at any depth. -/
theorem Script.keeps_sound (p : Script) : Session.Keeps p.run := by
  induction p with
  | finish result =>
      cases result with
      | ok body => exact Session.keeps_pure body
      | error e => exact Session.keeps_throw e
  | look next ih => exact fun s h => ih s.registry s h
  | reserve key owner next ih => exact (Session.keeps_reserve key owner).watch.bind ih
  | resolve key body next ih => exact (Session.keeps_resolve key body).watch.bind ih
  | define key owner producer next ihProducer ih =>
      exact (Session.keeps_define key owner ihProducer).watch.bind ih

/-! ## Write-once -/

/-- `body` is what a key holds when it was resolved with `fragment`: an object describes itself, by
its own description when it has one and by the key otherwise, and its other members stay as they
are, in their order. -/
def Describes (key : String) : (fragment body : Json) → Prop
  | .obj members, body => ∃ others, body = .obj others ∧
      Dict.find? others "description" =
        some ((Dict.find? members "description").getD (.str key)) ∧
      others.filter (fun p => p.1 ≠ "description") = members.filter (fun p => p.1 ≠ "description")
  | fragment, body => body = fragment

theorem describes_describedBy (key : String) (fragment : Json) :
    Describes key fragment (describedBy key fragment) := by
  cases fragment with
  | null | bool _ | num _ | str _ | arr _ => rfl
  | obj members =>
      refine ⟨_, rfl, ?_, ?_⟩
      · rw [Dict.find?_insertNew]
        cases Dict.find? members "description" <;> simp
      · unfold Dict.insertNew
        split
        · rfl
        · simp

theorem Registry.reserve_error {key : String} {owner : Owner} {r r' : Registry} {e : EngineError}
    (h : reserve key owner r = .error e r') : r' = r := by
  simp only [reserve] at h
  split at h
  · split at h <;> cases h
    rfl
  · cases h

theorem Registry.resolve_error {key : String} {body : Json} {r r' : Registry} {e : EngineError}
    (h : resolve key body r = .error e r') : r' = r := by
  simp only [resolve] at h
  split at h
  · cases h
    rfl
  · split at h <;> cases h
    rfl

/-- Over every run of a script on a new registry, among all registries in the order in which they
were there: earlier ones are extended by later ones; keys stand in the order in which they were
reserved, and no producer is run twice for one; a body is what was given for its key, described by
the key if by nothing else; and the definitions are there exactly when nothing is pending. An
operation that fails leaves the registry as it is. -/
theorem Script.writes_once (p : Script) :
    (p.session.history ++ [p.session.registry]).Pairwise Registry.Extends ∧
    p.session.registry.slots.keys = p.session.reserved ∧
    p.session.reserved.Nodup ∧ p.session.produced.Nodup ∧
    (∀ r ∈ p.session.history ++ [p.session.registry],
      r.slots.keys <+: p.session.reserved ∧
      (∀ key body, r.body? key = some body →
        ∃ fragment, (key, fragment) ∈ p.session.given ∧ Describes key fragment body) ∧
      ((∃ d, r.definitions = .ok d) ↔ r.pending = []) ∧
      (∀ d, r.definitions = .ok d →
        d.keys = r.slots.keys ∧ ∀ key, d.find? key = r.body? key) ∧
      ∀ e, r.definitions = .error e →
        ∃ key, r.pending.head? = some key ∧ e = .unresolvedDefinition key) ∧
    (∀ key owner (r r' : Registry) e, Registry.reserve key owner r = .error e r' → r' = r) ∧
    (∀ key body (r r' : Registry) e, Registry.resolve key body r = .error e r' → r' = r) ∧
    ∀ key fragment (r r' : Registry), Registry.resolve key fragment r = .ok () r' →
      r.entry? key = some .pending ∧
        ∃ body, r'.body? key = some body ∧ Describes key fragment body := by
  have sound := p.keeps_sound _ Session.sound_start
  have extended : ∀ r ∈ p.session.history ++ [p.session.registry], r.Extends p.session.registry :=
    sound.mark.extended
  refine ⟨sound.mark.history, sound.keys, sound.distinct, sound.distinct.sublist sound.produced,
    fun r member => ⟨?_, ?_, ?_, ?_, ?_⟩, ?_, ?_, ?_⟩
  · have keys : p.session.registry.slots.keys = p.session.reserved := sound.keys
    exact keys ▸ (extended r member).keys
  · intro key body found
    obtain ⟨fragment, given, rfl⟩ := sound.given key body ((extended r member).bodies key body found)
    exact ⟨fragment, given, describes_describedBy key fragment⟩
  · constructor
    · rintro ⟨d, finished⟩
      cases pending : r.pending with
      | nil => rfl
      | cons key rest =>
          have failed : r.definitions = .error (.unresolvedDefinition key) :=
            Registry.definitions_error_iff.2 ⟨key, by rw [pending]; rfl, rfl⟩
          rw [finished] at failed
          cases failed
    · exact Registry.exists_definitions
  · exact fun d finished => ⟨Registry.keys_definitions finished, Registry.find?_definitions finished⟩
  · exact fun e failed => Registry.definitions_error_iff.1 failed
  · exact fun key owner r r' e failed => Registry.reserve_error failed
  · exact fun key body r r' e failed => Registry.resolve_error failed
  · intro key fragment r r' resolved
    obtain ⟨slot, found, pending, rfl⟩ := Registry.resolve_ok_iff.1 resolved
    refine ⟨?_, describedBy key fragment, ?_, describes_describedBy key fragment⟩
    · have present : r.slots.find? key = some slot := found
      rw [Registry.entry?, present, Option.map_some, pending]
    · exact (Registry.body?_adjust found _ key).trans (if_pos rfl)

/-- A producer resolves its own key, and what it returns comes too late. -/
example : (Script.define "a" .type (.resolve "a" (.obj []) fun _ => .finish (.ok .null))
    fun _ => .finish (.ok .null)).session.registry.slots =
    [("a", ⟨.type, .resolved (.obj [("description", .str "a")])⟩)] := by
  decide +kernel

end ManifestSchema
