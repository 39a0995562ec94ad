import ManifestSchema.Proofs.Dict
import ManifestSchema.Schema.Compile

/-!
# Steps of work on the registry

What a step of work did can be read off its result: the lemmas `..._ok_iff` say exactly when a step
succeeds, with which answer and in which state.

Results:

1. `Work.bind_ok_iff` and `Work.bind_error_iff`: a sequence of two steps succeeds when both do, one
   after the other, and it fails where one of them does;
2. `Registry.definitions_ok_iff` and `Registry.exists_definitions`: the definitions are the bodies
   in order, and they are there when nothing is pending;
3. `Registry.reserve_ok_iff`, `Registry.resolve_ok_iff` and `Registry.define_ok_iff`: the three
   operations of the registry.
-/

namespace ManifestSchema

theorem bind_eq_ok_iff {ε α β : Type} {x : Except ε α} {f : α → Except ε β} {b : β} :
    x >>= f = .ok b ↔ ∃ a, x = .ok a ∧ f a = .ok b := by
  cases x <;> simp [bind, Except.bind]

theorem bind_eq_error_iff {ε α β : Type} {x : Except ε α} {f : α → Except ε β} {e : ε} :
    x >>= f = .error e ↔ x = .error e ∨ ∃ a, x = .ok a ∧ f a = .error e := by
  cases x <;> simp [bind, Except.bind]

theorem ok_of_toOption {ε α : Type} {x : Except ε α} {a : α} (h : x.toOption = some a) :
    x = .ok a := by
  cases x with
  | error e => cases h
  | ok b => exact congrArg Except.ok (Option.some.inj h)

namespace Work

variable {σ α β : Type}

theorem bind_ok_iff {x : Work σ α} {f : α → Work σ β} {s s' : σ} {b : β} :
    (x >>= f) s = .ok b s' ↔ ∃ a s1, x s = .ok a s1 ∧ f a s1 = .ok b s' := by
  simp only [bind, EStateM.bind]
  constructor
  · intro h
    split at h
    · next a s1 hx => exact ⟨a, s1, hx, h⟩
    · simp at h
  · rintro ⟨a, s1, hx, hf⟩
    rw [hx]
    exact hf

theorem bind_error_iff {x : Work σ α} {f : α → Work σ β} {s s' : σ} {e : EngineError} :
    (x >>= f) s = .error e s' ↔
      x s = .error e s' ∨ ∃ a s1, x s = .ok a s1 ∧ f a s1 = .error e s' := by
  simp only [bind, EStateM.bind]
  cases x s <;> simp [and_assoc]

theorem pure_ok_iff {a b : α} {s s' : σ} :
    (pure a : Work σ α) s = .ok b s' ↔ a = b ∧ s = s' := by
  simp [pure, EStateM.pure]

theorem throw_ok_iff {e : EngineError} {b : α} {s s' : σ} :
    (throw e : Work σ α) s = .ok b s' ↔ False := by
  constructor
  · intro h
    cases h
  · exact False.elim

theorem bind_congr {x y : Work σ α} {f g : α → Work σ β} {s : σ} (first : x s = y s)
    (rest : ∀ a s', x s = .ok a s' → f a s' = g a s') : (x >>= f) s = (y >>= g) s := by
  simp only [bind, EStateM.bind, ← first]
  cases outcome : x s with
  | ok a s' => exact rest a s' outcome
  | error e s' => rfl

end Work

namespace Registry

/-- Whether someone other than the types holds a key. -/
def taken (r : Registry) (key : String) : Bool :=
  match r.owner? key with
  | some .resource | some .extension => true
  | some .type | none => false

/-- No definition belongs to a type. -/
def NoTypes (r : Registry) : Prop := ∀ p ∈ r.slots, p.2.owner ≠ .type

theorem owner?_append (d e : Dict Slot) (key : String) :
    owner? ⟨d ++ e⟩ key = (owner? ⟨d⟩ key).or (owner? ⟨e⟩ key) := by
  rw [owner?, owner?, owner?, Dict.find?_append]
  cases Dict.find? d key <;> rfl

theorem body?_append_of_mem {d e : Dict Slot} {key : String} (member : key ∈ d.keys) :
    body? ⟨d ++ e⟩ key = body? ⟨d⟩ key := by
  obtain ⟨slot, found⟩ := Option.isSome_iff_exists.1 (Dict.contains_iff.2 member)
  rw [body?, body?, entry?, entry?, Dict.find?_append, found, Option.some_or]

theorem body?_append_of_not_mem {d e : Dict Slot} {key : String} (new : key ∉ d.keys) :
    body? ⟨d ++ e⟩ key = body? ⟨e⟩ key := by
  rw [body?, body?, entry?, entry?, Dict.find?_append, Dict.find?_eq_none_iff.2 new,
    Option.none_or]

/-! ## Definitions -/

/-- The definitions are there when every entry is resolved, and they are the bodies in order. -/
theorem definitions_ok_iff {r : Registry} {d : Dict Json} :
    r.definitions = .ok d ↔
      r.slots.map (fun p => (p.1, p.2.entry)) = d.map fun p => (p.1, Entry.resolved p.2) := by
  unfold definitions
  generalize r.slots = slots
  induction slots generalizing d with
  | nil => cases d <;> simp [pure, Except.pure]
  | cons p rest ih =>
      obtain ⟨key, owner, entry⟩ := p
      rw [List.mapM_cons]
      cases entry with
      | pending => cases d <;> simp [bind, Except.bind]
      | resolved body =>
          cases d with
          | nil =>
              generalize List.mapM (m := Except EngineError) _ rest = others
              cases others <;> simp [bind, Except.bind, pure, Except.pure]
          | cons q d =>
              rw [List.map_cons, List.map_cons, List.cons.injEq, ← ih]
              generalize List.mapM (m := Except EngineError) _ rest = others
              obtain ⟨key', body'⟩ := q
              cases others <;> simp [bind, Except.bind, pure, Except.pure, eq_comm]

theorem entry?_of_definitions {r : Registry} {d : Dict Json} (h : r.definitions = .ok d)
    (key : String) : r.entry? key = (d.find? key).map Entry.resolved := by
  unfold entry?
  rw [← Dict.find?_map, ← Dict.find?_map, definitions_ok_iff.1 h]

/-- The definitions hold the body of each key, so no key is left without one. -/
theorem find?_definitions {r : Registry} {d : Dict Json} (h : r.definitions = .ok d)
    (key : String) : d.find? key = r.body? key := by
  rw [body?, entry?_of_definitions h]
  cases d.find? key <;> rfl

theorem keys_definitions {r : Registry} {d : Dict Json} (h : r.definitions = .ok d) :
    d.keys = r.slots.keys := by
  have keys := congrArg (List.map Prod.fst) (definitions_ok_iff.1 h)
  rw [List.map_map, List.map_map] at keys
  exact keys.symm

theorem exists_definitions {r : Registry} (h : r.pending = []) : ∃ d, r.definitions = .ok d := by
  unfold pending at h
  simp only [definitions_ok_iff]
  generalize r.slots = slots at h
  induction slots with
  | nil => exact ⟨[], rfl⟩
  | cons p rest ih =>
      obtain ⟨key, owner, entry⟩ := p
      cases entry with
      | pending => simp at h
      | resolved body =>
          obtain ⟨d, hd⟩ := ih (by simpa using h)
          exact ⟨(key, body) :: d, by rw [List.map_cons, List.map_cons, hd]⟩

theorem pending_append (r : Registry) (d : Dict Slot) :
    pending ⟨r.slots ++ d⟩ = r.pending ++ pending ⟨d⟩ := by
  simp [pending]

/-! ## Operations -/

variable {σ : Type} [HoldsRegistry σ]

theorem reserve_ok_iff {key : String} {owner : Owner} {s s' : σ} {new : Bool} :
    reserve key owner s = .ok new s' ↔
      (∃ slot, (HoldsRegistry.registry s).slots.find? key = some slot ∧ slot.owner = owner ∧
        new = false ∧ s' = s) ∨
      ((HoldsRegistry.registry s).slots.find? key = none ∧ new = true ∧
        s' = HoldsRegistry.withRegistry s
          ⟨(HoldsRegistry.registry s).slots ++ [(key, ⟨owner, .pending⟩)]⟩) := by
  simp only [reserve]
  cases found : (HoldsRegistry.registry s).slots.find? key with
  | none => simp [eq_comm]
  | some slot =>
      by_cases same : slot.owner = owner
      · simp [same, eq_comm]
      · simp [same]

theorem resolve_ok_iff {key : String} {body : Json} {s s' : σ} :
    resolve key body s = .ok () s' ↔
      ∃ slot, (HoldsRegistry.registry s).slots.find? key = some slot ∧ slot.entry = .pending ∧
        s' = HoldsRegistry.withRegistry s
          ⟨(HoldsRegistry.registry s).slots.adjust key fun slot =>
            { slot with entry := .resolved (describedBy key body) }⟩ := by
  simp only [resolve]
  cases found : (HoldsRegistry.registry s).slots.find? key with
  | none => simp
  | some slot =>
      cases state : slot.entry with
      | resolved body => simp [state]
      | pending => simp [state, eq_comm]

/-- A definition is either there already, or it is reserved, produced and resolved. -/
theorem define_ok_iff {key : String} {owner : Owner} {produce : Work σ Json} {s s' : σ}
    {answer : Json} :
    define key owner produce s = .ok answer s' ↔ answer = reference key ∧
      ((∃ slot, (HoldsRegistry.registry s).slots.find? key = some slot ∧ slot.owner = owner ∧
          s' = s) ∨
        (HoldsRegistry.registry s).slots.find? key = none ∧
          ∃ body s1, produce (HoldsRegistry.withRegistry s
              ⟨(HoldsRegistry.registry s).slots ++ [(key, ⟨owner, .pending⟩)]⟩) = .ok body s1 ∧
            resolve key body s1 = .ok () s') := by
  simp only [define, Work.bind_ok_iff, reserve_ok_iff]
  constructor
  · rintro ⟨new, s1, ⟨slot, found, held, rfl, rfl⟩ | ⟨missing, rfl, rfl⟩, h⟩
    · obtain ⟨rfl, rfl⟩ := Work.pure_ok_iff.1 h
      exact ⟨rfl, .inl ⟨slot, found, held, rfl⟩⟩
    · simp only [if_true] at h
      obtain ⟨body, s2, produced, h⟩ := Work.bind_ok_iff.1 h
      obtain ⟨_, s3, resolved, h⟩ := Work.bind_ok_iff.1 h
      obtain ⟨rfl, rfl⟩ := Work.pure_ok_iff.1 h
      exact ⟨rfl, .inr ⟨missing, body, s2, produced, resolved⟩⟩
  · rintro ⟨rfl, ⟨slot, found, held, rfl⟩ | ⟨missing, body, s1, produced, resolved⟩⟩
    · exact ⟨false, _, .inl ⟨slot, found, held, rfl, rfl⟩, rfl⟩
    · refine ⟨true, _, .inr ⟨missing, rfl, rfl⟩, ?_⟩
      simp only [if_true]
      exact Work.bind_ok_iff.2 ⟨body, s1, produced, Work.bind_ok_iff.2 ⟨(), s', resolved, rfl⟩⟩

/-- A key that is there is not touched. Another owner is an error. -/
theorem define_of_found {key : String} {owner : Owner} {produce : Work σ Json} {s : σ} {slot : Slot}
    (found : (HoldsRegistry.registry s).slots.find? key = some slot) :
    define key owner produce s =
      if slot.owner = owner then .ok (reference key) s
      else .error (.keyClash key slot.owner owner) s := by
  by_cases same : slot.owner = owner <;>
    simp [define, bind, EStateM.bind, reserve, found, same, pure, EStateM.pure]

/-- A key that is missing is reserved before its body is produced and given to it. -/
theorem define_of_missing {key : String} {owner : Owner} {produce : Work σ Json} {s : σ}
    (missing : (HoldsRegistry.registry s).slots.find? key = none) :
    define key owner produce s =
      (do resolve key (← produce); return reference key : Work σ Json)
        (HoldsRegistry.withRegistry s
          ⟨(HoldsRegistry.registry s).slots ++ [(key, ⟨owner, .pending⟩)]⟩) := by
  simp only [define, bind, EStateM.bind, reserve, missing, if_true]

/-- Only the body of a new key is produced. -/
theorem define_congr {key : String} {owner : Owner} {produce produce' : Work σ Json} {s : σ}
    (same : ∀ s', reserve key owner s = .ok true s' → produce s' = produce' s') :
    define key owner produce s = define key owner produce' s := by
  refine Work.bind_congr rfl fun new s' reserved => ?_
  cases new with
  | false => rfl
  | true => exact Work.bind_congr (same s' reserved) fun _ _ _ => rfl

end Registry

end ManifestSchema
