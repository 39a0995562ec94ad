import Mathlib.Data.List.Induction
import ManifestSchema.Proofs.DeclaredNames

/-!
# Merging manifests

Manifests are added to a type system one after the other. Adding one goes on up to its first key
that is there already; what came before that key stays, also for the manifests that are added later.

Results:

1. `TypeSystem.Recorded.prefix_addEach`: what is there neither changes nor moves;
2. `TypeSystem.find?_origins_iff`: the origin of a key is that of the call that brought it;
3. `TypeSystem.addEach_merges`: what a call answers and adds, after whatever calls there were before.
-/

namespace ManifestSchema

namespace TypeSystem

variable {ts : TypeSystem} {origin : String}

/-! ## Manifests one after the other -/

/-- Add manifests in turn, whatever became of those before. -/
def addEach (ts : TypeSystem) (calls : List (String × Assembly)) : TypeSystem :=
  calls.foldl (fun ts c => (ts.add c.1 c.2).2) ts

theorem addEach_concat (ts : TypeSystem) (calls : List (String × Assembly))
    (c : String × Assembly) :
    ts.addEach (calls ++ [c]) = ((ts.addEach calls).add c.1 c.2).2 := by
  rw [addEach, List.foldl_append]
  rfl

theorem addEach_append (ts : TypeSystem) (calls more : List (String × Assembly)) :
    ts.addEach (calls ++ more) = (ts.addEach calls).addEach more := List.foldl_append

theorem Merges.recorded {pairs : Dict Definition} {result : Except ManifestError Unit × TypeSystem}
    (merges : Merges origin ts pairs result) (recorded : ts.Recorded) :
    result.2.Recorded ∧ ∃ added, result.2 = ts.append origin added ∧ added <+: pairs := by
  cases merges with
  | all distinct =>
      exact ⟨⟨recorded.tracked.append origin _, distinct⟩, _, rfl, List.prefix_refl _⟩
  | @upTo before after fqn first d split distinct found =>
      refine ⟨⟨recorded.tracked.append origin _, distinct⟩, _, rfl, ?_⟩
      rw [split]
      exact List.prefix_append _ _

theorem add_merges (recorded : ts.Recorded) (origin : String) (assembly : Assembly) :
    Merges origin ts assembly.types (ts.add origin assembly) :=
  addAll_merges recorded origin assembly.types

theorem Recorded.addEach (recorded : ts.Recorded) (calls : List (String × Assembly)) :
    (ts.addEach calls).Recorded := by
  induction calls generalizing ts with
  | nil => exact recorded
  | cons c rest ih => exact ih ((add_merges recorded c.1 c.2).recorded recorded).1

/-- What is there stays where it is. -/
theorem Recorded.prefix_addEach (recorded : ts.Recorded) (calls : List (String × Assembly)) :
    ts.types <+: (ts.addEach calls).types ∧ ts.origins <+: (ts.addEach calls).origins := by
  induction calls generalizing ts with
  | nil => exact ⟨List.prefix_refl _, List.prefix_refl _⟩
  | cons c rest ih =>
      obtain ⟨recorded1, added, grown, _⟩ := (add_merges recorded c.1 c.2).recorded recorded
      have split : ts.addEach (c :: rest) = (ts.append c.1 added).addEach rest := by
        rw [← grown]
        rfl
      obtain ⟨types, origins⟩ := ih recorded1
      rw [grown] at types origins
      rw [split]
      exact ⟨(List.prefix_append _ _).trans types, (List.prefix_append _ _).trans origins⟩

/-- `BroughtBy calls key origin`: of the calls, the one that added the key had that origin. -/
def BroughtBy (calls : List (String × Assembly)) (key origin : String) : Prop :=
  ∃ earlier assembly, earlier ++ [(origin, assembly)] <+: calls ∧
    key ∉ (empty.addEach earlier).types.keys ∧
    key ∈ (empty.addEach (earlier ++ [(origin, assembly)])).types.keys

theorem broughtBy_concat_iff {calls : List (String × Assembly)} {origin' key : String}
    {assembly : Assembly} : BroughtBy (calls ++ [(origin, assembly)]) key origin' ↔
      BroughtBy calls key origin' ∨ origin = origin' ∧ key ∉ (empty.addEach calls).types.keys ∧
        key ∈ (empty.addEach (calls ++ [(origin, assembly)])).types.keys := by
  constructor
  · rintro ⟨earlier, assembly', within, missing, present⟩
    rcases List.prefix_concat_iff.1 within with same | within
    · obtain ⟨rfl, last⟩ := List.append_inj' same rfl
      cases last
      exact .inr ⟨rfl, missing, present⟩
    · exact .inl ⟨earlier, assembly', within, missing, present⟩
  · rintro (⟨earlier, assembly', within, missing, present⟩ | ⟨rfl, missing, present⟩)
    · exact ⟨earlier, assembly', within.trans (List.prefix_append _ _), missing, present⟩
    · exact ⟨calls, assembly, List.prefix_refl _, missing, present⟩

/-- The origin that is kept for a key is that of the call that brought it, whether or not that call
went through. -/
theorem find?_origins_iff (calls : List (String × Assembly)) (key origin : String) :
    (empty.addEach calls).origins.find? key = some origin ↔ BroughtBy calls key origin := by
  induction calls using List.reverseRecOn with
  | nil =>
      constructor
      · intro found
        cases found
      · rintro ⟨earlier, assembly, within, _⟩
        simp at within
  | append_singleton calls c ih =>
      obtain ⟨last, assembly⟩ := c
      have recorded := recorded_empty.addEach calls
      obtain ⟨_, added, grown, _⟩ := (add_merges recorded last assembly).recorded recorded
      rw [broughtBy_concat_iff, ← ih, addEach_concat, grown, append]
      rw [Dict.find?_append, Dict.find?_map (fun _ => last), Dict.keys_append, List.mem_append]
      have tracked : (empty.addEach calls).origins.keys = (empty.addEach calls).types.keys :=
        recorded.tracked
      cases found : (empty.addEach calls).origins.find? key with
      | some first =>
          have present : key ∈ (empty.addEach calls).types.keys :=
            tracked ▸ Dict.mem_keys_of_find? found
          simp [present]
      | none =>
          have missing : key ∉ (empty.addEach calls).types.keys :=
            tracked ▸ Dict.find?_eq_none_iff.1 found
          cases brought : Dict.find? added key with
          | none => simp [missing, Dict.find?_eq_none_iff.1 brought]
          | some d => simp [missing, Dict.mem_keys_of_find? brought]

/-! ## Any sequence of calls -/

section

variable {pairs : Dict Definition} {answer : Except ManifestError Unit} {ts' : TypeSystem}

/-- The keys of a file that goes through are new. -/
theorem Merges.new_of_ok (merges : Merges origin ts pairs (.ok (), ts')) :
    ts' = ts.append origin pairs ∧ ∀ key ∈ pairs.keys, key ∉ ts.types.keys := by
  cases merges with
  | all distinct =>
      refine ⟨rfl, fun key member present => ?_⟩
      rw [Dict.Distinct, Dict.keys_append] at distinct
      exact (List.nodup_append.1 distinct).2.2 key present key member rfl

/-- A file that names no key twice stops at the first of its keys that was there before. -/
theorem Merges.stops_of_error {e : ManifestError} (merges : Merges origin ts pairs (.error e, ts'))
    (tracked : ts.Tracked) (apart : pairs.Distinct) :
    ∃ before fqn d after first, pairs = before ++ (fqn, d) :: after ∧
      (∀ key ∈ before.keys, key ∉ ts.types.keys) ∧ fqn ∈ ts.types.keys ∧
      ts.origins.find? fqn = some first ∧ e = .duplicateType fqn first origin ∧
      ts' = ts.append origin before := by
  cases merges with
  | @upTo before after fqn first d split distinct found =>
      rw [Dict.Distinct, Dict.keys_append] at distinct
      rw [Dict.Distinct, split, Dict.keys_append] at apart
      have own : fqn ∉ before.keys :=
        fun member => (List.nodup_append.1 apart).2.2 fqn member fqn List.mem_cons_self rfl
      rw [append, Dict.find?_append, Dict.find?_map (fun _ => origin),
        Dict.find?_eq_none_iff.2 own, Option.map_none, Option.or_none] at found
      have present : fqn ∈ ts.types.keys := tracked ▸ Dict.mem_keys_of_find? found
      refine ⟨before, fqn, d, after, first, split, fun key member present => ?_, present, found,
        rfl, rfl⟩
      exact (List.nodup_append.1 distinct).2.2 key present key member rfl

theorem Merges.ok_iff (merges : Merges origin ts pairs (answer, ts')) (tracked : ts.Tracked)
    (apart : pairs.Distinct) : answer = .ok () ↔ ∀ key ∈ pairs.keys, key ∉ ts.types.keys := by
  cases answer with
  | ok _ => exact iff_of_true rfl merges.new_of_ok.2
  | error e =>
      obtain ⟨before, fqn, d, after, first, split, _, present, _⟩ :=
        merges.stops_of_error tracked apart
      have member : fqn ∈ pairs.keys := by
        rw [split, Dict.keys_append]
        exact List.mem_append_right _ List.mem_cons_self
      exact iff_of_false (fun h => by cases h) fun new => new fqn member present

end

/-- Manifests are merged exactly. After any calls, whatever they answered, the same keys have a type
and an origin, each key one, and further calls change and move nothing of it. A further call goes
through exactly when none of its keys is there, and then adds all its types in order. Otherwise it
names its first key that is there, with the origin that brought it and its own, and has added the
types before that key. So manifests are loaded together exactly when they repeat no key, and then in
order. -/
theorem addEach_merges (calls : List (String × Assembly)) :
    ((empty.addEach calls).origins.keys = (empty.addEach calls).types.keys ∧
      (empty.addEach calls).types.Distinct) ∧
    (∀ more, (empty.addEach calls).types <+: (empty.addEach (calls ++ more)).types ∧
      (empty.addEach calls).origins <+: (empty.addEach (calls ++ more)).origins) ∧
    (∀ origin assembly answer ts, assembly.types.Distinct →
      (empty.addEach calls).add origin assembly = (answer, ts) →
      (answer = .ok () ↔ ∀ key ∈ assembly.types.keys, key ∉ (empty.addEach calls).types.keys) ∧
      (answer = .ok () → ts = (empty.addEach calls).append origin assembly.types) ∧
      ∀ e, answer = .error e → ∃ before fqn d after first,
        assembly.types = before ++ (fqn, d) :: after ∧
        (∀ key ∈ before.keys, key ∉ (empty.addEach calls).types.keys) ∧
        fqn ∈ (empty.addEach calls).types.keys ∧ BroughtBy calls fqn first ∧
        e = .duplicateType fqn first origin ∧
        ts = (empty.addEach calls).append origin before) ∧
    ((∃ ts, ofAssemblies calls = .ok ts) ↔ (declarations calls).Distinct) ∧
    ∀ ts, ofAssemblies calls = .ok ts → ts.types = declarations calls := by
  have recorded := recorded_empty.addEach calls
  refine ⟨⟨recorded.tracked, recorded.distinct⟩, fun more => ?_,
    fun origin assembly answer ts apart added => ?_, exists_ofAssemblies_iff,
    fun ts loaded => (ofAssemblies_ok loaded).2⟩
  · rw [addEach_append]
    exact recorded.prefix_addEach more
  · have merges := add_merges recorded origin assembly
    rw [added] at merges
    refine ⟨merges.ok_iff recorded.tracked apart, ?_, ?_⟩
    · rintro rfl
      exact merges.new_of_ok.1
    · rintro e rfl
      obtain ⟨before, fqn, d, after, first, split, new, present, found, named, grown⟩ :=
        merges.stops_of_error recorded.tracked apart
      exact ⟨before, fqn, d, after, first, split, new, present,
        (find?_origins_iff calls fqn first).1 found, named, grown⟩

end TypeSystem

/-! ## An example -/

namespace Shop

/-- An enum without members. -/
def emptyEnum (fqn : String) : String × Definition := (fqn, .enumDef ⟨fqn, [], none⟩)

/-- Two files, of which the second one stops at the lamp of the first one. -/
def deliveries : List (String × Assembly) :=
  [("old.json", ⟨"old", [emptyEnum "Desk", emptyEnum "Lamp"]⟩),
    ("new.json", ⟨"new", [emptyEnum "Seat", emptyEnum "Lamp", emptyEnum "Shelf"]⟩)]

/-- A file that declares a shelf, and the seat of the file that stopped. -/
def lateDelivery : Assembly := ⟨"late", [emptyEnum "Shelf", emptyEnum "Seat"]⟩

end Shop

namespace TypeSystem

/-- The file is refused for the seat, which the call that was refused itself has brought. -/
theorem addEach_merges_deliveries :
    Shop.lateDelivery.types.Distinct ∧
      BroughtBy Shop.deliveries "Seat" "new.json" ∧
      ∃ ts, (empty.addEach Shop.deliveries).add "late.json" Shop.lateDelivery =
          (.error (.duplicateType "Seat" "new.json" "late.json"), ts) ∧
        ts.types.keys = ["Desk", "Lamp", "Seat", "Shelf"] := by
  have apart : Shop.lateDelivery.types.Distinct := by decide
  have refused : (empty.addEach Shop.deliveries).add "late.json" Shop.lateDelivery =
      (.error (.duplicateType "Seat" "new.json" "late.json"),
        (empty.addEach Shop.deliveries).append "late.json" [Shop.emptyEnum "Shelf"]) := by rfl
  obtain ⟨before, fqn, d, after, first, _, _, _, brought, named, _⟩ :=
    ((addEach_merges Shop.deliveries).2.2.1 _ _ _ _ apart refused).2.2 _ rfl
  cases named
  exact ⟨apart, brought, _, refused, rfl⟩

end TypeSystem

end ManifestSchema
