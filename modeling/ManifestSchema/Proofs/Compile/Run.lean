import ManifestSchema.Proofs.Compile.Growth

/-!
# Runs of the compiler

A run answers requests one after the other on one registry. Whoever makes the requests may open
scopes and record messages between them, so nothing is assumed of the diagnostics.

Results:

1. `Compiler.Run.fragments`: every answer is the schema `Compiler.fragment` of its reference;
2. `Compiler.Run.grows`: the registry grows by what can be reached from the requests;
3. `Compiler.type_entry_iff`: on a registry without types, the entries of types are exactly those
   that were added, each with the body `Compiler.definitionBody`.
-/

namespace ManifestSchema

namespace Compiler

/-- `k.Run c answers c'`: requests are compiled in order, each to its answer, and all succeed. -/
inductive Run (k : Compiler) : Compilation → List (TypeRef × Json) → Compilation → Prop
  | done (c : Compilation) : Run k c [] c
  | record {c c' : Compilation} {answers : List (TypeRef × Json)} (d : Diagnostics) :
      Run k { c with diagnostics := d } answers c' → Run k c answers c'
  | request {c c1 c' : Compilation} {answers : List (TypeRef × Json)} {type : TypeRef}
      {scope : Nat} {schema : Json} : k.compile type scope c = .ok schema c1 →
      Run k c1 answers c' → Run k c ((type, schema) :: answers) c'

/-- The names that occur in requests, in order. -/
def requestedNames (answers : List (TypeRef × Json)) : List String :=
  answers.flatMap fun a => a.1.names

variable {k : Compiler} {taken : String → Bool} {c c' : Compilation}
  {answers : List (TypeRef × Json)}

theorem Run.grows (run : k.Run c answers c') (ht : c.registry.taken = taken) :
    k.Grows taken (requestedNames answers) c.registry c'.registry := by
  induction run with
  | done c => exact .of_nothing rfl
  | record d _ ih => exact ih ht
  | @request c c1 c' answers type scope schema compiled _ ih =>
      have grows := (compile_gives type scope c schema c1 ht compiled).2
      exact grows.append (ih (grows.taken_eq.trans ht))

theorem Run.fragments (run : k.Run c answers c') (ht : c.registry.taken = taken) :
    ∀ a ∈ answers, a.2 = k.fragment taken a.1 := by
  induction run with
  | done c => exact fun a ha => absurd ha List.not_mem_nil
  | record d _ ih => exact ih ht
  | @request c c1 c' answers type scope schema compiled _ ih =>
      obtain ⟨value, grows⟩ := compile_gives type scope c schema c1 ht compiled
      intro a ha
      rcases List.mem_cons.1 ha with rfl | ha
      · exact value
      · exact ih (grows.taken_eq.trans ht) a ha

/-! ## Registries without types -/

theorem not_mem_keys_of_opens {r : Registry} (noTypes : r.NoTypes) {name : String}
    (opens : k.types.opens r.taken name = true) : name ∉ r.slots.keys := by
  obtain ⟨_, _, _, free⟩ := TypeSystem.opens_iff.1 opens
  rw [← Dict.find?_eq_none_iff]
  cases found : r.slots.find? name with
  | none => rfl
  | some slot =>
      have owner := noTypes _ (Dict.mem_of_find? found)
      simp only [Registry.taken, Registry.owner?, found, Option.map_some] at free
      cases held : slot.owner <;> simp_all

/-- What a walk adds to a registry without types, as a walk through an empty graph. -/
theorem Grows.exists_walk {names : List String} {r r' : Registry} (noTypes : r.NoTypes)
    (h : k.Grows r.taken names r r') :
    ∃ added, r'.slots = r.slots ++ added.map (k.typeSlot r.taken) ∧
      (∀ key ∈ added, key ∉ r.slots.keys) ∧
      DepthFirst (k.types.leads r.taken) [] (names.filter (k.types.opens r.taken)) added := by
  obtain ⟨added, slots, walk⟩ := h
  obtain ⟨_, same, _, fresh⟩ := walk.exists_added
  obtain rfl := List.append_cancel_left same
  -- other owners hold the keys that are there, and the walk enters none of these
  rw [← List.append_nil r.slots.keys] at walk
  obtain ⟨met, same, walk⟩ := walk.forget
    (fun name h => not_mem_keys_of_opens noTypes (List.mem_filter.1 h).2)
    (fun _ name h => not_mem_keys_of_opens noTypes (TypeSystem.opens_of_mem_leads h))
  rw [List.append_nil] at same
  obtain rfl := List.append_cancel_left same
  exact ⟨_, slots, fresh, walk⟩

theorem find?_map_typeSlot (keys : List String) (key : String) :
    Dict.find? (keys.map (k.typeSlot taken)) key =
      if key ∈ keys then some (k.typeSlot taken key).2 else none := by
  induction keys with
  | nil => rfl
  | cons other rest ih =>
      rw [List.map_cons, typeSlot, Dict.find?_cons, ih]
      by_cases h : other = key
      · simp [h, typeSlot]
      · simp [h, Ne.symm h]

/-- A key that was added has its finished definition; other keys are as they were. -/
theorem find?_of_grown {r r' : Registry} {added : List String}
    (slots : r'.slots = r.slots ++ added.map (k.typeSlot taken))
    (fresh : ∀ key ∈ added, key ∉ r.slots.keys) (key : String) :
    r'.slots.find? key =
      if key ∈ added then some (k.typeSlot taken key).2 else r.slots.find? key := by
  rw [slots, Dict.find?_append, find?_map_typeSlot]
  by_cases h : key ∈ added
  · simp [h, Dict.find?_eq_none_iff.2 (fresh key h)]
  · simp [h]

theorem type_entry_iff {r r' : Registry} {added : List String} (noTypes : r.NoTypes)
    (slots : r'.slots = r.slots ++ added.map (k.typeSlot taken))
    (fresh : ∀ key ∈ added, key ∉ r.slots.keys) {key : String} {entry : Entry} :
    r'.slots.find? key = some ⟨.type, entry⟩ ↔
      key ∈ added ∧ entry = .resolved (k.definitionBody taken key) := by
  rw [find?_of_grown slots fresh]
  by_cases h : key ∈ added
  · simp [h, typeSlot, eq_comm]
  · rw [if_neg h]
    exact ⟨fun found => absurd rfl (noTypes _ (Dict.mem_of_find? found)), fun g => absurd g.1 h⟩

/-- A definition of a type in the registry has the body that its type system gives it. -/
theorem Run.body_eq (run : k.Run c answers c') (noTypes : c.registry.NoTypes) {key : String}
    {entry : Entry} (found : c'.registry.slots.find? key = some ⟨.type, entry⟩) :
    k.types.opens c.registry.taken key = true ∧
      entry = .resolved (k.definitionBody c.registry.taken key) := by
  obtain ⟨added, slots, fresh, walk⟩ := (run.grows rfl).exists_walk noTypes
  obtain ⟨member, value⟩ := (type_entry_iff noTypes slots fresh).1 found
  refine ⟨?_, value⟩
  cases walk.mem_iff.1 member with
  | start h => exact (List.mem_filter.1 h).2
  | step _ h => exact TypeSystem.opens_of_mem_leads h

/-! ## References in a row -/

theorem run_of_compileEach {scope : Nat} {types : List TypeRef} {schemas : List Json}
    (h : k.compileEach (k.compileObject (k.types.size + 1)) types scope c = .ok schemas c') :
    k.Run c (types.zip schemas) c' := by
  induction types generalizing c schemas with
  | nil =>
      obtain ⟨rfl, rfl⟩ := Work.pure_ok_iff.1 (by rwa [compileEach] at h)
      exact .done _
  | cons type rest ih =>
      rw [compileEach] at h
      obtain ⟨schema, c1, compiled, h⟩ := Work.bind_ok_iff.1 h
      obtain ⟨others, c2, each, h⟩ := Work.bind_ok_iff.1 h
      obtain ⟨rfl, rfl⟩ := Work.pure_ok_iff.1 h
      exact .request compiled (ih each)

/-- The schemas of references that are compiled in order in the outermost scope, and the registry
after it. -/
def outcome? (k : Compiler) (types : List TypeRef) (c : Compilation) :
    Option (List Json × Registry) :=
  match k.compileEach (k.compileObject (k.types.size + 1)) types 0 c with
  | .ok schemas c => some (schemas, c.registry)
  | .error _ _ => none

theorem exists_run_of_outcome {types : List TypeRef} {schemas : List Json} {r : Registry}
    (h : k.outcome? types c = some (schemas, r)) : ∃ d, k.Run c (types.zip schemas) ⟨r, d⟩ := by
  unfold outcome? at h
  split at h
  · next others c' compiled =>
      cases h
      exact ⟨c'.diagnostics, run_of_compileEach compiled⟩
  · cases h

end Compiler

/-! ## An example -/

namespace Shop

/-- A class with an undeclared ancestor behind its base. Its lines lead back to it. -/
def order : Definition :=
  .classDef ⟨"shop.Order", some "shop.Record", [], none,
    [⟨"lines", .collection .array (.named "shop.Line"), false, false, some "What is ordered."⟩,
      ⟨"state", .named "shop.State", true, false, none⟩], some "An order."⟩

/-- An interface with a property of each kind that does not lead on: an undeclared name, and a
class whose key is held by someone else. -/
def line : Definition :=
  .interfaceDef ⟨"shop.Line", [],
    [⟨"order", .union [.primitive .string, .named "shop.Order"], false, false, none⟩,
      ⟨"note", .named "shop.Missing", true, false, none⟩,
      ⟨"price", .named "Expression", true, false, none⟩], none⟩

def record : Definition :=
  .classDef ⟨"shop.Record", some "shop.Gone", ["shop.Mark"], none,
    [⟨"parents", .collection .map (.named "shop.Record"), true, false, none⟩], none⟩

/-- An interface without properties that extends itself. -/
def mark : Definition := .interfaceDef ⟨"shop.Mark", ["shop.Mark"], [], none⟩

def state : Definition := .enumDef ⟨"shop.State", ["OPEN", "DONE"], none⟩

def expression : Definition := .classDef ⟨"Expression", none, [], none, [], none⟩

def types : TypeSystem :=
  ⟨[order, line, record, mark, state, expression].map fun d => (d.fqn, d), []⟩

def compiler : Compiler := ⟨types, some "Expression"⟩

/-- What properties offer as an alternative: a reference by name. -/
def alternative : Json := Fragment.object [("Ref", Fragment.ofType "string")] ["Ref"] none

/-- A registry in which an extension holds the key of a class. -/
def start : Compilation := ⟨⟨[("Expression", ⟨.extension, .resolved alternative⟩)]⟩, .empty⟩

def requests : List TypeRef := [.named "shop.Order", .collection .array (.named "shop.Mark")]

/-- The requests with their schemas. -/
def answers : List (TypeRef × Json) :=
  requests.zip (compiler.fragments start.registry.taken requests)

/-- The registry after the requests. -/
def finished : Registry :=
  ⟨start.registry.slots ++ ["shop.Order", "shop.Line", "shop.Record", "shop.Mark"].map
    (compiler.typeSlot start.registry.taken)⟩

theorem noTypes : start.registry.NoTypes := by
  unfold Registry.NoTypes
  decide

theorem keys_finished : finished.slots.keys = start.registry.slots.keys ++
    ["shop.Order", "shop.Line", "shop.Record", "shop.Mark"] := Compiler.keys_of_slots rfl

theorem exists_run : ∃ d, compiler.Run start answers ⟨finished, d⟩ :=
  Compiler.exists_run_of_outcome (by decide +kernel)

end Shop

end ManifestSchema
