import ManifestSchema.Definitions.Registry
import ManifestSchema.Proofs.Validation.Basic
import ManifestSchema.Schema.Fragment

/-!
# Validity of the fragments

What the schemas accept that types become, shape by shape, in terms of what the schemas inside them
accept. No steps are left in these statements.

Results:

1. `validWithin_mono`: more steps show more;
2. `valid_obj_iff` and `valid_ref_iff`: validity unfolds by one step;
3. one equivalence for each fragment, such as `valid_anyOf_iff` and `valid_object_iff`;
4. `valid_describe_iff` and `valid_describedBy_iff`: descriptions do not matter.
-/

namespace ManifestSchema

variable {definitions : Dict Json}

/-! ## Steps -/

theorem validWithin_succ (n : Nat) : ∀ schema v, validWithin definitions n schema v = true →
    validWithin definitions (n + 1) schema v = true := by
  induction n with
  | zero =>
      intro schema v h
      simp [validWithin] at h
  | succ n ih =>
      intro schema v h
      cases schema with
      | null | num _ | str _ | arr _ => simp [validWithin] at h
      | bool b => exact h
      | obj members =>
          unfold validWithin at h ⊢
          split
          · next text found =>
              simp only [found] at h
              split
              · next body resolved =>
                  simp only [resolved] at h
                  exact ih body v h
              · next missing => simp [missing] at h
          · next plain =>
              simp only [plain, Bool.and_eq_true] at h ⊢
              obtain ⟨⟨own, choice⟩, inner⟩ := h
              refine ⟨⟨own, ?_⟩, ?_⟩
              · cases choices : Keyword.choices? members with
                | none => rfl
                | some schemas =>
                    simp only [choices, Option.all_some, List.any_eq_true] at choice ⊢
                    obtain ⟨s, hs, accepted⟩ := choice
                    exact ⟨s, hs, ih s v accepted⟩
              · rw [List.all_eq_true] at inner ⊢
                exact fun p hp => ih p.1 p.2 (inner p hp)

theorem validWithin_mono {m n : Nat} (le : m ≤ n) {schema v : Json}
    (h : validWithin definitions m schema v = true) :
    validWithin definitions n schema v = true := by
  induction le with
  | refl => exact h
  | step _ ih => exact validWithin_succ _ _ _ ih

/-- Finitely many valid parts are shown within one number of steps. -/
theorem exists_steps_of_forall_valid {parts : List (Json × Json)}
    (h : ∀ p ∈ parts, Valid definitions p.1 p.2) :
    ∃ n, ∀ p ∈ parts, validWithin definitions n p.1 p.2 = true := by
  induction parts with
  | nil => exact ⟨0, fun p hp => absurd hp List.not_mem_nil⟩
  | cons p rest ih =>
      obtain ⟨m, hm⟩ := h p List.mem_cons_self
      obtain ⟨n, hn⟩ := ih fun q hq => h q (List.mem_cons_of_mem _ hq)
      refine ⟨max m n, fun q hq => ?_⟩
      rcases List.mem_cons.1 hq with rfl | hq
      · exact validWithin_mono (Nat.le_max_left m n) hm
      · exact validWithin_mono (Nat.le_max_right m n) (hn q hq)

/-- The keywords of an object schema without `$ref`, one by one. -/
theorem valid_obj_iff {schema : Dict Json} {v : Json}
    (plain : (schema.find? "$ref").bind Json.text? = none) :
    Valid definitions (.obj schema) v ↔
      (Keyword.meetsType schema v = true ∧ Keyword.meetsEnum schema v = true ∧
        Keyword.meetsRequired schema v = true) ∧
      (∀ schemas, Keyword.choices? schema = some schemas → ∃ s ∈ schemas, Valid definitions s v) ∧
      ∀ p ∈ Keyword.parts schema v, Valid definitions p.1 p.2 := by
  constructor
  · rintro ⟨n, h⟩
    cases n with
    | zero => simp [validWithin] at h
    | succ n =>
        simp only [validWithin, plain, Bool.and_eq_true, List.all_eq_true] at h
        obtain ⟨⟨⟨⟨type, enum⟩, required⟩, choice⟩, inner⟩ := h
        refine ⟨⟨type, enum, required⟩, fun schemas choices => ?_, fun p hp => ⟨n, inner p hp⟩⟩
        simp only [choices, Option.all_some, List.any_eq_true] at choice
        obtain ⟨s, hs, accepted⟩ := choice
        exact ⟨s, hs, n, accepted⟩
  · rintro ⟨⟨type, enum, required⟩, choice, inner⟩
    -- the parts and the choice were each shown within a number of steps of their own
    obtain ⟨n, hn⟩ := exists_steps_of_forall_valid inner
    cases choices : Keyword.choices? schema with
    | none =>
        refine ⟨n + 1, ?_⟩
        simp only [validWithin, plain, type, enum, required, choices, Bool.true_and,
          Option.all_none, List.all_eq_true]
        exact hn
    | some schemas =>
        obtain ⟨s, hs, m, hm⟩ := choice schemas choices
        refine ⟨max m n + 1, ?_⟩
        simp only [validWithin, plain, type, enum, required, choices, Bool.true_and,
          Option.all_some, Bool.and_eq_true, List.any_eq_true, List.all_eq_true]
        exact ⟨⟨s, hs, validWithin_mono (Nat.le_max_left m n) hm⟩,
          fun p hp => validWithin_mono (Nat.le_max_right m n) (hn p hp)⟩

theorem forall_parts_obj_iff {schema members : Dict Json} {accepts : Json → Json → Prop} :
    (∀ p ∈ Keyword.parts schema (.obj members), accepts p.1 p.2) ↔
      ∀ m ∈ members, ∀ s, Keyword.memberSchema? schema m.1 = some s → accepts s m.2 := by
  simp only [Keyword.parts, List.mem_filterMap, Option.map_eq_some_iff]
  constructor
  · intro h m hm s found
    exact h (s, m.2) ⟨m, hm, s, found, rfl⟩
  · rintro h p ⟨m, hm, s, found, rfl⟩
    exact h m hm s found

theorem valid_ref_iff {schema : Dict Json} {text : String} {v : Json}
    (found : (schema.find? "$ref").bind Json.text? = some text) :
    Valid definitions (.obj schema) v ↔
      ∃ body, Pointer.resolve? definitions text = some body ∧ Valid definitions body v := by
  constructor
  · rintro ⟨n, h⟩
    cases n with
    | zero => simp [validWithin] at h
    | succ n =>
        simp only [validWithin, found] at h
        split at h
        · next body resolved => exact ⟨body, resolved, n, h⟩
        · simp at h
  · rintro ⟨body, resolved, n, h⟩
    refine ⟨n + 1, ?_⟩
    simp only [validWithin, found, resolved]
    exact h

/-! ## Fragments -/

@[simp] theorem valid_bool_iff {b : Bool} {v : Json} :
    Valid definitions (.bool b) v ↔ b = true := by
  constructor
  · rintro ⟨n, h⟩
    cases n with
    | zero => simp [validWithin] at h
    | succ n => exact h
  · exact fun h => ⟨1, h⟩

theorem valid_any (v : Json) : Valid definitions Fragment.any v := by
  refine (valid_obj_iff rfl).2 ⟨⟨rfl, rfl, rfl⟩, fun _ h => (by cases h), fun p hp => ?_⟩
  cases v <;> simp [Keyword.parts, Keyword.memberSchema?] at hp

theorem valid_reference_iff {key : String} {v : Json} :
    Valid definitions (reference key) v ↔
      ∃ body, definitions.find? key = some body ∧ Valid definitions body v := by
  have found : (Dict.find? [("$ref", Json.str (Pointer.text key))] "$ref").bind Json.text? =
      some (Pointer.text key) := by
    simp [Dict.find?_cons, Json.text?]
  rw [reference, valid_ref_iff found, Pointer.resolve?, Pointer.key?_text, Option.bind_some]

theorem valid_ofType_iff {name : String} {v : Json} :
    Valid definitions (Fragment.ofType name) v ↔ v.hasType name = true := by
  rw [Fragment.ofType, valid_obj_iff (by simp [Dict.find?_cons])]
  cases v <;>
    simp [Keyword.meetsType, Keyword.meetsEnum, Keyword.meetsRequired, Keyword.choices?,
      Keyword.parts, Keyword.memberSchema?, Dict.find?_cons]

theorem valid_anyOf_iff {schemas : List Json} {v : Json} :
    Valid definitions (Fragment.anyOf schemas) v ↔ ∃ s ∈ schemas, Valid definitions s v := by
  rw [Fragment.anyOf, valid_obj_iff (by simp [Dict.find?_cons])]
  cases v <;>
    simp [Keyword.meetsType, Keyword.meetsEnum, Keyword.meetsRequired, Keyword.choices?,
      Keyword.parts, Keyword.memberSchema?, Dict.find?_cons, Json.elements?]

theorem valid_array_iff {element v : Json} (single : element.elements? = none) :
    Valid definitions (Fragment.collection .array element) v ↔
      ∃ elements, v = .arr elements ∧ ∀ w ∈ elements, Valid definitions element w := by
  rw [Fragment.collection, valid_obj_iff (by simp [Dict.find?_cons])]
  cases v with
  | arr elements =>
      cases element with
      | arr _ => cases single
      | null | bool _ | num _ | str _ | obj _ =>
          simp [Keyword.meetsType, Keyword.meetsEnum, Keyword.meetsRequired, Keyword.choices?,
            Keyword.parts, Dict.find?_cons, Json.hasType]
  | null | bool _ | num _ | str _ | obj _ =>
      simp [Keyword.meetsType, Dict.find?_cons, Json.hasType]

theorem valid_map_iff {element v : Json} :
    Valid definitions (Fragment.collection .map element) v ↔
      ∃ members, v = .obj members ∧ ∀ m ∈ members, Valid definitions element m.2 := by
  rw [Fragment.collection, valid_obj_iff (by simp [Dict.find?_cons])]
  cases v with
  | obj members =>
      rw [forall_parts_obj_iff]
      simp [Keyword.meetsType, Keyword.meetsEnum, Keyword.meetsRequired, Keyword.choices?,
        Keyword.memberSchema?, Dict.find?_cons, Json.hasType]
  | null | bool _ | num _ | str _ | arr _ =>
      simp [Keyword.meetsType, Dict.find?_cons, Json.hasType]

/-! ## Descriptions -/

/-- A description says nothing about values. -/
theorem valid_obj_congr {schema schema' : Dict Json} {v : Json}
    (same : ∀ key, key ≠ "description" → schema.find? key = schema'.find? key) :
    Valid definitions (.obj schema) v ↔ Valid definitions (.obj schema') v := by
  have steps : ∀ n, validWithin definitions n (.obj schema) v =
      validWithin definitions n (.obj schema') v := by
    intro n
    cases n with
    | zero => rfl
    | succ n =>
        simp only [validWithin, Keyword.meetsType, Keyword.meetsEnum, Keyword.meetsRequired,
          Keyword.choices?, Keyword.parts, Keyword.memberSchema?, same "$ref" (by decide),
          same "type" (by decide), same "enum" (by decide), same "required" (by decide),
          same "anyOf" (by decide), same "items" (by decide), same "properties" (by decide),
          same "additionalProperties" (by decide)]
  simp only [Valid, steps]

theorem find?_insertNew_of_ne {d : Dict Json} {key other : String} (ne : other ≠ key)
    (value : Json) : (Dict.insertNew d key value).find? other = d.find? other := by
  rw [Dict.find?_insertNew, if_neg (Ne.symm ne), Option.or_none]

theorem find?_append_description {d : Dict Json} {other : String} (ne : other ≠ "description")
    (summary : Option String) :
    Dict.find? (d ++ Fragment.description summary) other = d.find? other := by
  rw [Dict.find?_append]
  cases summary with
  | none => simp [Fragment.description]
  | some text => simp [Fragment.description, Dict.find?_cons, Ne.symm ne]

theorem valid_describedBy_iff {key : String} {schema v : Json} :
    Valid definitions (describedBy key schema) v ↔ Valid definitions schema v := by
  cases schema with
  | obj members => exact valid_obj_congr fun other ne => find?_insertNew_of_ne ne _
  | null | bool _ | num _ | str _ | arr _ => rfl

theorem valid_describe_iff {summary : Option String} {schema v : Json} :
    Valid definitions (Fragment.describe summary schema) v ↔ Valid definitions schema v := by
  cases schema with
  | obj members =>
      cases summary with
      | none => rfl
      | some text => exact valid_obj_congr fun other ne => find?_insertNew_of_ne ne _
  | null | bool _ | num _ | str _ | arr _ => rfl

theorem valid_enumeration_iff {e : EnumType} {v : Json} :
    Valid definitions (Fragment.enumeration e) v ↔ ∃ name ∈ e.members, v = .str name := by
  rw [Fragment.enumeration, valid_obj_congr fun other ne => find?_append_description ne _,
    valid_obj_iff (by simp [Dict.find?_cons])]
  cases v with
  | str text =>
      simp [Keyword.meetsType, Keyword.meetsEnum, Keyword.meetsRequired, Keyword.choices?,
        Keyword.parts, Dict.find?_cons, Json.hasType, Json.strings]
  | null | bool _ | num _ | arr _ | obj _ =>
      simp [Keyword.meetsType, Dict.find?_cons, Json.hasType]

/-- The members of an object schema before its description. -/
def objectMembers (properties : Dict Json) (required : List String) : Dict Json :=
  [("type", .str "object"), ("additionalProperties", .bool false),
    ("properties", .obj properties)] ++ Fragment.required required

theorem find?_objectMembers (properties : Dict Json) (required : List String) (key : String)
    (ne : key ≠ "required") :
    (objectMembers properties required).find? key = Dict.find? [("type", .str "object"),
      ("additionalProperties", .bool false), ("properties", .obj properties)] key := by
  have absent : Dict.find? (Fragment.required required) key = none := by
    cases required with
    | nil => rfl
    | cons name rest => exact if_neg (Ne.symm ne)
  rw [objectMembers, Dict.find?_append, absent, Option.or_none]

theorem meetsRequired_objectMembers (properties : Dict Json) (required : List String)
    (members : Dict Json) :
    Keyword.meetsRequired (objectMembers properties required) (.obj members) =
      required.all (Dict.contains members) := by
  cases required with
  | nil => rfl
  | cons name rest =>
      have found : (objectMembers properties (name :: rest)).find? "required" =
          some (.strings (name :: rest)) := by
        simp [objectMembers, Fragment.required, Dict.find?_cons]
      simp only [Keyword.meetsRequired, found, Json.strings]
      exact List.all_map

theorem memberSchema?_objectMembers (properties : Dict Json) (required : List String)
    (key : String) :
    Keyword.memberSchema? (objectMembers properties required) key =
      some ((properties.find? key).getD (.bool false)) := by
  simp only [Keyword.memberSchema?, find?_objectMembers properties required "properties"
    (by decide), find?_objectMembers properties required "additionalProperties" (by decide)]
  cases found : properties.find? key <;>
    simp [Dict.find?_cons, Json.get?, Json.members?, found]

/-- An object with exactly the given properties: every member is one of them and satisfies its
schema, and no required one is missing. -/
theorem valid_object_iff {properties : Dict Json} {required : List String}
    {summary : Option String} {v : Json} :
    Valid definitions (Fragment.object properties required summary) v ↔
      ∃ members, v = .obj members ∧
        (∀ m ∈ members, ∃ s, properties.find? m.1 = some s ∧ Valid definitions s m.2) ∧
        ∀ name ∈ required, Dict.contains members name = true := by
  have plain : (objectMembers properties required).find? "$ref" = none := by
    rw [find?_objectMembers _ _ _ (by decide)]
    simp [Dict.find?_cons]
  rw [Fragment.object, valid_obj_congr fun other ne => find?_append_description ne _,
    ← objectMembers, valid_obj_iff (by rw [plain]; rfl)]
  have type := find?_objectMembers properties required "type" (by decide)
  cases v with
  | null | bool _ | num _ | str _ | arr _ =>
      simp [Keyword.meetsType, type, Dict.find?_cons, Json.hasType]
  | obj members =>
      have enum := find?_objectMembers properties required "enum" (by decide)
      have anyOf := find?_objectMembers properties required "anyOf" (by decide)
      have member : ∀ m : String × Json, (∀ s, Keyword.memberSchema?
          (objectMembers properties required) m.1 = some s → Valid definitions s m.2) ↔
          ∃ s, properties.find? m.1 = some s ∧ Valid definitions s m.2 := by
        intro m
        rw [memberSchema?_objectMembers]
        cases properties.find? m.1 <;> simp
      rw [forall_parts_obj_iff, meetsRequired_objectMembers]
      simp only [member, Keyword.meetsType, Keyword.meetsEnum, Keyword.choices?, type, enum, anyOf]
      simp [Dict.find?_cons, Json.hasType, and_comm]

end ManifestSchema
