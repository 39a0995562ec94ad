import ManifestSchema.Json.Decode
import ManifestSchema.Manifest.TypeRef

/-!
# References as they are written

A type reference is classified by the first shape that fits it, and what fits none is kept as it is.
Writing a reference in its shape is the other way round. The parts of a union and of a collection
are classified one by one, so a part that fits no shape leaves the reference around it alone.

Results:

1. `TypeRef.classified`: by which shape a raw reference is classified;
2. `TypeRef.StandsAt.classified`: a part of a reference is what the raw value at its place is
   classified as;
3. `TypeRef.ofJson_toJson_of`: a reference that is written comes back, provided that what fits no
   shape in it really fits none;
4. `TypeRef.ofJson_toJson`: these together, and that classifying, writing and classifying again is
   classifying.
-/

namespace ManifestSchema

/-! ## Parts of values -/

namespace Json

/-- The value at the end of a path of keys and positions. -/
def at? : Json → List PathStep → Option Json
  | value, [] => some value
  | value, .key name :: rest => (value.get? name).bind fun inner => inner.at? rest
  | value, .index position :: rest =>
      (value.elements?.bind (·[position]?)).bind fun inner => inner.at? rest
  | _, .unknown :: _ => none

@[simp] theorem at?_nil (value : Json) : value.at? [] = some value := rfl

@[simp] theorem at?_obj_key (members : Dict Json) (name : String) (rest : List PathStep) :
    (Json.obj members).at? (.key name :: rest) =
      (members.find? name).bind fun inner => inner.at? rest := rfl

end Json

namespace TypeRef

/-! ## Classifying -/

/-- `Classified raw type`: what a raw reference stands for, by the first of its shapes that fits.

* `primitive`, `named`, `collection` and `union`: the shape fits, and none before it does.
* `odd`: the reference is kept as it is. -/
inductive Classified (raw : Json) : TypeRef → Prop
  | primitive {name : String} {p : Primitive} :
      (raw.get? "primitive").bind Json.text? = some name → Primitive.ofText? name = some p →
      Classified raw (.primitive p)
  | named {fqn : String} : (raw.get? "primitive").bind Json.text? = none →
      (raw.get? "fqn").bind Json.text? = some fqn → Classified raw (.named fqn)
  | collection {body element : Json} {kind : CollectionKind} :
      (raw.get? "primitive").bind Json.text? = none → (raw.get? "fqn").bind Json.text? = none →
      raw.get? "collection" = some body →
      ((body.get? "kind").bind Json.text?).bind CollectionKind.ofText? = some kind →
      body.get? "elementtype" = some element → Classified raw (.collection kind (ofJson element))
  | union {parts : List Json} : (raw.get? "primitive").bind Json.text? = none →
      (raw.get? "fqn").bind Json.text? = none → raw.get? "collection" = none →
      unionMembers? raw = some parts → Classified raw (.union (parts.map ofJson))
  | odd : Classified raw (.unsupported raw)

theorem classified (raw : Json) : Classified raw (ofJson raw) := by
  rw [ofJson]
  split
  · split
    · exact .primitive ‹_› ‹_›
    · exact .odd
  · split
    · exact .named ‹_› ‹_›
    · split
      · split
        · exact .collection ‹_› ‹_› ‹_› ‹_› ‹_›
        · exact .odd
      · split
        · next parts found =>
            have each : (parts.attach.map fun part => ofJson part.1) = parts.map ofJson := by simp
            have all : Classified raw (.union (parts.attach.map fun part => ofJson part.1)) := by
              rw [each]
              exact .union ‹_› ‹_› ‹_› found
            exact all
        · exact .odd

/-- What fits no shape is kept as it is. -/
theorem eq_of_unsupported {raw kept : Json} (h : ofJson raw = .unsupported kept) : kept = raw := by
  have classified := classified raw
  rw [h] at classified
  cases classified
  rfl

/-! ## Parts and their places -/

/-- `part.StandsAt path whole`: the part is written at the path in the form in which the whole is
written.

* `here`: the whole itself.
* `member`: inside a member of a union.
* `element`: inside the element of a collection. -/
inductive StandsAt (part : TypeRef) : List PathStep → TypeRef → Prop
  | here : StandsAt part [] part
  | member {path : List PathStep} {members : List TypeRef} {i : Nat} {m : TypeRef} :
      members[i]? = some m → StandsAt part path m →
      StandsAt part (.key "union" :: .key "types" :: .index i :: path) (.union members)
  | element {path : List PathStep} {kind : CollectionKind} {element : TypeRef} :
      StandsAt part path element →
      StandsAt part (.key "collection" :: .key "elementtype" :: path) (.collection kind element)

/-- A part is what the raw value at its place is classified as. -/
theorem StandsAt.classified {part whole : TypeRef} {path : List PathStep}
    (h : part.StandsAt path whole) {v : Json} (whole_eq : ofJson v = whole) :
    ∃ raw, v.at? path = some raw ∧ ofJson raw = part := by
  induction h generalizing v with
  | here => exact ⟨v, rfl, whole_eq⟩
  | @member path members i m found _ ih =>
      have classified := TypeRef.classified v
      rw [whole_eq] at classified
      cases classified with
      | @union parts _ _ _ listed =>
          rw [List.getElem?_map] at found
          obtain ⟨raw, here, inside⟩ := Option.map_eq_some_iff.1 found
          obtain ⟨types, inTypes, elements⟩ := Option.bind_eq_some_iff.1 listed
          obtain ⟨body, inUnion, inTypes⟩ := Option.bind_eq_some_iff.1 inTypes
          obtain ⟨leaf, there, same⟩ := ih inside
          refine ⟨leaf, ?_, same⟩
          simp only [Json.at?, inUnion, inTypes, elements, here, Option.bind_some]
          exact there
  | @element path kind element _ ih =>
      have classified := TypeRef.classified v
      rw [whole_eq] at classified
      cases classified with
      | collection _ _ inCollection _ inElement =>
          obtain ⟨leaf, there, same⟩ := ih rfl
          refine ⟨leaf, ?_, same⟩
          simp only [Json.at?, inCollection, inElement, Option.bind_some]
          exact there

/-! ## Writing and classifying -/

theorem ofJson_primitive (p : Primitive) : ofJson (.obj [("primitive", .str p.text)]) = .primitive p := by
  rw [ofJson]
  simp [Json.get?, Json.members?, Dict.find?, Json.text?, Primitive.ofText?_text]

theorem ofJson_named (fqn : String) : ofJson (.obj [("fqn", .str fqn)]) = .named fqn := by
  rw [ofJson]
  simp [Json.get?, Json.members?, Dict.find?, Json.text?]

theorem ofJson_collection (kind : CollectionKind) (element : Json) :
    ofJson (.obj [("collection", .obj [("kind", .str kind.text), ("elementtype", element)])]) =
      .collection kind (ofJson element) := by
  rw [ofJson]
  simp [Json.get?, Json.members?, Dict.find?, Json.text?, CollectionKind.ofText?_text]

theorem ofJson_union (parts : List Json) :
    ofJson (.obj [("union", .obj [("types", .arr parts)])]) = .union (parts.map ofJson) := by
  rw [ofJson]
  simp [Json.get?, Json.members?, Dict.find?, unionMembers?, Json.elements?]

/-- What fits no shape in a reference really fits none. -/
def OddOnly (type : TypeRef) : Prop :=
  ∀ path raw, StandsAt (.unsupported raw) path type → ∃ kept, ofJson raw = .unsupported kept

mutual

theorem ofJson_toJson_of : (type : TypeRef) → type.OddOnly → ofJson (toJson type) = type
  | .primitive p, _ => ofJson_primitive p
  | .named fqn, _ => ofJson_named fqn
  | .union members, odd => by
      rw [toJson, ofJson_union, map_ofJson_toJsonAll members]
      intro m member path raw stands
      obtain ⟨i, found⟩ := List.mem_iff_getElem?.1 member
      exact odd _ raw (.member found stands)
  | .collection kind element, odd => by
      rw [toJson, ofJson_collection, ofJson_toJson_of element]
      intro path raw stands
      exact odd _ raw (.element stands)
  | .unsupported raw, odd => by
      obtain ⟨kept, same⟩ := odd [] raw .here
      rw [toJson, same, eq_of_unsupported same]

theorem map_ofJson_toJsonAll : (types : List TypeRef) → (∀ type ∈ types, type.OddOnly) →
    (toJsonAll types).map ofJson = types
  | [], _ => rfl
  | type :: rest, odd => by
      rw [toJsonAll, List.map_cons, ofJson_toJson_of type (odd type List.mem_cons_self),
        map_ofJson_toJsonAll rest fun t member => odd t (List.mem_cons_of_mem _ member)]

end

theorem oddOnly_ofJson (v : Json) : (ofJson v).OddOnly := by
  intro path raw stands
  obtain ⟨leaf, _, same⟩ := stands.classified rfl
  exact ⟨raw, eq_of_unsupported same ▸ same⟩

/-- Classifying, writing and classifying again is classifying. Every part of a classified reference
is what the raw value at its place is classified as, and one that fits no shape is that value
unchanged. A reference comes back from its written form, whatever is in it that fits no shape. -/
theorem ofJson_toJson :
    (∀ v, ofJson (toJson (ofJson v)) = ofJson v) ∧
    (∀ v part path, part.StandsAt path (ofJson v) → ∃ raw, v.at? path = some raw ∧
      ofJson raw = part ∧ ∀ kept, part = .unsupported kept → kept = raw) ∧
    ∀ type : TypeRef, type.OddOnly → ofJson (toJson type) = type := by
  refine ⟨fun v => ofJson_toJson_of _ (oddOnly_ofJson v), fun v part path stands => ?_,
    ofJson_toJson_of⟩
  obtain ⟨raw, there, same⟩ := stands.classified rfl
  refine ⟨raw, there, same, ?_⟩
  rintro kept rfl
  exact eq_of_unsupported same

end TypeRef

/-! ## An example -/

namespace Shop

/-- A union of a map to something odd and of a name. -/
def mixedType : TypeRef :=
  .union [.collection .map (.unsupported (.obj [("primitive", .str "bigint")])), .named "shop.Lamp"]

end Shop

namespace TypeRef

/-- The union keeps its shape, and what is odd in it stays as it is. -/
theorem ofJson_toJson_mixed :
    Shop.mixedType.OddOnly ∧ ofJson (toJson Shop.mixedType) = Shop.mixedType := by
  have odd : ofJson (.obj [("primitive", .str "bigint")]) =
      .unsupported (.obj [("primitive", .str "bigint")]) := by
    rw [ofJson]
    have unknown : Primitive.ofText? "bigint" = none := by decide
    simp [Json.get?, Json.members?, Dict.find?, Json.text?, unknown]
  have read : ofJson (toJson Shop.mixedType) = Shop.mixedType := by
    simp only [Shop.mixedType, toJson, toJsonAll, ofJson_union, List.map_cons, List.map_nil,
      ofJson_collection, ofJson_named, odd]
  have oddOnly : Shop.mixedType.OddOnly := read ▸ oddOnly_ofJson _
  exact ⟨oddOnly, ofJson_toJson.2.2 _ oddOnly⟩

end TypeRef

end ManifestSchema
