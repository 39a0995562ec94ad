import ManifestSchema.Proofs.Compile.Growth

/-!
# References inside schemas

The schemas of types refer to the definitions of the classes and interfaces that the types name, and
to the alternative. A compilation adds all of these, so that no reference in the registry is left
without a definition.

Results:

1. `Compiler.pointers_fragment`: the references in the schema of a type, in order;
2. `Compiler.pointers_definitionBody`: the references in the body of a class or interface;
3. `Compiler.Grows.closed`: a compilation keeps the registry closed.
-/

namespace ManifestSchema

namespace Json

mutual

/-- The texts of all references in a value, at every depth. -/
def pointers : Json → List String
  | .arr elements => pointersOfElements elements
  | .obj members => pointersOfMembers members
  | _ => []

/-- The texts of all references in the elements of a list. -/
def pointersOfElements : List Json → List String
  | [] => []
  | v :: rest => pointers v ++ pointersOfElements rest

/-- The texts of all references in members and of those that are members themselves. -/
def pointersOfMembers : List (String × Json) → List String
  | [] => []
  | (key, v) :: rest =>
      (if key = "$ref" then v.text?.toList else []) ++ pointers v ++ pointersOfMembers rest

end

theorem pointersOfElements_eq_flatMap (elements : List Json) :
    pointersOfElements elements = elements.flatMap pointers := by
  induction elements with
  | nil => rfl
  | cons v rest ih => rw [pointersOfElements, ih, List.flatMap_cons]

theorem pointersOfMembers_append (d e : Dict Json) :
    pointersOfMembers (d ++ e) = pointersOfMembers d ++ pointersOfMembers e := by
  induction d with
  | nil => rfl
  | cons p rest ih =>
      obtain ⟨key, v⟩ := p
      rw [List.cons_append, pointersOfMembers, pointersOfMembers, ih]
      simp only [List.append_assoc]

/-- Members that hold objects or lists are no references themselves. -/
theorem pointersOfMembers_eq_flatMap {members : Dict Json}
    (noText : ∀ p ∈ members, p.2.text? = none) :
    pointersOfMembers members = members.flatMap fun p => pointers p.2 := by
  induction members with
  | nil => rfl
  | cons p rest ih =>
      obtain ⟨key, v⟩ := p
      have here : v.text? = none := noText _ List.mem_cons_self
      rw [pointersOfMembers, here, ih fun q hq => noText q (List.mem_cons_of_mem _ hq),
        List.flatMap_cons]
      simp

@[simp] theorem pointers_strings (texts : List String) : pointers (.strings texts) = [] := by
  rw [strings, pointers, pointersOfElements_eq_flatMap]
  simp [pointers]

theorem pointersOfMembers_insertNew_description (members : Dict Json) (text : String) :
    pointersOfMembers (Dict.insertNew members "description" (.str text)) =
      pointersOfMembers members := by
  unfold Dict.insertNew
  split
  · rfl
  · simp [pointersOfMembers_append, pointersOfMembers, pointers]

@[simp] theorem pointersOfMembers_description (summary : Option String) :
    pointersOfMembers (Fragment.description summary) = [] := by
  cases summary <;> simp [Fragment.description, pointersOfMembers, pointers]

@[simp] theorem pointersOfMembers_required (names : List String) :
    pointersOfMembers (Fragment.required names) = [] := by
  cases names with
  | nil => rfl
  | cons name rest =>
      simp [Fragment.required, pointersOfMembers]

@[simp] theorem pointers_describedBy (key : String) (schema : Json) :
    pointers (describedBy key schema) = schema.pointers := by
  cases schema with
  | obj members => exact pointersOfMembers_insertNew_description members key
  | null | bool _ | num _ | str _ | arr _ => rfl

@[simp] theorem pointers_describe (summary : Option String) (schema : Json) :
    pointers (Fragment.describe summary schema) = schema.pointers := by
  cases schema with
  | obj members =>
      cases summary with
      | none => rfl
      | some text => exact pointersOfMembers_insertNew_description members text
  | null | bool _ | num _ | str _ | arr _ => rfl

@[simp] theorem pointers_reference (key : String) :
    pointers (reference key) = [Pointer.text key] := by
  simp [reference, pointers, pointersOfMembers, text?]

@[simp] theorem pointers_any : pointers Fragment.any = [] := rfl

theorem pointers_anyOf (schemas : List Json) :
    pointers (Fragment.anyOf schemas) = schemas.flatMap pointers := by
  simp [Fragment.anyOf, pointers, pointersOfMembers, pointersOfElements_eq_flatMap]

@[simp] theorem pointers_collection (kind : CollectionKind) (element : Json) :
    pointers (Fragment.collection kind element) = element.pointers := by
  cases kind <;> simp [Fragment.collection, pointers, pointersOfMembers]

@[simp] theorem pointers_primitive (p : Primitive) : pointers (Fragment.primitive p) = [] := by
  cases p <;> simp [Fragment.primitive, Fragment.ofType, pointers, pointersOfMembers]

@[simp] theorem pointers_enumeration (e : EnumType) : pointers (Fragment.enumeration e) = [] := by
  simp [Fragment.enumeration, pointers, pointersOfMembers]

/-- A property may be called as a reference is; its schema is no text, so it is none. -/
theorem pointers_object {properties : Dict Json} (noText : ∀ p ∈ properties, p.2.text? = none)
    (required : List String) (summary : Option String) :
    pointers (Fragment.object properties required summary) =
      properties.flatMap fun p => p.2.pointers := by
  rw [← pointersOfMembers_eq_flatMap noText]
  simp [Fragment.object, pointers, pointersOfMembers, pointersOfMembers_append]

end Json

namespace Compiler

variable {k : Compiler} {taken : String → Bool}

/-! ## Schemas of types -/

mutual

/-- The schema of a type refers to the classes and interfaces that the type names, in order. -/
theorem pointers_fragment (k : Compiler) (taken : String → Bool) : (type : TypeRef) →
    (k.fragment taken type).pointers =
      (type.names.filter (k.types.opens taken)).map Pointer.text
  | .primitive _ | .unsupported _ => by simp [fragment, TypeRef.names]
  | .named name => by
      by_cases opens : k.types.opens taken name = true
      · simp [fragment_of_opens opens, TypeRef.names, opens]
      · have other : k.types.role taken name ≠ .object :=
          fun h => opens (TypeSystem.role_object_iff.1 h)
        rw [fragment, TypeRef.names, List.filter_cons_of_neg opens]
        cases role : k.types.role taken name with
        | undeclared | taken | enumeration _ => simp
        | object => exact absurd role other
  | .union members => by
      rw [fragment, TypeRef.names, Json.pointers_anyOf]
      exact pointers_fragments k taken members
  | .collection _ element => by
      rw [fragment, TypeRef.names, Json.pointers_collection]
      exact pointers_fragment k taken element

theorem pointers_fragments (k : Compiler) (taken : String → Bool) : (types : List TypeRef) →
    (k.fragments taken types).flatMap Json.pointers =
      ((TypeRef.namesOfAll types).filter (k.types.opens taken)).map Pointer.text
  | [] => rfl
  | type :: rest => by
      rw [fragments, List.flatMap_cons, TypeRef.namesOfAll, List.filter_append, List.map_append,
        pointers_fragment k taken type, pointers_fragments k taken rest]

end

theorem text?_fragment (type : TypeRef) : (k.fragment taken type).text? = none := by
  cases type with
  | primitive p => cases p <;> rfl
  | named name =>
      rw [fragment]
      split <;> rfl
  | union _ | unsupported _ => rfl
  | collection kind _ => cases kind <;> rfl

theorem text?_propertySchema (p : Property) : (k.propertySchema taken p).text? = none := by
  have inner : (k.withAlternative (k.fragment taken p.type)).text? = none := by
    unfold withAlternative
    cases k.alternative with
    | none => exact text?_fragment p.type
    | some key => rfl
  rw [propertySchema]
  cases schema : k.withAlternative (k.fragment taken p.type) with
  | obj members => cases p.summary <;> rfl
  | str text => rw [schema] at inner; cases inner
  | null | bool _ | num _ | arr _ => rfl

theorem pointers_propertySchema (p : Property) :
    (k.propertySchema taken p).pointers =
      ((p.type.names.filter (k.types.opens taken)) ++ k.alternative.toList).map Pointer.text := by
  rw [propertySchema, Json.pointers_describe, withAlternative]
  cases k.alternative with
  | none => simp [pointers_fragment]
  | some key => simp [Json.pointers_anyOf, pointers_fragment]

/-- The body of a class or interface refers to those that its properties name, and to the
alternative. -/
theorem pointers_definitionBody {name : String} {text : String}
    (member : text ∈ (k.definitionBody taken name).pointers) :
    ∃ key, (key ∈ k.types.leads taken name ∨ k.alternative = some key) ∧
      text = Pointer.text key := by
  unfold definitionBody at member
  cases found : k.types.find? name with
  | none => simp [found] at member
  | some d =>
      simp only [found, Json.pointers_describedBy, objectSchema] at member
      split at member
      · simp [Fragment.ofType, Json.pointers, Json.pointersOfMembers] at member
      · have noText : ∀ p ∈ k.propertySchemas taken (k.types.flatten d).properties,
            p.2.text? = none := by
          intro p hp
          obtain ⟨q, _, rfl⟩ := List.mem_map.1 hp
          exact text?_propertySchema q.2
        rw [Json.pointers_object noText] at member
        obtain ⟨p, hp, member⟩ := List.mem_flatMap.1 member
        obtain ⟨q, hq, rfl⟩ := List.mem_map.1 hp
        rw [pointers_propertySchema] at member
        obtain ⟨key, hkey, rfl⟩ := List.mem_map.1 member
        refine ⟨key, ?_, rfl⟩
        rcases List.mem_append.1 hkey with h | h
        · obtain ⟨named, opens⟩ := List.mem_filter.1 h
          rw [TypeSystem.leads_of_find found]
          exact .inl (List.mem_filter.2 ⟨List.mem_flatMap.2 ⟨q, hq, named⟩, opens⟩)
        · exact .inr (Option.mem_toList.1 h)

end Compiler

/-! ## Closed registries -/

namespace Registry

/-- The references in the bodies of slots. -/
def pointersOfSlots (slots : Dict Slot) : List String :=
  slots.flatMap fun p =>
    match p.2.entry with
    | .resolved body => body.pointers
    | .pending => []

/-- Every key is there once, and every reference in a body leads to one of them, perhaps still
without a body. -/
structure Closed (r : Registry) : Prop where
  distinct : r.slots.Distinct
  inside : ∀ text ∈ pointersOfSlots r.slots, ∃ key ∈ r.slots.keys, text = Pointer.text key

theorem pointersOfSlots_append (d e : Dict Slot) :
    pointersOfSlots (d ++ e) = pointersOfSlots d ++ pointersOfSlots e := List.flatMap_append

theorem Closed.reserved {r : Registry} (closed : r.Closed) {key : String} (new : key ∉ r.slots.keys)
    (owner : Owner) : Closed ⟨r.slots ++ [(key, ⟨owner, .pending⟩)]⟩ where
  distinct := by
    unfold Dict.Distinct
    rw [Dict.keys_append]
    refine List.nodup_append.2 ⟨closed.distinct, by simp [Dict.keys], ?_⟩
    rintro a ha b hb rfl
    obtain rfl : a = key := by simpa [Dict.keys] using hb
    exact new ha
  inside text member := by
    rw [pointersOfSlots_append] at member
    have old : text ∈ pointersOfSlots r.slots := by simpa [pointersOfSlots] using member
    obtain ⟨other, hother, rfl⟩ := closed.inside text old
    exact ⟨other, by rw [Dict.keys_append]; exact List.mem_append_left _ hother, rfl⟩

/-- A reserved key may be given a body that only refers to keys that are there. -/
theorem Closed.written {d e : Dict Slot} {key : String} {owner : Owner}
    (closed : Closed ⟨d ++ (key, ⟨owner, .pending⟩) :: e⟩) {body : Json}
    (known : ∀ text ∈ body.pointers,
      ∃ other ∈ Dict.keys (d ++ (key, ⟨owner, .pending⟩) :: e), text = Pointer.text other) :
    Closed ⟨d ++ (key, ⟨owner, .resolved body⟩) :: e⟩ := by
  have keys : Dict.keys (d ++ (key, ⟨owner, .resolved body⟩) :: e) =
      Dict.keys (d ++ (key, Slot.mk owner .pending) :: e) := by simp [Dict.keys]
  refine ⟨by rw [Dict.Distinct, keys]; exact closed.distinct, fun text member => ?_⟩
  rw [keys]
  have old := closed.inside text
  simp only [pointersOfSlots, List.flatMap_append, List.flatMap_cons, List.mem_append] at old member
  rcases member with h | h | h
  · exact old (.inl h)
  · exact known text h
  · exact old (.inr (.inr h))

theorem Closed.body_inside {r : Registry} (closed : r.Closed) {key : String} {body : Json}
    (found : r.body? key = some body) :
    ∀ text ∈ body.pointers, ∃ other ∈ r.slots.keys, text = Pointer.text other := by
  intro text member
  refine closed.inside text (List.mem_flatMap.2 ?_)
  unfold body? entry? at found
  cases present : r.slots.find? key with
  | none => simp [present] at found
  | some slot =>
      obtain ⟨owner, entry⟩ := slot
      refine ⟨_, Dict.mem_of_find? present, ?_⟩
      cases entry with
      | pending => simp [present] at found
      | resolved other =>
          obtain rfl : other = body := by simpa [present] using found
          exact member

end Registry

namespace Compiler

variable {k : Compiler} {taken : String → Bool}

theorem mem_pointers_map_typeSlot {added : List String} {text : String}
    (member : text ∈ Registry.pointersOfSlots (added.map (k.typeSlot taken))) :
    ∃ key ∈ added, text ∈ (k.definitionBody taken key).pointers := by
  obtain ⟨p, hp, member⟩ := List.mem_flatMap.1 member
  obtain ⟨key, hkey, rfl⟩ := List.mem_map.1 hp
  exact ⟨key, hkey, member⟩

/-- A compilation keeps the registry closed, when the alternative is in it: what a new definition
refers to is met on the walk, before or after it. -/
theorem Grows.closed {names : List String} {r r' : Registry} (grows : k.Grows taken names r r')
    (holds : ∀ key, k.alternative = some key → key ∈ r.slots.keys) (closed : r.Closed) :
    r'.Closed := by
  obtain ⟨added, slots, walk⟩ := grows
  obtain ⟨_, same, nodup, fresh⟩ := walk.exists_added
  obtain rfl := List.append_cancel_left same
  have keys := keys_of_slots slots
  constructor
  · unfold Dict.Distinct
    rw [keys]
    exact List.nodup_append.2 ⟨closed.distinct, nodup, fun a ha b hb e => fresh b hb (e ▸ ha)⟩
  · intro text member
    rw [slots, Registry.pointersOfSlots_append] at member
    rw [keys]
    rcases List.mem_append.1 member with h | h
    · obtain ⟨key, hkey, rfl⟩ := closed.inside text h
      exact ⟨key, List.mem_append_left _ hkey, rfl⟩
    · obtain ⟨name, hname, h⟩ := mem_pointers_map_typeSlot h
      obtain ⟨key, hkey, rfl⟩ := pointers_definitionBody h
      refine ⟨key, ?_, rfl⟩
      -- what the type leads to may have been met before it: the walk is closed all the same
      rcases hkey with led | isAlternative
      · exact walk.closed name (List.mem_append_right _ hname) (fresh name hname) led
      · exact List.mem_append_left _ (holds key isAlternative)

end Compiler

end ManifestSchema
