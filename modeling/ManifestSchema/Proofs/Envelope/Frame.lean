import ManifestSchema.Proofs.Declarations
import ManifestSchema.Proofs.Envelope
import ManifestSchema.Proofs.TypeReferences

/-!
# What a splice changes

A splice writes the definitions, the schema of `$schema` and the list of resources. On the way it
opens six containers, the root of the document among them, and adds a container that is missing. An
envelope is an arbitrary document, so what stays is said of every path into it: a path that is not
that of a container and does not lead into something written ends where it ended before.

Results:

1. `Envelope.Leaves.inside` and `Envelope.splice_leaves`: a change inside an object leaves alone
   what it leaves alone there, and so the splice leaves alone everything but its own places;
2. `Envelope.splice_eq`: what it writes there;
3. `Envelope.splice_filled`: both together, and which keys each container has in the end.
-/

namespace ManifestSchema

namespace Json

/-- A path that begins with a key that was just written goes on in what was written. -/
theorem at?_insert (members : Dict Json) (name : String) (value : Json) (rest : List PathStep) :
    (Json.obj (members.insert name value)).at? (.key name :: rest) = value.at? rest := by
  rw [at?_obj_key, Dict.find?_insert, if_pos rfl, Option.bind_some]

theorem at?_insert_of_ne {name other : String} (apart : other ≠ name) (members : Dict Json)
    (value : Json) (rest : List PathStep) :
    (Json.obj (members.insert other value)).at? (.key name :: rest) =
      (Json.obj members).at? (.key name :: rest) := by
  rw [at?_obj_key, at?_obj_key, Dict.find?_insert, if_neg apart]

end Json

namespace Envelope

/-! ## Places -/

/-- The keys on the way to the list of resources under a pattern. -/
def resourcesPath (pattern : String) : List String :=
  ["properties", "Resources", "patternProperties", pattern, "anyOf"]

/-- The containers that a splice opens, each with the keys that the splice writes in it. -/
def containers (pattern : String) (definitions : Dict Json) : List (List String × List String) :=
  [([], ["definitions", "properties"]),
    (["definitions"], definitions.keys),
    (["properties"], ["$schema", "Resources"]),
    (["properties", "Resources"], ["patternProperties"]),
    (["properties", "Resources", "patternProperties"], [pattern]),
    (["properties", "Resources", "patternProperties", pattern], ["anyOf"])]

/-- The places that a splice writes to. -/
def places (pattern : String) (definitions : Dict Json) : List (List String) :=
  (definitions.keys.map fun key => ["definitions", key]) ++
    [["properties", "$schema"], resourcesPath pattern]

/-- The keys of the object at the end of some keys; a missing object has none. -/
def keysAt (document : Json) (names : List String) : List String :=
  Dict.keys (names.foldl (fun members name => objectAt name members)
    (document.members?.getD []))

/-- A document is an envelope with definitions and resources in it, and otherwise unchanged. -/
structure Filled (pattern : String) (definitions : Dict Json) (resources : List Json)
    (envelope document : Json) : Prop where
  /-- Each definition stands under its key. -/
  defined : ∀ key body, (key, body) ∈ definitions →
    document.at? (["definitions", key].map .key) = some body
  described : document.at? (["properties", "$schema"].map .key) =
    some (.obj [("type", .str "string")])
  /-- The resources stand behind those that the envelope lists, if it has a list. -/
  listed : document.at? ((resourcesPath pattern).map .key) = some (.arr
    (((envelope.at? ((resourcesPath pattern).map .key)).bind Json.elements?).getD [] ++ resources))
  /-- Each container is there. Its keys are those that it had, in their order, and behind them
  those of the keys written in it that it did not have. -/
  opened : ∀ container ∈ containers pattern definitions, ∃ members : Dict Json,
    document.at? (container.1.map .key) = some (.obj members) ∧
      members.keys = keysAt envelope container.1 ++
        container.2.filter fun key => key ∉ keysAt envelope container.1
  /-- Every other path ends at the same value as before, or nowhere as before. -/
  unchanged : ∀ path : List PathStep,
    (∀ container ∈ containers pattern definitions, path ≠ container.1.map .key) →
    (∀ place ∈ places pattern definitions, ¬place.map .key <+: path) →
    document.at? path = envelope.at? path

/-! ## Changes that leave the rest alone -/

/-- `Leaves opened written change`: when `change` succeeds, every path that is none of `opened` and
does not lead into one of `written` ends at the same value after it. -/
def Leaves (opened written : List (List String))
    (change : Dict Json → Except EngineError (Dict Json)) : Prop :=
  ∀ members members', change members = .ok members' → ∀ path : List PathStep,
    (∀ names ∈ opened, path ≠ names.map .key) →
    (∀ names ∈ written, ¬names.map .key <+: path) →
    (Json.obj members').at? path = (Json.obj members).at? path

section Changes

variable {change change' : Dict Json → Except EngineError (Dict Json)}
  {opened opened' written written' : List (List String)}

/-- Objects that hold the same under all but some keys differ in what is under these keys only. -/
theorem leaves_of_find? {keys : List String}
    (same : ∀ members members', change members = .ok members' → ∀ key ∉ keys,
      members'.find? key = members.find? key) :
    Leaves [[]] (keys.map fun key => [key]) change := by
  intro members members' changed path off away
  cases path with
  | nil => exact absurd rfl (off [] List.mem_cons_self)
  | cons step rest =>
      cases step with
      | index _ | unknown => rfl
      | key name =>
          have free : name ∉ keys := by
            intro member
            exact away [name] (List.mem_map.2 ⟨name, member, rfl⟩) ⟨rest, rfl⟩
          rw [Json.at?_obj_key, Json.at?_obj_key, same members members' changed name free]

theorem leaves_insert (key : String) (value : Json) :
    Leaves [[]] [[key]] fun members => .ok (members.insert key value) := by
  show Leaves [[]] ([key].map fun key => [key]) _
  refine leaves_of_find? fun members members' changed other off => ?_
  cases changed
  rw [Dict.find?_insert, if_neg fun same => off (List.mem_singleton.2 same.symm)]

theorem leaves_insertAll {pairs : Dict Json} (distinct : pairs.Distinct) :
    Leaves [[]] (pairs.keys.map fun key => [key]) fun members => .ok (members.insertAll pairs) := by
  refine leaves_of_find? fun members members' changed other off => ?_
  cases changed
  rw [Dict.find?_insertAll distinct, Dict.find?_eq_none_iff.2 off, Option.none_or]

theorem leaves_appendAlternatives (pattern : String) (schemas : List Json) :
    Leaves [[]] [["anyOf"]] (appendAlternatives pattern schemas) := by
  intro members members' changed
  obtain rfl := appendAlternatives_ok changed
  exact leaves_insert "anyOf" _ members _ rfl

theorem Leaves.bind (first : Leaves opened written change)
    (second : Leaves opened' written' change') :
    Leaves (opened ++ opened') (written ++ written') fun members => change members >>= change' := by
  intro members members' changed path off away
  obtain ⟨between, changed, changed'⟩ := bind_eq_ok_iff.1 changed
  rw [second between members' changed' path
      (fun names member => off names (List.mem_append_right _ member))
      (fun names member => away names (List.mem_append_right _ member)),
    first members between changed path
      (fun names member => off names (List.mem_append_left _ member))
      (fun names member => away names (List.mem_append_left _ member))]

/-- A change inside an object leaves alone what it leaves alone there. The object itself is among
what is opened, as a missing one is added. -/
theorem Leaves.inside (key : String) (h : Leaves opened written change) (self : [] ∈ opened) :
    Leaves ([] :: opened.map (key :: ·)) (written.map (key :: ·)) (Envelope.inside key change) := by
  intro members members' changed path off away
  cases path with
  | nil => exact absurd rfl (off [] List.mem_cons_self)
  | cons step rest =>
      obtain ⟨inner', changedInside, rfl⟩ := inside_ok changed
      cases step with
      | index _ | unknown => rfl
      | key name =>
          rw [Json.at?_obj_key, Json.at?_obj_key, Dict.find?_insert]
          by_cases same : key = name
          · subst same
            have off' : ∀ names ∈ opened, rest ≠ names.map .key := fun names member here =>
              off (key :: names) (List.mem_cons_of_mem _ (List.mem_map_of_mem member))
                (congrArg _ here)
            have away' : ∀ names ∈ written, ¬names.map .key <+: rest := fun names member here =>
              away (key :: names) (List.mem_map_of_mem member)
                ((List.prefix_cons_inj _).2 here)
            rw [if_pos rfl, Option.bind_some, h _ _ changedInside rest off' away', objectAt]
            unfold Envelope.inside at changed
            split at changed
            · next missing =>
                -- below a missing object there was nothing, and the path goes below it
                have below : rest ≠ [] := off' [] self
                rw [missing]
                cases rest with
                | nil => exact absurd rfl below
                | cons step _ => cases step <;> rfl
            · next inner found =>
                rw [found]
                rfl
            · cases changed
          · rw [if_neg same]

end Changes

/-! ## The splice -/

theorem splice_leaves {members : Dict Json} {definitions : Dict Json} {resources : List Json}
    {pattern : String} (distinct : definitions.Distinct) {document : Json}
    (h : splice (.obj members) definitions resources pattern = .ok document) (path : List PathStep)
    (off : ∀ container ∈ containers pattern definitions, path ≠ container.1.map .key)
    (away : ∀ place ∈ places pattern definitions, ¬place.map .key <+: path) :
    document.at? path = (Json.obj members).at? path := by
  have defined := (leaves_insertAll distinct).inside "definitions" List.mem_cons_self
  have listed := (((leaves_appendAlternatives pattern resources).inside pattern
    List.mem_cons_self).inside "patternProperties" List.mem_cons_self).inside "Resources"
    List.mem_cons_self
  have described := ((leaves_insert "$schema" (Fragment.ofType "string")).bind listed).inside
    "properties" List.mem_cons_self
  obtain ⟨between, inDefinitions, h⟩ := bind_eq_ok_iff.1 h
  obtain ⟨members', inProperties, h⟩ := bind_eq_ok_iff.1 h
  cases h
  refine (defined.bind described) members members'
    (bind_eq_ok_iff.2 ⟨between, inDefinitions, inProperties⟩) path (fun names member => ?_)
    fun names member => away names ?_
  · -- the root and the properties were opened twice, the rest once
    have opened : ∃ container ∈ containers pattern definitions, container.1 = names := by
      simp only [containers, List.mem_cons, List.not_mem_nil, or_false, exists_eq_or_imp,
        exists_eq_left]
      simp only [List.map_cons, List.map_nil, List.cons_append, List.nil_append, List.mem_cons,
        List.not_mem_nil, or_false] at member
      grind
    obtain ⟨container, inside, rfl⟩ := opened
    exact off container inside
  · simpa [places, resourcesPath, Function.comp_def] using member

theorem resources?_eq_at? (pattern : String) (document : Json) :
    resources? pattern document =
      (document.at? ((resourcesPath pattern).map .key)).bind Json.elements? := by
  simp only [resources?, resourcesPath, List.map_cons, List.map_nil, Json.at?, Option.bind_assoc,
    Option.bind_some]

/-- The document that a splice makes, written out. -/
theorem splice_eq {members : Dict Json} {definitions : Dict Json} {resources : List Json}
    {pattern : String} {document : Json}
    (h : splice (.obj members) definitions resources pattern = .ok document) :
    let properties := objectAt "properties" members
    let resourcesObject := objectAt "Resources" properties
    let patterns := objectAt "patternProperties" resourcesObject
    let entry := objectAt pattern patterns
    document = .obj ((members.insert "definitions"
        (.obj ((objectAt "definitions" members).insertAll definitions))).insert "properties"
      (.obj ((properties.insert "$schema" (Fragment.ofType "string")).insert "Resources"
        (.obj (resourcesObject.insert "patternProperties"
          (.obj (patterns.insert pattern
            (.obj (entry.insert "anyOf"
              (.arr (resourcesIn pattern (.obj members) ++ resources))))))))))) := by
  obtain ⟨between, inDefinitions, h⟩ := bind_eq_ok_iff.1 h
  obtain ⟨members', inProperties, h⟩ := bind_eq_ok_iff.1 h
  cases h
  obtain ⟨_, inserted, rfl⟩ := inside_ok inDefinitions
  cases inserted
  obtain ⟨_, inResources, rfl⟩ := inside_ok inProperties
  obtain ⟨_, inPatterns, rfl⟩ := inside_ok inResources
  obtain ⟨_, inPattern, rfl⟩ := inside_ok inPatterns
  obtain ⟨_, appended, rfl⟩ := inside_ok inPattern
  obtain rfl := appendAlternatives_ok appended
  have apart : "definitions" ≠ "properties" := by decide
  have apart' : "$schema" ≠ "Resources" := by decide
  simp only [objectAt_insert_of_ne apart, objectAt_insert_of_ne apart', resourcesIn_obj]

/-- Two keys that are written one after the other stand behind those that are there. -/
theorem keys_insert_insert (members : Dict Json) {first second : String} (apart : first ≠ second)
    (value value' : Json) : Dict.keys ((members.insert first value).insert second value') =
      members.keys ++ [first, second].filter fun key => key ∉ members.keys := by
  have distinct : Dict.Distinct [(first, value), (second, value')] := by
    simp [Dict.Distinct, Dict.keys, apart]
  exact Dict.keys_insertAll distinct members

theorem keys_insert_one (members : Dict Json) (key : String) (value : Json) :
    Dict.keys (members.insert key value) =
      members.keys ++ [key].filter fun key => key ∉ members.keys := by
  have distinct : Dict.Distinct [(key, value)] := by simp [Dict.Distinct, Dict.keys]
  exact Dict.keys_insertAll distinct members

/-- A splice puts definitions and resources into an envelope and changes nothing else in it. -/
theorem splice_filled {envelope document : Json} {definitions : Dict Json} {resources : List Json}
    {pattern : String} (distinct : definitions.Distinct)
    (h : splice envelope definitions resources pattern = .ok document) :
    Filled pattern definitions resources envelope document := by
  cases envelope with
  | null | bool _ | num _ | str _ | arr _ => cases h
  | obj members =>
      have unchanged := splice_leaves distinct h
      obtain rfl := splice_eq h
      have apart : "properties" ≠ "definitions" := by decide
      have apart' : "Resources" ≠ "$schema" := by decide
      refine ⟨fun key body member => ?_, ?_, ?_, fun container member => ?_, unchanged⟩
      · have found := (Dict.find?_eq_some_iff distinct).2 member
        simp only [List.map_cons, List.map_nil, Json.at?_insert_of_ne apart, Json.at?_insert]
        rw [Json.at?_obj_key, Dict.find?_insertAll distinct, found]
        rfl
      · simp only [List.map_cons, List.map_nil, Json.at?_insert_of_ne apart', Json.at?_insert]
        rfl
      · rw [← resources?_eq_at?, ← resourcesIn]
        simp only [resourcesPath, List.map_cons, List.map_nil, Json.at?_insert, Json.at?_nil]
      · -- what stands under the keys on the way is read off, and its keys remain to be compared
        simp only [containers, List.mem_cons, List.not_mem_nil, or_false] at member
        rcases member with rfl | rfl | rfl | rfl | rfl | rfl <;>
          simp only [List.map_cons, List.map_nil, Json.at?_insert_of_ne apart, Json.at?_insert,
            Json.at?_nil, Option.some.injEq, Json.obj.injEq, exists_eq_left']
        · exact keys_insert_insert _ apart.symm _ _
        · exact Dict.keys_insertAll distinct _
        · exact keys_insert_insert _ apart'.symm _ _
        · exact keys_insert_one _ _ _
        · exact keys_insert_one _ _ _
        · exact keys_insert_one _ _ _

end Envelope

/-! ## An example -/

namespace Shop

/-- A document with members, definitions and resources of its own. -/
def catalog : Json :=
  .obj [("title", .str "catalog"),
    ("definitions", .obj [("shop.Price", Fragment.ofType "number"), ("shop.Order", .null)]),
    ("properties", .obj [("Resources", .obj [("patternProperties", .obj [
      ("^old$", .bool true),
      ("^new$", .obj [("anyOf", .arr [.bool true]), ("title", .str "new")])])])])]

def catalogDefinitions : Dict Json :=
  [("shop.Order", Fragment.ofType "object"), ("shop.Line", Fragment.any)]

end Shop

/-- In the example one definition is replaced, and what is listed under another pattern stays. -/
theorem Envelope.splice_filled_catalog : Shop.catalogDefinitions.Distinct ∧ ∃ document,
    splice Shop.catalog Shop.catalogDefinitions [reference "shop.Order"] "^new$" = .ok document ∧
      Filled "^new$" Shop.catalogDefinitions [reference "shop.Order"] Shop.catalog document ∧
      document.at? [.key "definitions", .key "shop.Order"] = some (Fragment.ofType "object") ∧
      document.at? (["properties", "Resources", "patternProperties", "^old$"].map .key) =
        some (.bool true) := by
  have distinct : Shop.catalogDefinitions.Distinct := by decide
  obtain ⟨document, spliced⟩ : ∃ document, splice Shop.catalog Shop.catalogDefinitions
      [reference "shop.Order"] "^new$" = .ok document := exists_splice rfl _ _
  have filled := splice_filled distinct spliced
  refine ⟨distinct, document, spliced, filled, filled.defined _ _ List.mem_cons_self, ?_⟩
  rw [filled.unchanged _ (by decide) (by decide)]
  rfl

end ManifestSchema
