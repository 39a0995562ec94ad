import ManifestSchema.Proofs.Registry
import ManifestSchema.Schema.Document

/-!
# Envelopes

Definitions and resources go into an envelope at a fixed place, below five containers. A missing
container is added; one that is there but has another shape is the only thing that can be wrong with
an envelope.

Results:

1. `Envelope.splice_places`: where the definitions and the resources go;
2. `Envelope.fault?_eq_none_iff`: an envelope has no fault when each container is absent or of the
   right shape;
3. `Envelope.splice_error_iff` and `Envelope.exists_splice`: an envelope is refused for its first
   fault, and for nothing that goes into it.
-/

namespace ManifestSchema

namespace Envelope

/-! ## Places -/

/-- The members of the object under a key; a missing one is empty. -/
def objectAt (key : String) (members : Dict Json) : Dict Json :=
  ((members.find? key).bind Json.members?).getD []

/-- The definitions of a document; missing ones are empty. -/
def definitionsIn (document : Json) : Dict Json :=
  ((document.get? "definitions").bind Json.members?).getD []

/-- The list of resources under a pattern. -/
def resources? (pattern : String) (document : Json) : Option (List Json) :=
  (((((document.get? "properties").bind (·.get? "Resources")).bind
    (·.get? "patternProperties")).bind (·.get? pattern)).bind (·.get? "anyOf")).bind Json.elements?

/-- The resources that a document lists under a pattern; a missing list is empty. -/
def resourcesIn (pattern : String) (document : Json) : List Json :=
  (resources? pattern document).getD []

theorem objectAt_insert_of_ne {key other : String} (apart : other ≠ key) (members : Dict Json)
    (value : Json) : objectAt key (members.insert other value) = objectAt key members := by
  rw [objectAt, objectAt, Dict.find?_insert, if_neg apart]

/-- What is inside a value is found in its members. -/
theorem bind_get? (value : Option Json) (key : String) :
    value.bind (·.get? key) = Dict.find? ((value.bind Json.members?).getD []) key := by
  cases value with
  | none => rfl
  | some v => cases h : v.members? <;> simp [Json.get?, h]

theorem resourcesIn_obj (pattern : String) (members : Dict Json) :
    resourcesIn pattern (.obj members) = ((Dict.find? (objectAt pattern
      (objectAt "patternProperties" (objectAt "Resources" (objectAt "properties" members))))
        "anyOf").bind Json.elements?).getD [] := by
  have top : (Json.obj members).get? "properties" = members.find? "properties" := rfl
  simp only [resourcesIn, resources?, top, bind_get?, objectAt]

/-- A change inside an object starts from what is there. -/
theorem inside_ok {key : String} {change : Dict Json → Except EngineError (Dict Json)}
    {members members' : Dict Json} (h : inside key change members = .ok members') : ∃ inner',
      change (objectAt key members) = .ok inner' ∧ members' = members.insert key (.obj inner') := by
  unfold inside at h
  unfold objectAt
  split at h
  · next missing =>
      obtain ⟨inner', changed, h⟩ := bind_eq_ok_iff.1 h
      cases h
      exact ⟨inner', by rw [missing]; exact changed, rfl⟩
  · next inner found =>
      obtain ⟨inner', changed, h⟩ := bind_eq_ok_iff.1 h
      cases h
      exact ⟨inner', by rw [found]; exact changed, rfl⟩
  · cases h

theorem appendAlternatives_ok {pattern : String} {schemas : List Json}
    {members members' : Dict Json}
    (h : appendAlternatives pattern schemas members = .ok members') :
    members' = members.insert "anyOf"
      (.arr (((members.find? "anyOf").bind Json.elements?).getD [] ++ schemas)) := by
  unfold appendAlternatives at h
  split at h
  · next missing =>
      cases h
      rw [missing]
      rfl
  · next present found =>
      cases h
      rw [found]
      rfl
  · cases h

/-- The definitions are written over those of the envelope, and the resources stand behind those
that it lists. -/
theorem splice_places {envelope document : Json} {definitions : Dict Json} {resources : List Json}
    {pattern : String} (h : splice envelope definitions resources pattern = .ok document) :
    document.get? "definitions" = some (.obj ((definitionsIn envelope).insertAll definitions)) ∧
      resources? pattern document = some (resourcesIn pattern envelope ++ resources) := by
  cases envelope with
  | null | bool _ | num _ | str _ | arr _ => cases h
  | obj members =>
      obtain ⟨withDefinitions, inDefinitions, h⟩ := bind_eq_ok_iff.1 h
      obtain ⟨_, inProperties, h⟩ := bind_eq_ok_iff.1 h
      cases h
      obtain ⟨_, inserted, rfl⟩ := inside_ok inDefinitions
      cases inserted
      obtain ⟨_, inResources, rfl⟩ := inside_ok inProperties
      obtain ⟨_, inPatterns, rfl⟩ := inside_ok inResources
      obtain ⟨_, inPattern, rfl⟩ := inside_ok inPatterns
      obtain ⟨_, appended, rfl⟩ := inside_ok inPattern
      obtain rfl := appendAlternatives_ok appended
      have apart : "definitions" ≠ "properties" := by decide
      have apart' : "$schema" ≠ "Resources" := by decide
      constructor
      · simp [definitionsIn, Json.get?, Json.members?, Dict.find?_insert, objectAt]
      · rw [resourcesIn_obj, objectAt_insert_of_ne apart, objectAt_insert_of_ne apart']
        simp [resources?, Json.get?, Json.members?, Json.elements?, Dict.find?_insert]

/-- Where the definitions and the resources are found in a document. -/
theorem splice_ok {envelope document : Json} {definitions : Dict Json} {resources : List Json}
    {pattern : String} (h : splice envelope definitions resources pattern = .ok document) :
    (∃ present, document.get? "definitions" = some (.obj (Dict.insertAll present definitions))) ∧
      ∃ listed, resources? pattern document = some (listed ++ resources) := by
  obtain ⟨definitions, resources⟩ := splice_places h
  exact ⟨⟨_, definitions⟩, _, resources⟩

/-! ## Shapes -/

/-- What stands under a key is absent, or an object with `inner`. -/
def ObjectAt (key : String) (inner : Dict Json → Prop) (members : Dict Json) : Prop :=
  ∀ value, members.find? key = some value → ∃ parts, value = .obj parts ∧ inner parts

/-- What stands under a key is absent, or a list. -/
def ListAt (key : String) (members : Dict Json) : Prop :=
  ∀ value, members.find? key = some value → ∃ elements, value = .arr elements

/-- A document has the shape of an envelope: it is an object, and each container on the way to the
definitions and to the resources is absent or has the right shape. -/
def Fits (pattern : String) (document : Json) : Prop :=
  ∃ members, document = .obj members ∧ ObjectAt "definitions" (fun _ => True) members ∧
    ObjectAt "properties" (ObjectAt "Resources" (ObjectAt "patternProperties"
      (ObjectAt pattern (ListAt "anyOf")))) members

/-! ## Faults -/

/-- What is wrong with the object under a key; `inner` is what is wrong inside it. -/
def objectFault? (key : String) (inner : Dict Json → Option String) (members : Dict Json) :
    Option String :=
  match members.find? key with
  | none => none
  | some (.obj parts) => inner parts
  | some _ => some (key ++ " is not an object")

/-- What is wrong with the list of alternatives under a pattern. -/
def listFault? (pattern : String) (members : Dict Json) : Option String :=
  match members.find? "anyOf" with
  | none | some (.arr _) => none
  | some _ => some (pattern ++ ".anyOf is not an array")

/-- What is wrong with the containers on the way to the resources. -/
def resourcesFault? (pattern : String) : Dict Json → Option String :=
  objectFault? "properties" (objectFault? "Resources" (objectFault? "patternProperties"
    (objectFault? pattern (listFault? pattern))))

/-- What is wrong with an envelope first. -/
def fault? (pattern : String) : Json → Option String
  | .obj members =>
      (objectFault? "definitions" (fun _ => none) members).or (resourcesFault? pattern members)
  | _ => some "document root is not an object"

theorem objectFault?_eq_none_iff (key : String) {inner : Dict Json → Option String}
    {fits : Dict Json → Prop} (iff : ∀ parts, inner parts = none ↔ fits parts)
    (members : Dict Json) : objectFault? key inner members = none ↔ ObjectAt key fits members := by
  unfold objectFault? ObjectAt
  cases members.find? key with
  | none => simp
  | some value => cases value <;> simp [iff]

theorem listFault?_eq_none_iff (pattern : String) (members : Dict Json) :
    listFault? pattern members = none ↔ ListAt "anyOf" members := by
  unfold listFault? ListAt
  cases members.find? "anyOf" with
  | none => simp
  | some value => cases value <;> simp

/-- An envelope has no fault when it has the right shape. -/
theorem fault?_eq_none_iff {pattern : String} {document : Json} :
    fault? pattern document = none ↔ Fits pattern document := by
  have resources := objectFault?_eq_none_iff "properties" <|
    objectFault?_eq_none_iff "Resources" <| objectFault?_eq_none_iff "patternProperties" <|
    objectFault?_eq_none_iff pattern (listFault?_eq_none_iff pattern)
  have definitions : ∀ members, objectFault? "definitions" (fun _ => none) members = none ↔
      ObjectAt "definitions" (fun _ => True) members :=
    objectFault?_eq_none_iff "definitions" fun _ => iff_of_true rfl trivial
  cases document with
  | null | bool _ | num _ | str _ | arr _ => simp [fault?, Fits]
  | obj members => simp [fault?, Fits, Option.or_eq_none_iff, resourcesFault?, resources, definitions]

theorem objectFault?_insert {key other : String} (apart : other ≠ key)
    (inner : Dict Json → Option String) (members : Dict Json) (value : Json) :
    objectFault? key inner (members.insert other value) = objectFault? key inner members := by
  rw [objectFault?, objectFault?, Dict.find?_insert, if_neg apart]

/-! ## Refusals -/

/-- `Fails change fault`: a change of an object is refused for `fault`, and else for nothing. -/
def Fails (change : Dict Json → Except EngineError (Dict Json))
    (fault : Dict Json → Option String) : Prop :=
  ∀ members e, change members = .error e ↔ ∃ reason, fault members = some reason ∧
    e = .envelope reason

variable {change : Dict Json → Except EngineError (Dict Json)} {fault : Dict Json → Option String}

theorem Fails.isOk (h : Fails change fault) {members : Dict Json} (none : fault members = none) :
    ∃ members', change members = .ok members' := by
  cases changed : change members with
  | ok members' => exact ⟨members', rfl⟩
  | error e =>
      obtain ⟨reason, some, _⟩ := (h members e).1 changed
      rw [none] at some
      cases some

theorem fails_appendAlternatives (pattern : String) (schemas : List Json) :
    Fails (appendAlternatives pattern schemas) (listFault? pattern) := by
  intro members e
  unfold appendAlternatives listFault?
  cases members.find? "anyOf" with
  | none => simp
  | some value => cases value <;> simp [eq_comm]

/-- A change inside an object is refused for what is wrong there, and where there is none. -/
theorem Fails.inside (key : String) (h : Fails change fault) (empty : fault [] = none) :
    Fails (Envelope.inside key change) (objectFault? key fault) := by
  intro members e
  unfold Envelope.inside objectFault?
  cases members.find? key with
  | none =>
      obtain ⟨inner, changed⟩ := h.isOk empty
      simp [changed, bind, Except.bind, pure, Except.pure]
  | some value =>
      cases value with
      | obj parts =>
          simp only
          rw [← h parts e]
          cases change parts <;> simp [bind, Except.bind, pure, Except.pure]
      | null | bool _ | num _ | str _ | arr _ => simp [eq_comm]

theorem fails_definitions (definitions : Dict Json) :
    Fails (Envelope.inside "definitions" fun d => .ok (d.insertAll definitions))
      (objectFault? "definitions" fun _ => none) := by
  refine Fails.inside _ (fun members e => ?_) rfl
  simp

theorem fails_resources (resources : List Json) (pattern : String) :
    Fails (Envelope.inside "properties" fun properties =>
        Envelope.inside "Resources" (Envelope.inside "patternProperties"
          (Envelope.inside pattern (appendAlternatives pattern resources)))
          (properties.insert "$schema" (Fragment.ofType "string")))
      (resourcesFault? pattern) := by
  have listed := (((fails_appendAlternatives pattern resources).inside pattern rfl).inside
    "patternProperties" rfl).inside "Resources" rfl
  refine Fails.inside _ (fun properties e => ?_) rfl
  -- the schema of `$schema` that is added first does not stand in the way
  rw [listed, objectFault?_insert (by decide)]

/-- An envelope is refused for its first fault, whatever should go into it. -/
theorem splice_error_iff {envelope : Json} {definitions : Dict Json} {resources : List Json}
    {pattern : String} {e : EngineError} :
    splice envelope definitions resources pattern = .error e ↔
      ∃ reason, fault? pattern envelope = some reason ∧ e = .envelope reason := by
  cases envelope with
  | null | bool _ | num _ | str _ | arr _ => simp [splice, fault?, eq_comm]
  | obj members =>
      simp only [splice, bind_eq_error_iff, fails_definitions definitions members e,
        fails_resources resources pattern _ e, fault?]
      cases fault : objectFault? "definitions" (fun _ => none) members with
      | some reason =>
          have refused := (fails_definitions definitions members (.envelope reason)).2
            ⟨reason, fault, rfl⟩
          simp [refused]
      | none =>
          obtain ⟨members', inDefinitions⟩ := (fails_definitions definitions).isOk fault
          obtain ⟨inner, _, rfl⟩ := inside_ok inDefinitions
          have apart : "definitions" ≠ "properties" := by decide
          have same : resourcesFault? pattern (Dict.insert members "definitions" (.obj inner)) =
              resourcesFault? pattern members := objectFault?_insert apart _ members _
          simp [inDefinitions, same, pure, Except.pure]

/-- Whatever should go into an envelope without a fault goes in. -/
theorem exists_splice {envelope : Json} {pattern : String} (fits : fault? pattern envelope = none)
    (definitions : Dict Json) (resources : List Json) :
    ∃ document, splice envelope definitions resources pattern = .ok document := by
  cases spliced : splice envelope definitions resources pattern with
  | ok document => exact ⟨document, rfl⟩
  | error e =>
      obtain ⟨reason, some, _⟩ := splice_error_iff.1 spliced
      rw [fits] at some
      cases some

end Envelope

end ManifestSchema
