import ManifestSchema.Proofs.Compile.Run

/-!
# Descriptions

What a manifest says about a type, a property or an enum becomes the description of a schema. A
schema has room for one description, and the first one that is written stays. So an enum, which is
shown in the place of its name, brings its own description into the property, and a definition that
nothing describes is described by its key.

Results:

1. `Compiler.description_propertySchema`: whose description a property shows;
2. `Compiler.get?_definitionBody`: the description and the properties of a definition;
3. `Compiler.Run.keeps_descriptions`: both, in every definition that a run adds;
4. `Compiler.Run.shows_enum_description`: a property whose own description is not shown;
5. `Compiler.Run.hides_marker_description`: an interface whose own description is not shown, as
   `Compiler.get?_definitionBody_marker` says of all without properties.
-/

namespace ManifestSchema

namespace Json

theorem get?_describe (summary : Option String) (members : Dict Json) :
    (Fragment.describe summary (.obj members)).get? "description" =
      (members.find? "description").or (summary.map .str) := by
  cases summary with
  | none => simp [Fragment.describe, get?, members?]
  | some text => simp [Fragment.describe, get?, members?, Dict.find?_insertNew]

theorem get?_describedBy (key : String) (members : Dict Json) (name : String) :
    (describedBy key (.obj members)).get? name =
      (members.find? name).or (if "description" = name then some (.str key) else none) := by
  simp [describedBy, get?, members?, Dict.find?_insertNew]

end Json

namespace Compiler

variable {k : Compiler} {taken : String → Bool}

/-! ## Properties -/

/-- The enum that stands in the place of a type. -/
def shownEnum? (k : Compiler) (type : TypeRef) : Option EnumType :=
  match type.fqn?.bind k.types.find? with
  | some (.enumDef e) => some e
  | some (.classDef _) | some (.interfaceDef _) | none => none

/-- The description that the schema of a type brings into a property: that of an enum, unless the
alternative stands beside it. -/
def ownDescription (k : Compiler) (type : TypeRef) : Option String :=
  match k.alternative with
  | none => (k.shownEnum? type).bind EnumType.summary
  | some _ => none

/-- Of all schemas of types only those of enums are described. -/
theorem description_fragment (k : Compiler) (taken : String → Bool) (type : TypeRef) :
    ∃ members, k.fragment taken type = .obj members ∧
      Dict.find? members "description" =
        ((k.shownEnum? type).bind EnumType.summary).map Json.str := by
  cases type with
  | primitive p => cases p <;> exact ⟨_, rfl, rfl⟩
  | union members => exact ⟨_, rfl, rfl⟩
  | collection kind element => cases kind <;> exact ⟨_, rfl, rfl⟩
  | unsupported raw => exact ⟨_, rfl, rfl⟩
  | named name =>
      have shown : k.shownEnum? (.named name) = match k.types.find? name with
        | some (.enumDef e) => some e
        | some (.classDef _) | some (.interfaceDef _) | none => none := rfl
      rw [shown, fragment, TypeSystem.role]
      cases k.types.find? name with
      | none => exact ⟨_, rfl, rfl⟩
      | some d =>
          cases d with
          | enumDef e =>
              refine ⟨_, rfl, ?_⟩
              cases summary : e.summary <;>
                simp [Fragment.description, Dict.find?_cons, summary]
          | classDef _ | interfaceDef _ => cases taken name <;> exact ⟨_, rfl, rfl⟩

/-- A property shows the description of the enum that stands in its place, and its own otherwise. -/
theorem description_propertySchema (k : Compiler) (taken : String → Bool) (p : Property) :
    (k.propertySchema taken p).get? "description" =
      ((k.ownDescription p.type).or p.summary).map .str := by
  obtain ⟨members, schema, described⟩ := k.description_fragment taken p.type
  rw [propertySchema, withAlternative, ownDescription]
  cases k.alternative with
  | none => rw [schema, Json.get?_describe, described, Option.map_or]
  | some key => exact Json.get?_describe p.summary _

/-! ## Definitions -/

theorem get?_definitionBody {key : String} {d : Definition} (found : k.types.find? key = some d)
    (described : k.types.isMarker d = false) :
    (k.definitionBody taken key).get? "description" = some (.str (d.summary.getD key)) ∧
      (k.definitionBody taken key).get? "properties" =
        some (.obj (k.propertySchemas taken (k.types.flatten d).properties)) := by
  rw [definitionBody_of_find found, objectSchema, if_neg (by simp [described]), Fragment.object,
    Json.get?_describedBy, Json.get?_describedBy]
  constructor
  · cases requiredNames (k.types.flatten d).properties <;> cases d.summary <;>
      simp [Fragment.required, Fragment.description, Dict.find?_cons]
  · simp [Dict.find?_cons]

/-- An interface without properties says nothing else than its key, whatever is said about it. -/
theorem get?_definitionBody_marker {key : String} {d : Definition}
    (found : k.types.find? key = some d) (marker : k.types.isMarker d = true) :
    (k.definitionBody taken key).get? "description" = some (.str key) := by
  rw [definitionBody_of_find found, objectSchema, if_pos marker, Fragment.ofType,
    Json.get?_describedBy]
  simp [Dict.find?_cons]

/-- A body that was not there before is that of a class or interface. -/
theorem Run.body_of_new {c c' : Compilation} {answers : List (TypeRef × Json)}
    (run : k.Run c answers c') {key : String} {body : Json}
    (before : c.registry.body? key = none) (resolved : c'.registry.body? key = some body) :
    ∃ d, k.types.find? key = some d ∧ d.isObject = true ∧
      body = k.definitionBody c.registry.taken key := by
  obtain ⟨added, slots, walk⟩ := run.grows rfl
  obtain ⟨⟨grown⟩, _⟩ := c'
  obtain rfl := slots
  by_cases old : key ∈ c.registry.slots.keys
  · rw [Registry.body?_append_of_mem old] at resolved
    cases before.symm.trans resolved
  · rw [Registry.body?_append_of_not_mem old, Registry.body?, Registry.entry?,
      find?_map_typeSlot] at resolved
    by_cases member : key ∈ added
    · simp only [if_pos member, typeSlot, Option.map_some, Option.some.injEq] at resolved
      obtain ⟨d, found, isObject, _⟩ := TypeSystem.opens_iff.1 (TypeSystem.opens_of_reached
        ((walk.reached key (List.mem_append_right _ member)).resolve_left old))
      exact ⟨d, found, isObject, resolved.symm⟩
    · simp [member] at resolved

/-- Of every class or interface that a run gives a definition, an interface without properties
apart: the definition is described as the type is, or by its key if the type is not, and each of its
properties is described as the property is, or as the enum that stands in its place. -/
theorem Run.keeps_descriptions {c c' : Compilation} {answers : List (TypeRef × Json)}
    (run : k.Run c answers c') {key : String} {body : Json}
    (before : c.registry.body? key = none) (resolved : c'.registry.body? key = some body) :
    ∃ d, k.types.find? key = some d ∧ d.isObject = true ∧ (k.types.isMarker d = false →
      body.get? "description" = some (.str (d.summary.getD key)) ∧
      ∃ schemas, body.get? "properties" = some (.obj schemas) ∧
        ∀ name p, (k.types.flatten d).properties.find? name = some p →
          ∃ schema, Dict.find? schemas name = some schema ∧
            schema.get? "description" =
              ((k.ownDescription p.type).or p.summary).map Json.str) := by
  obtain ⟨d, found, isObject, rfl⟩ := run.body_of_new before resolved
  refine ⟨d, found, isObject, fun described => ?_⟩
  obtain ⟨description, properties⟩ := get?_definitionBody found described
  refine ⟨description, _, properties, fun name p declared => ?_⟩
  exact ⟨_, by rw [propertySchemas, Dict.find?_map, declared]; rfl,
    k.description_propertySchema _ p⟩

end Compiler

/-! ## An example -/

namespace Workshop

/-- An enum that is described, as a property that shows it is. -/
def size : EnumType := ⟨"shop.Size", ["S", "L"], some "Sizes."⟩

def sizeOfTool : Property := ⟨"size", .named "shop.Size", false, false, some "How large it is."⟩

/-- An enum that is not described. -/
def purpose : EnumType := ⟨"shop.Purpose", ["CUT"], none⟩

def purposeOfTool : Property :=
  ⟨"purpose", .named "shop.Purpose", false, false, some "What it is for."⟩

def tool : Definition :=
  .classDef ⟨"shop.Tool", none, [], none,
    [sizeOfTool, purposeOfTool,
      ⟨"parts", .collection .array (.named "shop.Tool"), true, false, some "What it is made of."⟩,
      ⟨"maker", .named "shop.Missing", true, false, some "Who made it."⟩], some "A tool."⟩

def types : TypeSystem :=
  ⟨[tool, .enumDef size, .enumDef purpose].map fun d => (d.fqn, d), []⟩

def compiler : Compiler := ⟨types, none⟩

def start : Compilation := ⟨.empty, .empty⟩

def requests : List TypeRef := [.named "shop.Tool"]

def answers : List (TypeRef × Json) := requests.zip [reference "shop.Tool"]

def finished : Registry := ⟨["shop.Tool"].map (compiler.typeSlot start.registry.taken)⟩

theorem exists_run : ∃ d, compiler.Run start answers ⟨finished, d⟩ :=
  Compiler.exists_run_of_outcome (by decide +kernel)

end Workshop

namespace Compiler

/-- In the example the tool is described as its class is, and its purpose as the property is. -/
theorem Run.keeps_descriptions_workshop : ∃ d body schemas schema,
    Workshop.compiler.Run Workshop.start Workshop.answers ⟨Workshop.finished, d⟩ ∧
      Workshop.finished.body? "shop.Tool" = some body ∧
      body.get? "description" = some (.str "A tool.") ∧
      body.get? "properties" = some (.obj schemas) ∧
      Dict.find? schemas "purpose" = some schema ∧
      schema.get? "description" = some (.str "What it is for.") := by
  obtain ⟨d, run⟩ := Workshop.exists_run
  obtain ⟨body, resolved⟩ : ∃ body, Workshop.finished.body? "shop.Tool" = some body := ⟨_, rfl⟩
  obtain ⟨tool, found, _, described⟩ := Run.keeps_descriptions run rfl resolved
  obtain rfl : Workshop.tool = tool := Option.some.inj found
  obtain ⟨description, schemas, properties, each⟩ := described (by decide +kernel)
  obtain ⟨schema, shown, text⟩ := each "purpose" Workshop.purposeOfTool rfl
  exact ⟨d, body, schemas, schema, run, resolved, description, properties, shown, text⟩

/-- The size of the tool is described as the enum is, although the property says what it is. -/
theorem Run.shows_enum_description : ∃ d body schemas schema,
    Workshop.compiler.Run Workshop.start Workshop.answers ⟨Workshop.finished, d⟩ ∧
      Workshop.finished.body? "shop.Tool" = some body ∧
      body.get? "properties" = some (.obj schemas) ∧
      (Workshop.types.flatten Workshop.tool).properties.find? "size" = some Workshop.sizeOfTool ∧
      Dict.find? schemas "size" = some schema ∧
      schema.get? "description" = some (.str "Sizes.") ∧
      schema.get? "description" ≠ Workshop.sizeOfTool.summary.map Json.str := by
  obtain ⟨d, run⟩ := Workshop.exists_run
  exact ⟨d, _, _, _, run, rfl, rfl, rfl, rfl, rfl, by decide⟩

end Compiler

namespace Workshop

/-- An interface that has no properties. -/
def mark : Definition := .interfaceDef ⟨"shop.Mark", [], [], some "A mark."⟩

def marking : Compiler := ⟨⟨[("shop.Mark", mark)], []⟩, none⟩

def marked : Registry := ⟨["shop.Mark"].map (marking.typeSlot start.registry.taken)⟩

theorem exists_marking_run :
    ∃ d, marking.Run start ([.named "shop.Mark"].zip [reference "shop.Mark"]) ⟨marked, d⟩ :=
  Compiler.exists_run_of_outcome (by decide +kernel)

end Workshop

namespace Compiler

/-- The mark is described by its key, although the interface says what it is. -/
theorem Run.hides_marker_description : ∃ d body,
    Workshop.marking.Run Workshop.start ([.named "shop.Mark"].zip [reference "shop.Mark"])
        ⟨Workshop.marked, d⟩ ∧
      Workshop.marked.body? "shop.Mark" = some body ∧
      body.get? "description" = some (.str "shop.Mark") ∧
      body.get? "description" ≠ Workshop.mark.summary.map Json.str := by
  obtain ⟨d, run⟩ := Workshop.exists_marking_run
  have described : (Workshop.marking.definitionBody Workshop.start.registry.taken
      "shop.Mark").get? "description" = some (.str "shop.Mark") :=
    get?_definitionBody_marker rfl rfl
  exact ⟨d, _, run, rfl, described, by decide⟩

end Compiler

end ManifestSchema
