import ManifestSchema.Proofs.Compile.Run
import ManifestSchema.Proofs.Flattening

/-!
# What the body of a definition depends on

The body of a class or interface is made of its own definition, those of its ancestors, and what the
names in the types of its properties stand for. What else a type system declares, which requests
were made before, and in which state the other definitions were when this one was produced, all
that makes no difference.

Results:

1. `Compiler.fragment_congr` and `Compiler.definitionBody_congr`: the schema of a reference and the
   body of a definition look at the roles of the names in them;
2. `Compiler.Run.body_local`: two runs that agree on these resolve a key to the same body.
-/

namespace ManifestSchema

namespace Compiler

variable {k k' : Compiler} {taken taken' : String → Bool}

mutual

theorem fragment_congr : (type : TypeRef) →
    (∀ name ∈ type.names, k.types.role taken name = k'.types.role taken' name) →
    k.fragment taken type = k'.fragment taken' type
  | .primitive _, _ | .unsupported _, _ => rfl
  | .named name, same => by rw [fragment, fragment, same name List.mem_cons_self]
  | .union members, same => by rw [fragment, fragment, fragments_congr members same]
  | .collection _ element, same => by rw [fragment, fragment, fragment_congr element same]

theorem fragments_congr : (types : List TypeRef) →
    (∀ name ∈ TypeRef.namesOfAll types, k.types.role taken name = k'.types.role taken' name) →
    k.fragments taken types = k'.fragments taken' types
  | [], _ => rfl
  | type :: rest, same => by
      rw [fragments, fragments,
        fragment_congr type fun name h => same name (List.mem_append_left _ h),
        fragments_congr rest fun name h => same name (List.mem_append_right _ h)]

end

/-- Two compilers agree on a definition: on itself and its ancestors, declared or not, and on the
roles of the names in the types of its properties. -/
structure AgreeOn (k k' : Compiler) (taken taken' : String → Bool) (key : String) : Prop where
  lineage : ∀ name, k.types.Inherits key name → k.types.find? name = k'.types.find? name
  uses : ∀ d, k.types.find? key = some d → ∀ name ∈ k.types.propertyNames d,
    k.types.role taken name = k'.types.role taken' name

theorem propertySchemas_congr (alternative : k.alternative = k'.alternative)
    {properties : Dict Property}
    (same : ∀ p ∈ properties, ∀ name ∈ p.2.type.names,
      k.types.role taken name = k'.types.role taken' name) :
    k.propertySchemas taken properties = k'.propertySchemas taken' properties := by
  refine List.map_congr_left fun p hp => ?_
  have schema := fragment_congr p.2.type (same p hp)
  simp only [propertySchema, withAlternative, schema, alternative]

theorem definitionBody_congr (keyed : k.types.WellKeyed) (keyed' : k'.types.WellKeyed)
    (alternative : k.alternative = k'.alternative) {key : String} {d : Definition}
    (found : k.types.find? key = some d) (agree : AgreeOn k k' taken taken' key) :
    k.definitionBody taken key = k'.definitionBody taken' key := by
  have found' : k'.types.find? key = some d := by rw [← agree.lineage key .self, found]
  have flat := TypeSystem.flatten_congr keyed keyed' found agree.lineage
  have schemas : k.propertySchemas taken (k.types.flatten d).properties =
      k'.propertySchemas taken' (k.types.flatten d).properties := by
    refine propertySchemas_congr alternative fun p hp name h => agree.uses d found name ?_
    exact List.mem_flatMap.2 ⟨p, hp, h⟩
  rw [definitionBody_of_find found, definitionBody_of_find found']
  have marker : k.types.isMarker d = k'.types.isMarker d := by
    rw [TypeSystem.isMarker, TypeSystem.isMarker, flat]
  rw [objectSchema, objectSchema, schemas, marker, flat]

end Compiler

/-! ## An example -/

namespace Shop

/-- Another version of the interface, which says nothing about the order. -/
def otherLine : Definition :=
  .interfaceDef ⟨"shop.Line", [], [⟨"item", .named "shop.Item", false, false, none⟩], none⟩

def item : Definition := .classDef ⟨"shop.Item", none, [], none, [], none⟩

/-- Another version of the types: one is added, one is gone, one has changed, and they come in
another order. -/
def otherTypes : TypeSystem :=
  ⟨[item, state, mark, otherLine, record, order].map fun d => (d.fqn, d), []⟩

def otherCompiler : Compiler := ⟨otherTypes, some "Expression"⟩

def otherRequests : List TypeRef := [.named "shop.Record", .union [.named "shop.Order"]]

def otherAnswers : List (TypeRef × Json) :=
  otherRequests.zip (otherCompiler.fragments start.registry.taken otherRequests)

def otherFinished : Registry :=
  ⟨start.registry.slots ++ ["shop.Record", "shop.Order", "shop.Line", "shop.Item"].map
    (otherCompiler.typeSlot start.registry.taken)⟩

theorem exists_other_run : ∃ d, otherCompiler.Run start otherAnswers ⟨otherFinished, d⟩ :=
  Compiler.exists_run_of_outcome (by decide +kernel)

/-- The names of the order and its ancestors. -/
def lineage : List String := ["shop.Order", "shop.Record", "shop.Gone", "shop.Mark"]

theorem mem_lineage {name : String} (h : types.Inherits "shop.Order" name) : name ∈ lineage := by
  refine h.mem_of_closed (by decide) fun other member d found => ?_
  simp only [lineage, List.mem_cons, List.not_mem_nil, or_false] at member
  rcases member with rfl | rfl | rfl | rfl <;> cases found <;> decide

theorem agree : Compiler.AgreeOn compiler otherCompiler start.registry.taken start.registry.taken
    "shop.Order" where
  lineage name h := by
    have member := mem_lineage h
    simp only [lineage, List.mem_cons, List.not_mem_nil, or_false] at member
    rcases member with rfl | rfl | rfl | rfl <;> rfl
  uses d found name member := by
    cases found
    have names : types.propertyNames order = ["shop.Line", "shop.State", "shop.Record"] := by
      decide +kernel
    rw [compiler, names] at member
    simp only [List.mem_cons, List.not_mem_nil, or_false] at member
    rcases member with rfl | rfl | rfl <;> rfl

end Shop

/-! ## Two runs -/

namespace Compiler

variable {k k' : Compiler}

/-- Two runs, over two type systems and from two registries without types, that both have a
definition for a class or interface have the same one, down to the order of members, when they
offer the same alternative and agree on the definition, on its ancestors, and on the roles of the
names in its properties. -/
theorem Run.body_local {c c' s s' : Compilation} {answers answers' : List (TypeRef × Json)}
    (keyed : k.types.WellKeyed) (keyed' : k'.types.WellKeyed)
    (alternative : k.alternative = k'.alternative) (noTypes : c.registry.NoTypes)
    (noTypes' : s.registry.NoTypes) (run : k.Run c answers c') (run' : k'.Run s answers' s')
    {key : String} (agree : AgreeOn k k' c.registry.taken s.registry.taken key)
    {body body' : Json} (found : c'.registry.slots.find? key = some ⟨.type, .resolved body⟩)
    (found' : s'.registry.slots.find? key = some ⟨.type, .resolved body'⟩) : body = body' := by
  obtain ⟨opens, value⟩ := run.body_eq noTypes found
  obtain ⟨d, declared, _, _⟩ := TypeSystem.opens_iff.1 opens
  obtain ⟨_, value'⟩ := run'.body_eq noTypes' found'
  cases value
  cases value'
  exact definitionBody_congr keyed keyed' alternative declared agree

/-- In the example both versions of the types give the order the same body, although the lines it
refers to have changed. -/
theorem Run.body_local_shop : Shop.types.WellKeyed ∧ Shop.otherTypes.WellKeyed ∧
    Shop.start.registry.NoTypes ∧
    (∃ d, Shop.compiler.Run Shop.start Shop.answers ⟨Shop.finished, d⟩) ∧
    (∃ d, Shop.otherCompiler.Run Shop.start Shop.otherAnswers ⟨Shop.otherFinished, d⟩) ∧
    AgreeOn Shop.compiler Shop.otherCompiler Shop.start.registry.taken
      Shop.start.registry.taken "shop.Order" ∧
    ∃ body, Shop.finished.slots.find? "shop.Order" = some ⟨.type, .resolved body⟩ ∧
      Shop.otherFinished.slots.find? "shop.Order" = some ⟨.type, .resolved body⟩ := by
  have keyed : Shop.types.WellKeyed := by
    unfold TypeSystem.WellKeyed
    decide
  have keyed' : Shop.otherTypes.WellKeyed := by
    unfold TypeSystem.WellKeyed
    decide
  obtain ⟨d, run⟩ := Shop.exists_run
  obtain ⟨d', run'⟩ := Shop.exists_other_run
  have alternative : Shop.compiler.alternative = Shop.otherCompiler.alternative := rfl
  have found : Shop.finished.slots.find? "shop.Order" = some ⟨.type, .resolved
      (Shop.compiler.definitionBody Shop.start.registry.taken "shop.Order")⟩ := rfl
  have found' : Shop.otherFinished.slots.find? "shop.Order" = some ⟨.type, .resolved
      (Shop.otherCompiler.definitionBody Shop.start.registry.taken "shop.Order")⟩ := rfl
  refine ⟨keyed, keyed', Shop.noTypes, ⟨d, run⟩, ⟨d', run'⟩, Shop.agree, _, found, ?_⟩
  rw [found', Run.body_local keyed keyed' alternative Shop.noTypes Shop.noTypes run run'
    Shop.agree found found']

end Compiler

end ManifestSchema
