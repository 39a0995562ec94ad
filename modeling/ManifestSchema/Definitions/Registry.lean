import ManifestSchema.Error

/-!
# The registry of definitions

Named schemas, each written once. A key is reserved before its body is produced, so that a type that
reaches itself gets a reference back; once resolved, a body never changes. Operations act on any
state that holds a registry, and keep what they did when they fail.
-/

namespace ManifestSchema

/-!
## References to definitions

A definition stands in the document under its raw key. A reference to it is a JSON pointer, in which
`~` and `/` inside the key are escaped, `~` first.
-/

namespace Pointer

/-- The escape of one character of a key. -/
def escapeChar (c : Char) : List Char :=
  if c = '~' then ['~', '0'] else if c = '/' then ['~', '1'] else [c]

/-- The segment of a pointer that stands for a key. -/
def segment (key : String) : String := String.ofList (key.toList.flatMap escapeChar)

/-- The text of the pointer to the definition of a key. -/
def text (key : String) : String := "#/definitions/" ++ segment key

end Pointer

/-- The schema that refers to the definition of a key. -/
def reference (key : String) : Json := .obj [("$ref", .str (Pointer.text key))]

/-- The key of the resource entry of a class, apart from that of the schema of the class. -/
def resourceKey (fqn : String) : String := "resource:" ++ fqn

/-! ## Entries -/

/-- A reserved key, still without a body or with its final one. -/
inductive Entry
  | pending
  | resolved (body : Json)
deriving DecidableEq

/-- The entry of a key, and who reserved it. -/
structure Slot where
  owner : Owner
  entry : Entry
deriving DecidableEq

/-- All definitions in the order in which their keys were reserved. -/
structure Registry where
  slots : Dict Slot
deriving DecidableEq

/-- A step of work on a state that may fail; the state is kept in either case. -/
abbrev Work (σ α : Type) := EStateM EngineError σ α

/-- A state that holds a registry. -/
class HoldsRegistry (σ : Type) where
  registry : σ → Registry
  withRegistry : σ → Registry → σ

instance : HoldsRegistry Registry := ⟨id, fun _ r => r⟩

/-- A schema that says something about itself; one without a description is described by its key. -/
def describedBy (key : String) : Json → Json
  | .obj members => .obj (Dict.insertNew members "description" (.str key))
  | other => other

namespace Registry

def empty : Registry := ⟨[]⟩

/-- The number of definitions. -/
def size (r : Registry) : Nat := r.slots.length

/-- Whether a key is reserved. -/
def contains (r : Registry) (key : String) : Bool := r.slots.contains key

/-- Who holds a key. -/
def owner? (r : Registry) (key : String) : Option Owner := (r.slots.find? key).map Slot.owner

/-- The entry of a key. -/
def entry? (r : Registry) (key : String) : Option Entry := (r.slots.find? key).map Slot.entry

/-- The body of a resolved key. -/
def body? (r : Registry) (key : String) : Option Json :=
  match r.entry? key with
  | some (.resolved body) => some body
  | _ => none

/-- The keys without a body, in order. -/
def pending (r : Registry) : List String :=
  (r.slots.filter fun p => p.2.entry = .pending).map Prod.fst

/-- All bodies in order, or the first key that has none. -/
def definitions (r : Registry) : Except EngineError (Dict Json) :=
  r.slots.mapM fun (key, slot) =>
    match slot.entry with
    | .resolved body => .ok (key, body)
    | .pending => .error (.unresolvedDefinition key)

variable {σ : Type} [HoldsRegistry σ]

/-- Claim a key. The answer is whether it is new; a key of another owner is a clash. -/
def reserve (key : String) (owner : Owner) : Work σ Bool := fun s =>
  let r := HoldsRegistry.registry s
  match r.slots.find? key with
  | some slot =>
      if slot.owner = owner then .ok false s else .error (.keyClash key slot.owner owner) s
  | none => .ok true (HoldsRegistry.withRegistry s ⟨r.slots ++ [(key, ⟨owner, .pending⟩)]⟩)

/-- Give a reserved key its body. -/
def resolve (key : String) (body : Json) : Work σ Unit := fun s =>
  let r := HoldsRegistry.registry s
  match r.slots.find? key with
  | none => .error (.notReserved key) s
  | some slot =>
      match slot.entry with
      | .resolved _ => .error (.alreadyResolved key) s
      | .pending =>
          .ok () (HoldsRegistry.withRegistry s
            ⟨r.slots.adjust key fun slot =>
              { slot with entry := .resolved (describedBy key body) }⟩)

/-- Register a key once and refer to it. The body is produced only for a new key, which is pending
meanwhile and stays so when that fails. -/
def define (key : String) (owner : Owner) (produce : Work σ Json) : Work σ Json := do
  if ← reserve key owner then
    let body ← produce
    resolve key body
  return reference key

end Registry

end ManifestSchema
