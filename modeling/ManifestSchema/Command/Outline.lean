import ManifestSchema.Command.Basic

/-!
# Outline of a command

What a command was understood to ask for, spelled out in full, one item a line, for someone who
wants to know before it is run.
-/

namespace ManifestSchema

/-- Nested data to be laid out over lines. -/
inductive Outline
  | leaf (text : String)
  | record (name : String) (fields : List (String × Outline))
  | wrapped (name : String) (content : Outline)
  | list (items : List Outline)

namespace Outline

/-- The blanks in front of a line. -/
def margin (depth : Nat) : String := "".pushn ' ' (4 * depth)

mutual

/-- The text of an outline that begins on a line of some depth. -/
def textAt (depth : Nat) : Outline → String
  | .leaf text => text
  | .record name fields => name ++ " \x7b\n" ++ fieldsAt depth fields ++ margin depth ++ "\x7d"
  | .wrapped name content =>
      name ++ "(\n" ++ margin (depth + 1) ++ textAt (depth + 1) content ++ ",\n" ++
        margin depth ++ ")"
  | .list [] => "[]"
  | .list items => "[\n" ++ itemsAt depth items ++ margin depth ++ "]"

/-- The lines of the fields of a record that begins at some depth. -/
def fieldsAt (depth : Nat) : List (String × Outline) → String
  | [] => ""
  | (name, content) :: rest =>
      margin (depth + 1) ++ name ++ ": " ++ textAt (depth + 1) content ++ ",\n" ++
        fieldsAt depth rest

/-- The lines of the items of a list that begins at some depth. -/
def itemsAt (depth : Nat) : List Outline → String
  | [] => ""
  | content :: rest =>
      margin (depth + 1) ++ textAt (depth + 1) content ++ ",\n" ++ itemsAt depth rest

end

/-- The text of an outline. -/
def text (o : Outline) : String := o.textAt 0

/-- A text in quotes. -/
def ofText (s : String) : Outline := .leaf (Text.quoted s)

/-- A number. -/
def ofNat (n : Nat) : Outline := .leaf (toString n)

/-- Yes or no. -/
def ofBool : Bool → Outline
  | true => .leaf "true"
  | false => .leaf "false"

/-- A value that may be absent. -/
def ofOption {α : Type} (content : α → Outline) : Option α → Outline
  | none => .leaf "None"
  | some a => .wrapped "Some" (content a)

/-- Texts in order. -/
def ofTexts (texts : List String) : Outline := .list (texts.map ofText)

/-- A colour mode. -/
def ofColorMode : ColorMode → Outline
  | .auto => .leaf "Auto"
  | .always => .leaf "Always"
  | .never => .leaf "Never"

/-- A layout. -/
def ofOutputFormat : OutputFormat → Outline
  | .pretty => .leaf "Pretty"
  | .compact => .leaf "Compact"

/-- What to load. -/
def ofLoadOptions (o : LoadOptions) : Outline :=
  .record "InputSettings" [("input", ofTexts o.inputs), ("jq_expr", ofOption ofText o.filter)]

/-- Which classes are roots. -/
def ofSelectionOptions (o : SelectionOptions) : Outline :=
  .record "SelectionSettings" [("config", ofOption ofText o.config),
    ("base_class", ofOption ofText o.baseClass), ("props_index", ofOption ofNat o.propsIndex),
    ("skip_prefix", ofTexts o.skipPrefixes)]

/-- What to generate. -/
def ofGenerateOptions (o : GenerateOptions) : Outline :=
  .record "GenerateOut" [("input_settings", ofLoadOptions o.input),
    ("selection", ofSelectionOptions o.selection), ("envelope", ofOption ofText o.envelope),
    ("out", ofOption ofText o.out), ("warnings", ofBool o.warnings),
    ("suppress", ofTexts o.suppress), ("symbolic", ofBool o.symbolic),
    ("color", ofOption ofColorMode o.color), ("format", ofOption ofOutputFormat o.format),
    ("no_op", ofBool o.noOp)]

end Outline

/-- The outline of the generation of a schema. -/
def GenerateOptions.outline (o : GenerateOptions) : Outline :=
  .record "CommandLineInterface" [("cmd", .wrapped "Generate" (.ofGenerateOptions o))]

end ManifestSchema
