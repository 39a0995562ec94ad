import ManifestSchema.Dict

/-!
# TOML documents

The values of a TOML document, and the tables that it is built from while it is read. A header or a
dotted key opens tables on its way; which of them may be opened again is part of the format. A table
that only lay on the way of a header can still get a header of its own. Dotted keys can extend only
tables that dotted keys have opened.
-/

namespace ManifestSchema

/-- A value of a TOML document. -/
inductive Toml
  | string (value : String)
  | integer (value : Int)
  | float (value : Float)
  | boolean (value : Bool)
  /-- A date, a time or both, in the normal form of its text. -/
  | datetime (text : String)
  | array (elements : List Toml)
  | table (entries : List (String × Toml))
deriving Inhabited

namespace Toml

/-- An entry of a table that is being read. -/
inductive Node
  /-- A value, which nothing can extend. -/
  | closed (value : Toml)
  /-- A table; whether it only lay on the way, and whether dotted keys opened it. -/
  | table (onTheWay dotted : Bool) (entries : List (String × Node))
  /-- An array of tables, the last of which is still being read. -/
  | tables (finished : List Toml) (last : List (String × Node))

/-- The entries of a table that is being read. -/
abbrev Nodes := List (String × Node)

namespace Node

mutual

/-- The value of an entry. -/
def finish : Node → Toml
  | .closed v => v
  | .table _ _ entries => .table (finishAll entries)
  | .tables finished last => .array (finished ++ [.table (finishAll last)])

/-- The values of entries. -/
def finishAll : List (String × Node) → List (String × Toml)
  | [] => []
  | (k, n) :: rest => (k, finish n) :: finishAll rest

end

/-- Change the table at the end of a path and open those on the way. Dotted keys do not go through
tables that have a header. `change` is told whether dotted keys opened the table. -/
def within (dotted : Bool) (change : Bool → Nodes → Option Nodes) :
    (path : List String) → (opened : Bool) → Nodes → Option Nodes
  | [], opened, entries => change opened entries
  | key :: path, _, entries =>
      match Dict.find? entries key with
      | none => do
          let inner ← within dotted change path dotted []
          return Dict.insert entries key (.table true dotted inner)
      | some (.closed _) => none
      | some (.tables finished last) => do
          let inner ← within dotted change path false last
          return Dict.insert entries key (.tables finished inner)
      | some (.table onTheWay opened inner) =>
          if dotted && !onTheWay then none
          else do
            let inner ← within dotted change path opened inner
            return Dict.insert entries key (.table onTheWay opened inner)

/-- Add a value under a key that may be dotted. The table that it goes into must have been opened by
dotted keys exactly if the key is dotted. -/
def addValue (path : List String) (key : String) (value : Toml) : (opened : Bool) → Nodes →
    Option Nodes :=
  within true (fun opened entries =>
    if opened == path.isEmpty || Dict.contains entries key then none
    else some (entries ++ [(key, .closed value)])) path

/-- Open the table of a header. -/
def openTable (path : List String) (key : String) : Nodes → Option Nodes :=
  within false (fun _ entries =>
    match Dict.find? entries key with
    | none => some (entries ++ [(key, .table false false [])])
    | some (.table true false inner) => some (Dict.insert entries key (.table false false inner))
    | some _ => none) path false

/-- Open a further element of the array of tables of a header. -/
def openElement (path : List String) (key : String) : Nodes → Option Nodes :=
  within false (fun _ entries =>
    match Dict.find? entries key with
    | none => some (entries ++ [(key, .tables [] [])])
    | some (.tables finished last) =>
        some (Dict.insert entries key
          (.tables (finished ++ [.table (finishAll last)]) []))
    | some _ => none) path false

end Node

end Toml

end ManifestSchema
