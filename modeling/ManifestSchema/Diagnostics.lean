/-!
# Diagnostics

Warnings and errors about single types, on a tree of scopes. The scopes are numbered in the order in
which they were opened, the root being number 0. A scope has a path by which it can be suppressed;
suppressing a scope does not silence the scopes inside it.
-/

namespace ManifestSchema

/-- A scope: its name as shown, its path, what was recorded on it, and the scopes inside it. -/
structure Scope where
  name : String
  path : String
  isRoot : Bool
  warnings : List String
  errors : List String
  children : List Nat
deriving DecidableEq

namespace Scope

/-- The outermost scope. -/
def root : Scope := ⟨"", "", true, [], [], []⟩

/-- The name of a scope of a kind with an identifier. -/
def nameOf (kind identifier : String) : String := "[" ++ kind ++ " \"" ++ identifier ++ "\"]"

/-- The path of a scope inside another one: a top-level scope is qualified by its kind, any other by
the path around it. -/
def pathInside (s : Scope) (kind identifier : String) : String :=
  (if s.isRoot then kind else s.path) ++ "." ++ identifier

/-- Whether the scope has messages of its own to show. -/
def hasIssues (suppress : List String) (s : Scope) : Bool :=
  !suppress.contains s.path && !(s.warnings.isEmpty && s.errors.isEmpty)

end Scope

/-- All scopes in the order in which they were opened. -/
structure Diagnostics where
  scopes : List Scope
deriving DecidableEq

namespace Diagnostics

/-- The root alone. -/
def empty : Diagnostics := ⟨[.root]⟩

/-- A scope by its number. -/
def scope? (d : Diagnostics) (id : Nat) : Option Scope := d.scopes[id]?

/-- Open a scope inside another one; the answer is its number. -/
def child (d : Diagnostics) (parent : Nat) (kind identifier : String) : Nat × Diagnostics :=
  let id := d.scopes.length
  let path := ((d.scope? parent).getD .root).pathInside kind identifier
  let opened : Scope := ⟨Scope.nameOf kind identifier, path, false, [], [], []⟩
  (id, ⟨(d.scopes.modify parent fun s => { s with children := s.children ++ [id] }) ++ [opened]⟩)

/-- Record a warning on a scope. -/
def warn (d : Diagnostics) (id : Nat) (message : String) : Diagnostics :=
  ⟨d.scopes.modify id fun s => { s with warnings := s.warnings ++ [message] }⟩

/-- Record an error on a scope. -/
def error (d : Diagnostics) (id : Nat) (message : String) : Diagnostics :=
  ⟨d.scopes.modify id fun s => { s with errors := s.errors ++ [message] }⟩

/-- The first scope with a path. -/
def find? (d : Diagnostics) (path : String) : Option Nat :=
  d.scopes.findIdx? fun s => s.path = path

/-- The number of warnings. -/
def warningCount (d : Diagnostics) : Nat := (d.scopes.flatMap Scope.warnings).length

/-- The number of errors. -/
def errorCount (d : Diagnostics) : Nat := (d.scopes.flatMap Scope.errors).length

/-! ## Walking the tree -/

/-- A scope and the scopes inside it, each with its depth, within a number of levels. -/
def preorderWithin (d : Diagnostics) : (levels depth id : Nat) → List (Nat × Scope)
  | 0, _, _ => []
  | levels + 1, depth, id =>
      match d.scope? id with
      | none => []
      | some s => (depth, s) :: s.children.flatMap (d.preorderWithin levels (depth + 1))

/-- All scopes, a scope before those inside it, with the number of scopes around each. A scope is
opened after the one around it, so the tree has at most as many levels as scopes. -/
def preorder (d : Diagnostics) : List (Nat × Scope) := d.preorderWithin d.scopes.length 0 0

/-! ## Rendering -/

/-- The escape sequence that selects a colour. -/
def colorOn (code : String) : String := "\x1b[" ++ code ++ "m"

/-- The escape sequence that ends all colours. -/
def colorOff : String := "\x1b[0m"

/-- A line in a colour. Where the line itself ends all colours, the colour starts again. -/
def colored (code line : String) : String :=
  colorOn code ++ (colorOff ++ colorOn code).intercalate (line.splitOn colorOff) ++ colorOff

/-- A line with its end. -/
def lineText (colors : Bool) (code line : String) : String :=
  (if colors then colored code line else line) ++ "\n"

def warningColor : String := "33"

def errorColor : String := "31"

/-- The lines of a scope itself. -/
def blockText (suppress : List String) (colors : Bool) (indent : String) (s : Scope) : String :=
  if s.hasIssues suppress then
    (if s.name.isEmpty then "" else indent ++ s.name ++ "\n") ++
      String.join (s.warnings.map fun m => lineText colors warningColor (indent ++ "  " ++ m)) ++
      String.join (s.errors.map fun m => lineText colors errorColor (indent ++ "  " ++ m))
  else ""

/-- The lines of a scope and of those inside it, within a number of levels. -/
def renderWithin (d : Diagnostics) (suppress : List String) (colors : Bool) :
    (levels : Nat) → (indent : String) → (id : Nat) → String
  | 0, _, _ => ""
  | levels + 1, indent, id =>
      match d.scope? id with
      | none => ""
      | some s =>
          let inner := if s.isRoot then indent else indent ++ "  "
          blockText suppress colors indent s ++
            String.join (s.children.map (d.renderWithin suppress colors levels inner))

/-- All messages of the scopes that are not suppressed, indented by depth. -/
def render (d : Diagnostics) (suppress : List String) (colors : Bool) : String :=
  d.renderWithin suppress colors d.scopes.length "" 0

end Diagnostics

end ManifestSchema
