import ManifestSchema.Json.Decode
import ManifestSchema.Text.Lower
import ManifestSchema.Toml.Reader

/-!
# Layers of configuration

A configuration is put together from layers, a later one over an earlier one: tables are merged key
by key, anything else replaces what was there. Keys are told apart without regard to case. Every
value remembers the layer that it comes from, except for the tables that merging makes.

The entries of a table stand in no order of their own: they are kept in a hash map, and each run goes
through it in an order that it does not share with others. Where two entries of a layer set one
place, which of them counts is left to that order.
-/

namespace ManifestSchema

/-- A value that holds no others. -/
inductive Scalar
  | nothing
  | flag (value : Bool)
  | integer (value : Int)
  | float (value : Float)
  | text (value : String)

/-- A configured value with the layer that it comes from. -/
inductive Configured
  | scalar (value : Scalar) (origin : Option String)
  | list (elements : List Configured) (origin : Option String)
  | table (entries : List (String × Configured)) (origin : Option String)
deriving Inhabited

namespace Configured

/-- A table without a layer of its own. -/
def emptyTable : Configured := .table [] none

/-- Nothing yet. -/
def nothing : Configured := .scalar .nothing none

/-- The elements of a list; anything else has none. -/
def elements : Configured → List Configured
  | .list elements _ => elements
  | _ => []

mutual

/-- The value of a TOML document in a layer. -/
def ofToml (origin : String) : Toml → Configured
  | .string s => .scalar (.text s) origin
  | .integer n => .scalar (.integer n) origin
  | .float x => .scalar (.float x) origin
  | .boolean b => .scalar (.flag b) origin
  | .datetime s => .scalar (.text s) origin
  | .array elements => .list (ofTomlAll origin elements) origin
  | .table entries => .table (ofTomlEntries origin entries) origin

/-- The values of elements. -/
def ofTomlAll (origin : String) : List Toml → List Configured
  | [] => []
  | v :: rest => ofToml origin v :: ofTomlAll origin rest

/-- The values of entries. -/
def ofTomlEntries (origin : String) : List (String × Toml) → List (String × Configured)
  | [] => []
  | (k, v) :: rest => (k, ofToml origin v) :: ofTomlEntries origin rest

end

/-- A number of a JSON document: an integer of 64 bits with sign, or a float. -/
def ofNumber : Number → Scalar
  | .int n => if n < Word.signedLimit then .integer n else .float (Float.ofInt n)
  | .float x => .float x

mutual

/-- The value of a JSON document in a layer. -/
def ofJson (origin : String) : Json → Configured
  | .null => .scalar .nothing origin
  | .bool b => .scalar (.flag b) origin
  | .num n => .scalar (ofNumber n) origin
  | .str s => .scalar (.text s) origin
  | .arr elements => .list (ofJsonAll origin elements) origin
  | .obj members => .table (ofJsonEntries origin members) origin

/-- The values of elements. -/
def ofJsonAll (origin : String) : List Json → List Configured
  | [] => []
  | v :: rest => ofJson origin v :: ofJsonAll origin rest

/-- The values of members. -/
def ofJsonEntries (origin : String) : List (String × Json) → List (String × Configured)
  | [] => []
  | (k, v) :: rest => (k, ofJson origin v) :: ofJsonEntries origin rest

end

/-! ## Merging -/

/-- The entries and the layer of a table; anything else gives way to an empty table. -/
def asTable : Configured → List (String × Configured) × Option String
  | .table entries origin => (entries, origin)
  | _ => ([], none)

mutual

/-- Put a value under a key of a table. A table is merged into what is there. -/
def put (key : String) (value : Configured) (target : Configured) : Configured :=
  let (entries, origin) := target.asTable
  let name := Text.lower key
  match value with
  | .table incoming _ =>
      let present := (Dict.find? entries name).getD emptyTable
      .table (Dict.insert entries name (putAll incoming present)) origin
  | other => .table (Dict.insert entries name other) origin

/-- Put values under keys of a table in order. -/
def putAll (incoming : List (String × Configured)) (target : Configured) : Configured :=
  match incoming with
  | [] => target
  | (key, value) :: rest => putAll rest (put key value target)

end

/-! ## Keys of a layer -/

/-- A place in a configuration. -/
inductive KeyPath
  | name (key : String)
  | child (parent : KeyPath) (key : String)
  | element (parent : KeyPath) (index : Int)
deriving Repr

namespace KeyPath

/-- A character of a name. -/
def inName (c : Char) : Bool := c.isAlphanum || c = ' ' || c = '_' || c = '-'

/-- An index up to its bracket, with blanks around it. -/
def readIndex (cs : List Char) : Option (Int × List Char) :=
  let cs := cs.dropWhile Toml.isBlank
  let (negative, body) := match cs with
    | '-' :: rest => (true, rest)
    | rest => (false, rest)
  let digits := body.takeWhile Char.isDigit
  match (body.drop digits.length).dropWhile Toml.isBlank with
  | ']' :: rest =>
      let n : Int := Decimal.ofDigits digits
      if digits.isEmpty ∨ Word.signedLimit ≤ n then none
      else some (if negative then -n else n, rest)
  | _ => none

/-- Read the steps that are left. -/
def readSteps : (steps : Nat) → KeyPath → List Char → Option KeyPath
  | _, path, [] => some path
  | 0, _, _ => none
  | steps + 1, path, '.' :: rest =>
      let key := rest.takeWhile inName
      if key.isEmpty then none
      else readSteps steps (.child path (String.ofList key)) (rest.drop key.length)
  | steps + 1, path, '[' :: rest =>
      match readIndex rest with
      | some (i, rest) => readSteps steps (.element path i) rest
      | none => none
  | _, _, _ => none

/-- The place that a text names: names joined by points, and indices in brackets. -/
def ofText? (text : String) : Option KeyPath :=
  let cs := text.toList
  let key := cs.takeWhile inName
  if key.isEmpty then none
  else readSteps cs.length (.name (String.ofList key)) (cs.drop key.length)

/-- A position in a list; a negative one counts from the end, and must not count beyond the start. -/
def position (index : Int) (length : Nat) : Nat :=
  if 0 ≤ index then index.toNat else length - index.natAbs

/-- Change an element of a list, which is filled up to there. -/
def atIndex (index : Int) (change : Configured → Configured) : Configured → Configured
  | .list elements origin =>
      let i := position index elements.length
      let filled := elements ++ List.replicate (i + 1 - elements.length) Configured.nothing
      .list (filled.modify i change) origin
  | _ =>
      let i := position index 0
      .list ((List.replicate (i + 1) Configured.nothing).modify i change) none

/-- Change an entry of a table, which is made if need be. -/
def atKey (key : String) (change : Configured → Configured) (target : Configured) : Configured :=
  let (entries, origin) := target.asTable
  let present := (Dict.find? entries key).getD Configured.nothing
  .table (Dict.insert entries key (change present)) origin

/-- Change what is at a place, which is made if need be. -/
def modify : KeyPath → (Configured → Configured) → Configured → Configured
  | .name key, change, root => atKey key change root
  | .child parent key, change, root => modify parent (atKey key change) root
  | .element parent i, change, root => modify parent (atIndex i change) root

/-- What is at a place, if there is anything. -/
def value : KeyPath → Configured → Configured
  | .name key, root => (Dict.find? root.asTable.1 key).getD nothing
  | .child parent key, root => (Dict.find? (parent.value root).asTable.1 key).getD nothing
  | .element parent i, root =>
      let elements := (parent.value root).elements
      elements[position i elements.length]?.getD nothing

/-- Whether no position on the way to a place counts beyond the start of its list. -/
def isReached : KeyPath → Configured → Bool
  | .name _, _ => true
  | .child parent _, root => parent.isReached root
  | .element parent i, root =>
      parent.isReached root && decide (-i ≤ (parent.value root).elements.length)

/-- Put a value at a place. -/
def put : KeyPath → (value : Configured) → (root : Configured) → Configured
  | .name key, value, root => Configured.put key value root
  | .child parent key, value, root => modify parent (Configured.put key value) root
  | .element parent i, value, root => modify parent (atIndex i fun _ => value) root

end KeyPath

/-- Put a value over a configuration under a key, or at the place that the key names. -/
def overlayEntry (key : String) (value root : Configured) : Configured :=
  match KeyPath.ofText? (Text.lower key) with
  | some path => path.put value root
  | none => put key value root

/-- Put a layer over a configuration. -/
def overlay (root : Configured) : (layer : List (String × Configured)) → Configured
  | [] => root
  | (key, value) :: rest => overlay (overlayEntry key value root) rest

/-- Whether all places of a layer are reached, each when it is its turn. The program stops at a place
that is not, for which `overlay` takes the first element of the list. -/
def reaches (root : Configured) : (layer : List (String × Configured)) → Bool
  | [] => true
  | (key, value) :: rest =>
      ((KeyPath.ofText? (Text.lower key)).all fun path => path.isReached root) &&
        reaches (overlayEntry key value root) rest

/-! ## Orders -/

/-- `Arranged v v'`: the same value with the entries of its tables in some order. Lists are taken over
as they are, so tables in them are not gone through. -/
inductive Arranged : Configured → Configured → Prop
  | refl (v : Configured) : Arranged v v
  | trans {v v' v'' : Configured} : Arranged v v' → Arranged v' v'' → Arranged v v''
  | entries {entries entries' : List (String × Configured)} {origin : Option String} :
      entries.Perm entries' → Arranged (.table entries origin) (.table entries' origin)
  | inside {before after : List (String × Configured)} {key : String} {v v' : Configured}
      {origin : Option String} : Arranged v v' →
      Arranged (.table (before ++ (key, v) :: after) origin)
        (.table (before ++ (key, v') :: after) origin)

/-- The same layers, each with the entries of its tables in some order. -/
inductive ArrangedAll :
    (layers layers' : List (List (String × Configured))) → Prop
  | nil : ArrangedAll [] []
  | cons {layer layer' : List (String × Configured)}
      {layers layers' : List (List (String × Configured))} :
      Arranged (.table layer none) (.table layer' none) → ArrangedAll layers layers' →
      ArrangedAll (layer :: layers) (layer' :: layers')

end Configured

end ManifestSchema
