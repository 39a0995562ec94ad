import ManifestSchema.Toml.Scalar

/-!
# Reading TOML

A document is a sequence of lines, each with a key and its value, the header of a table, or nothing;
comments may end them. Arrays may go over several lines, tables in a value may not. Values are at
most so deep that a reader need not fear for its stack.
-/

namespace ManifestSchema

namespace Toml

/-! ## Keys -/

/-- A character of a key without quotes. -/
def inBareKey (c : Char) : Bool := c.isAlphanum || c = '_' || c = '-'

/-- One key. -/
def readKeyPart : List Char → Option (String × List Char)
  | '"' :: rest => (readBasic (rest.length + 1) rest).map fun (s, r) => (String.ofList s, r)
  | '\'' :: rest => (readLiteral rest).map fun (s, r) => (String.ofList s, r)
  | cs =>
      let key := cs.takeWhile inBareKey
      if key.isEmpty then none else some (String.ofList key, cs.drop key.length)

/-- Keys joined by points, with the blanks around them. -/
def readKeyParts : (steps : Nat) → List Char → Option (List String × List Char)
  | 0, _ => none
  | steps + 1, cs => do
      let (part, rest) ← readKeyPart (dropBlanks cs)
      match dropBlanks rest with
      | '.' :: rest =>
          let (more, rest) ← readKeyParts steps rest
          return (part :: more, rest)
      | rest => return ([part], rest)

/-- The number of arrays and tables that a value may lie in, and of parts that a key may have. -/
def nestingLimit : Nat := 79

/-- A key that may be dotted. -/
def readKey (cs : List Char) : Option (List String × List Char) :=
  (readKeyParts cs.length cs).filter fun r => r.1.length ≤ nestingLimit

/-- The tables on the way of a key, and its last part. -/
def splitKey (key : List String) : List String × String := (key.dropLast, key.getLast?.getD "")

/-! ## Values -/

/-- What follows a comment, up to the end of its line. -/
def dropComment : List Char → Option (List Char)
  | '#' :: rest =>
      match rest.dropWhile isPlain with
      | [] => some []
      | after => if (lineEnd? after).isSome then some after else none
  | cs => some cs

/-- What follows blanks, comments and line ends. -/
def dropFiller : (steps : Nat) → List Char → Option (List Char)
  | 0, cs => some cs
  | steps + 1, cs =>
      match dropComment (dropBlanks cs) with
      | none => none
      | some rest =>
          match lineEnd? rest with
          | some rest => dropFiller steps rest
          | none => some rest

mutual

/-- A value, `depth` arrays and tables deep. -/
def readValue : (steps depth : Nat) → List Char → Option (Toml × List Char)
  | 0, _, _ => none
  | steps + 1, depth, cs =>
      match cs with
      | [] => none
      | c :: rest =>
          if c = '"' ∨ c = '\'' then (readString cs).map fun (s, r) => (.string s, r)
          else if c = '[' then
            if nestingLimit ≤ depth then none
            else (readElements steps (depth + 1) rest).map fun (vs, r) => (.array vs, r)
          else if c = '\x7b' then
            if nestingLimit ≤ depth then none
            else
              match dropBlanks rest with
              | '\x7d' :: rest => some (.table [], rest)
              | rest => do
                  let (entries, rest) ← readPairs steps (depth + 1) [] rest
                  return (.table (Node.finishAll entries), rest)
          else
            match cs with
            | 't' :: 'r' :: 'u' :: 'e' :: rest => some (.boolean true, rest)
            | 'f' :: 'a' :: 'l' :: 's' :: 'e' :: rest => some (.boolean false, rest)
            | _ => (readDatetime cs).or (readNumber cs)

/-- The elements of an array up to its bracket. -/
def readElements : (steps depth : Nat) → List Char → Option (List Toml × List Char)
  | 0, _, _ => none
  | steps + 1, depth, cs => do
      match ← dropFiller cs.length cs with
      | ']' :: rest => return ([], rest)
      | cs =>
          let (v, rest) ← readValue steps depth cs
          match ← dropFiller rest.length rest with
          | ',' :: rest =>
              let (more, rest) ← readElements steps depth rest
              return (v :: more, rest)
          | ']' :: rest => return ([v], rest)
          | _ => failure

/-- The pairs of a table in a value up to its brace, behind those read before. -/
def readPairs : (steps depth : Nat) → Nodes → List Char → Option (Nodes × List Char)
  | 0, _, _, _ => none
  | steps + 1, depth, entries, cs => do
      let (key, rest) ← readKey cs
      let (v, rest) ← readValue steps depth (dropBlanks (← expect '=' rest))
      let entries ← Node.addValue (splitKey key).1 (splitKey key).2 v false entries
      match dropBlanks rest with
      | ',' :: rest => readPairs steps depth entries rest
      | '\x7d' :: rest => return (entries, rest)
      | _ => failure

end

/-! ## Documents -/

/-- A document as far as it has been read: the tables, and the path of the last header. -/
structure Draft where
  entries : Nodes
  header : List String

/-- What follows a line that must be over: blanks, a comment, and the line end. -/
def finishLine (cs : List Char) : Option (List Char) :=
  match dropComment (dropBlanks cs) with
  | none => none
  | some [] => some []
  | some rest => lineEnd? rest

/-- A header, from behind its bracket. -/
def readHeader (d : Draft) (cs : List Char) : Option (Draft × List Char) :=
  match cs with
  | '[' :: rest => do
      let (key, rest) ← readKey rest
      let rest ← expect ']' (← expect ']' rest)
      let entries ← Node.openElement (splitKey key).1 (splitKey key).2 d.entries
      return (⟨entries, key⟩, rest)
  | _ => do
      let (key, rest) ← readKey cs
      let rest ← expect ']' rest
      let entries ← Node.openTable (splitKey key).1 (splitKey key).2 d.entries
      return (⟨entries, key⟩, rest)

/-- A key with its value. -/
def readPair (d : Draft) (cs : List Char) : Option (Draft × List Char) := do
  let (key, rest) ← readKey cs
  let (v, rest) ← readValue (2 * cs.length + 2) 0 (dropBlanks (← expect '=' rest))
  let entries ← Node.within false
    (fun _ entries => Node.addValue (splitKey key).1 (splitKey key).2 v false entries)
    d.header false d.entries
  return ({ d with entries }, rest)

/-- Read the lines that are left. -/
def readAll : (steps : Nat) → Draft → List Char → Option Draft
  | _, d, [] => some d
  | 0, _, _ => none
  | steps + 1, d, cs => do
      let cs := dropBlanks cs
      let (d, rest) ← (match cs with
        | [] => some (d, [])
        | c :: rest =>
            if c = '#' ∨ (lineEnd? cs).isSome then some (d, cs)
            else if c = '[' then readHeader d rest
            else readPair d cs)
      readAll steps d (← finishLine rest)

/-- The table that a text is, unless it is no TOML document. A byte order mark may stand first. -/
def ofText? (text : String) : Option (Dict Toml) :=
  let cs := match text.toList with
    | '\uFEFF' :: cs => cs
    | cs => cs
  (readAll (cs.length + 1) ⟨[], []⟩ cs).map fun d => Node.finishAll d.entries

end Toml

end ManifestSchema
