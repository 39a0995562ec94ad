import ManifestSchema.Error

/-!
# Glob patterns

In a pattern `?` stands for any character, `*` for any characters, `[ab-d]` for one of a class and
`[!ab-d]` for one outside of it. As a whole component `**` stands for any directories. Everything
else stands for itself.
-/

namespace ManifestSchema

/-- One item of a character class. -/
inductive ClassItem
  | single (c : Char)
  | between (first last : Char)
deriving DecidableEq

/-- Whether a character belongs to an item. -/
def ClassItem.holds (c : Char) : ClassItem → Bool
  | .single x => c = x
  | .between first last => first ≤ c && c ≤ last

/-- One part of a pattern. -/
inductive PatternToken
  | char (c : Char)
  | anyChar
  | anySequence
  | anyDirectories
  | oneOf (items : List ClassItem)
  | noneOf (items : List ClassItem)
deriving DecidableEq

/-- A pattern. -/
abbrev Pattern := List PatternToken

/-- A refused pattern: where, in characters, and why. -/
structure PatternError where
  position : Nat
  fault : PatternFault
deriving DecidableEq

namespace Pattern

/-- The items of a character class. -/
def classItems : List Char → List ClassItem
  | [] => []
  | a :: '-' :: b :: rest => .between a b :: classItems rest
  | a :: rest => .single a :: classItems rest

/-- The character class behind a bracket and what follows it. The first character of the class may
be the bracket that otherwise ends it. -/
def readClass : List Char → Option (PatternToken × List Char)
  | '!' :: a :: rest =>
      if rest.contains ']' then
        some (.noneOf (classItems (a :: rest.takeWhile (· ≠ ']'))),
          (rest.dropWhile (· ≠ ']')).drop 1)
      else none
  | ['!'] => none
  | a :: rest =>
      if rest.contains ']' then
        some (.oneOf (classItems (a :: rest.takeWhile (· ≠ ']'))),
          (rest.dropWhile (· ≠ ']')).drop 1)
      else none
  | [] => none

/-- Read the tokens from a position on; `before` is the character in front of it. -/
def readWithin : (steps position : Nat) → (before : Option Char) → List Char →
    Except PatternError Pattern
  | 0, _, _, _ => .ok []
  | _, _, _, [] => .ok []
  | steps + 1, position, _, '?' :: rest => do
      let others ← readWithin steps (position + 1) (some '?') rest
      return .anyChar :: others
  | steps + 1, position, before, '*' :: rest =>
      let stars := (rest.takeWhile (· = '*')).length + 1
      let after := rest.drop (stars - 1)
      if 2 < stars then .error ⟨position + 2, .wildcards⟩
      else if stars = 2 then
        if before = none ∨ before = some '/' then
          match after with
          | '/' :: rest => do
              let others ← readWithin steps (position + 3) (some '/') rest
              return .anyDirectories :: others
          | [] => .ok [.anyDirectories]
          | _ => .error ⟨position + 2, .recursiveWildcards⟩
        else .error ⟨position - 1, .recursiveWildcards⟩
      else do
        let others ← readWithin steps (position + 1) (some '*') after
        return .anySequence :: others
  | steps + 1, position, _, '[' :: rest =>
      match readClass rest with
      | none => .error ⟨position, .range⟩
      | some (token, after) => do
          let others ← readWithin steps (position + 1 + rest.length - after.length) (some ']') after
          return token :: others
  | steps + 1, position, _, c :: rest => do
      let others ← readWithin steps (position + 1) (some c) rest
      return .char c :: others

/-- The pattern of a text. -/
def ofText (text : String) : Except PatternError Pattern :=
  readWithin text.length 0 none text.toList

/-- Whether a pattern is the component for any directories. -/
def isRecursive (p : Pattern) : Bool := p.contains .anyDirectories

/-- The text that a pattern stands for when it has no wildcards. -/
def literal? (p : Pattern) : Option String :=
  (p.mapM fun
    | PatternToken.char c => some c
    | _ => none).map String.ofList

/-- Try what follows a wildcard at every end of a text. -/
def anyTail (rest : List Char → Bool) : List Char → Bool
  | [] => rest []
  | c :: cs => rest (c :: cs) || anyTail rest cs

/-- Whether a pattern matches a name. -/
def matchesChars : Pattern → List Char → Bool
  | [], cs => cs.isEmpty
  | .anySequence :: more, cs => anyTail (matchesChars more) cs
  | .anyDirectories :: more, cs => anyTail (matchesChars more) cs
  | .char x :: more, c :: cs => x = c && matchesChars more cs
  | .anyChar :: more, _ :: cs => matchesChars more cs
  | .oneOf items :: more, c :: cs => items.any (·.holds c) && matchesChars more cs
  | .noneOf items :: more, c :: cs => !items.any (·.holds c) && matchesChars more cs
  | .char _ :: _, [] | .anyChar :: _, [] | .oneOf _ :: _, [] | .noneOf _ :: _, [] => false

/-- Whether a pattern matches a name. -/
def matchesName (p : Pattern) (name : String) : Bool := p.matchesChars name.toList

end Pattern

end ManifestSchema
