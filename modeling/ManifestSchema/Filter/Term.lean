import ManifestSchema.Filter.Token

/-!
# Terms of filters

The form of a filter as it is written. From loosest to tightest the operators are `|`, `,`, `//`,
the comparisons, and the sums with `+` and `-`. Instead of `|` a variable can be bound, `as $x |`,
to what stands before it. Names are not looked up here.

A path leads from a value to parts of it, step by step. What tells the part is a term while the path
is only written, a filter once its names are resolved, and a value when the path is followed.
-/

namespace ManifestSchema

namespace Filter

/-- A step into a value, with what tells the part. Where an optional step fails it leads nowhere. -/
inductive Step (α : Type)
  | index (key : α) (optional : Bool)
  | each (optional : Bool)
  | sliceFrom (start : α) (optional : Bool)
  | sliceTo (stop : α) (optional : Bool)
  | slice (start stop : α) (optional : Bool)
deriving Repr

/-- A filter as written. -/
inductive Term
  | identity
  | recurse
  | number (text : String)
  | text (content : String)
  | variable (name : String)
  | emptyList
  | list (body : Term)
  | emptyObject
  | member (key value : Term)
  | call (name : String) (arguments : List Term)
  | pipe (first second : Term)
  | bind (first : Term) (name : String) (body : Term)
  | both (first second : Term)
  | orElse (first second : Term)
  | equal (first second : Term)
  | different (first second : Term)
  | add (first second : Term)
  | subtract (first second : Term)
  | negate (body : Term)
  | branch (condition yes no : Term)
  | path (base : Term) (steps : List (Step Term))
  | attempt (body : Term)
deriving Inhabited, Repr

namespace Term

/-- Words that start forms which are not part of the language. -/
def reservedWords : List String := ["break", "def", "foreach", "label", "reduce", "try"]

/-- Words that a filter cannot start with, since modules do. -/
def moduleWords : List String := ["import", "include", "module"]

/-- The member of the input with a name. -/
def field (name : String) : Term := .path .identity [.index (.text name) false]

/-- Go past a symbol. -/
def expect (symbol : String) : List Token → Option (List Token)
  | .symbol s :: rest => if s = symbol then some rest else none
  | _ => none

/-- Go past a keyword. -/
def expectWord (word : String) : List Token → Option (List Token)
  | .word w :: rest => if w = word then some rest else none
  | _ => none

/-- Whether question marks follow, and what is after them. -/
def questions : List Token → Bool × List Token
  | .symbol "?" :: rest => (true, (questions rest).2)
  | rest => (false, rest)

mutual

/-- Terms joined by bars, which may bind variables. Commas join terms too unless the term is the
value of an object. -/
def pipes : (steps : Nat) → (commas : Bool) → List Token → Option (Term × List Token)
  | 0, _, _ => none
  | steps + 1, commas, tokens => do
      let (first, rest) ← (if commas then commaTerms steps tokens else alternatives steps tokens)
      match rest with
      | .symbol "|" :: rest =>
          let (second, rest) ← pipes steps commas rest
          return (.pipe first second, rest)
      | .word "as" :: .variable name :: .symbol "|" :: rest =>
          let (body, rest) ← pipes steps commas rest
          return (.bind first name body, rest)
      | _ => return (first, rest)

/-- Terms joined by commas. -/
def commaTerms : (steps : Nat) → List Token → Option (Term × List Token)
  | 0, _ => none
  | steps + 1, tokens => do
      let (first, rest) ← alternatives steps tokens
      match rest with
      | .symbol "," :: rest =>
          let (second, rest) ← commaTerms steps rest
          return (.both first second, rest)
      | _ => return (first, rest)

/-- Terms joined by `//`. -/
def alternatives : (steps : Nat) → List Token → Option (Term × List Token)
  | 0, _ => none
  | steps + 1, tokens => do
      let (first, rest) ← comparison steps tokens
      match rest with
      | .symbol "//" :: rest =>
          let (second, rest) ← alternatives steps rest
          return (.orElse first second, rest)
      | _ => return (first, rest)

/-- A sum, and what it is compared with. -/
def comparison : (steps : Nat) → List Token → Option (Term × List Token)
  | 0, _ => none
  | steps + 1, tokens => do
      let (head, rest) ← operand steps tokens
      let (first, rest) ← sum steps head rest
      comparedWith steps first rest

/-- What a term is compared with, from the left. -/
def comparedWith : (steps : Nat) → (first : Term) → List Token → Option (Term × List Token)
  | 0, _, _ => none
  | steps + 1, first, tokens => do
      match tokens with
      | .symbol "==" :: rest =>
          let (head, rest) ← operand steps rest
          let (second, rest) ← sum steps head rest
          comparedWith steps (.equal first second) rest
      | .symbol "!=" :: rest =>
          let (head, rest) ← operand steps rest
          let (second, rest) ← sum steps head rest
          comparedWith steps (.different first second) rest
      | _ => return (first, tokens)

/-- What is added to a term or taken from it, from the left. -/
def sum : (steps : Nat) → (first : Term) → List Token → Option (Term × List Token)
  | 0, _, _ => none
  | steps + 1, first, tokens => do
      match tokens with
      | .symbol "+" :: rest => do
          let (second, rest) ← operand steps rest
          sum steps (.add first second) rest
      | .symbol "-" :: rest => do
          let (second, rest) ← operand steps rest
          sum steps (.subtract first second) rest
      | _ => return (first, tokens)

/-- A term that operators join, perhaps negated: a term with question marks and a path behind it. -/
def operand : (steps : Nat) → List Token → Option (Term × List Token)
  | 0, _ => none
  | steps + 1, tokens => do
      match tokens with
      | .symbol "-" :: rest => do
          let (body, rest) ← operand steps rest
          return (.negate body, rest)
      | _ => do
          let (base, rest) ← atom steps tokens
          let (tried, rest) := questions rest
          let base := if tried then .attempt base else base
          let (way, rest) ← pathSteps steps rest
          return (if way.isEmpty then base else .path base way, rest)

/-- The steps of a path. -/
def pathSteps : (steps : Nat) → List Token → Option (List (Step Term) × List Token)
  | 0, _ => none
  | steps + 1, tokens => do
      match tokens with
      | .field name :: rest =>
          let (optional, rest) := questions rest
          let (more, rest) ← pathSteps steps rest
          return (.index (.text name) optional :: more, rest)
      | .symbol "." :: .text name :: rest =>
          let (optional, rest) := questions rest
          let (more, rest) ← pathSteps steps rest
          return (.index (.text name) optional :: more, rest)
      | .symbol "[" :: rest => do
          let (step, rest) ← bracket steps rest
          let (more, rest) ← pathSteps steps rest
          return (step :: more, rest)
      | _ => return ([], tokens)

/-- A step in brackets, from behind the opening one. -/
def bracket : (steps : Nat) → List Token → Option (Step Term × List Token)
  | 0, _ => none
  | steps + 1, tokens => do
      match tokens with
      | .symbol "]" :: rest =>
          let (optional, rest) := questions rest
          return (.each optional, rest)
      | .symbol ":" :: rest => do
          let (stop, rest) ← pipes steps true rest
          let (optional, rest) := questions (← expect "]" rest)
          return (.sliceTo stop optional, rest)
      | _ => do
          let (start, rest) ← pipes steps true tokens
          match rest with
          | .symbol ":" :: .symbol "]" :: rest =>
              let (optional, rest) := questions rest
              return (.sliceFrom start optional, rest)
          | .symbol ":" :: rest =>
              let (stop, rest) ← pipes steps true rest
              let (optional, rest) := questions (← expect "]" rest)
              return (.slice start stop optional, rest)
          | _ =>
              let (optional, rest) := questions (← expect "]" rest)
              return (.index start optional, rest)

/-- A term that nothing joins. A path without a term in front starts at the input. -/
def atom : (steps : Nat) → List Token → Option (Term × List Token)
  | 0, _ => none
  | steps + 1, tokens => do
      match tokens with
      | .field _ :: _ => return (.identity, tokens)
      | .symbol "." :: .text _ :: _ => return (.identity, tokens)
      | .symbol "." :: rest => return (.identity, rest)
      | .symbol ".." :: rest => return (.recurse, rest)
      | .number digits :: rest => return (.number digits, rest)
      | .text content :: rest => return (.text content, rest)
      | .variable name :: rest => return (.variable name, rest)
      | .symbol "(" :: rest => do
          let (body, rest) ← pipes steps true rest
          return (body, ← expect ")" rest)
      | .symbol "[" :: .symbol "]" :: rest => return (.emptyList, rest)
      | .symbol "[" :: rest => do
          let (body, rest) ← pipes steps true rest
          return (.list body, ← expect "]" rest)
      | .symbol "\x7b" :: .symbol "\x7d" :: rest => return (.emptyObject, rest)
      | .symbol "\x7b" :: rest => do
          let (first, rest) ← entry steps rest
          entries steps first rest
      | .word "if" :: rest => branches steps rest
      | .word name :: rest =>
          if reservedWords.contains name then failure
          else
            match rest with
            | .symbol "(" :: rest => do
                let (given, rest) ← arguments steps rest
                return (.call name given, rest)
            | _ => return (.call name [], rest)
      | _ => failure

/-- The arguments of a call up to its closing bracket. -/
def arguments : (steps : Nat) → List Token → Option (List Term × List Token)
  | 0, _ => none
  | steps + 1, tokens => do
      let (first, rest) ← pipes steps true tokens
      match rest with
      | .symbol ";" :: rest =>
          let (others, rest) ← arguments steps rest
          return (first :: others, rest)
      | _ => return ([first], ← expect ")" rest)

/-- A condition, what to do then, and what otherwise. -/
def branches : (steps : Nat) → List Token → Option (Term × List Token)
  | 0, _ => none
  | steps + 1, tokens => do
      let (condition, rest) ← pipes steps true tokens
      let rest ← expectWord "then" rest
      let (yes, rest) ← pipes steps true rest
      match rest with
      | .word "elif" :: rest =>
          let (no, rest) ← branches steps rest
          return (.branch condition yes no, rest)
      | .word "else" :: rest =>
          let (no, rest) ← pipes steps true rest
          return (.branch condition yes no, ← expectWord "end" rest)
      | _ => return (.branch condition yes .identity, ← expectWord "end" rest)

/-- The members of an object after the first, up to the closing brace. A comma may stand in front of
the brace. -/
def entries : (steps : Nat) → (first : Term) → List Token → Option (Term × List Token)
  | 0, _, _ => none
  | steps + 1, first, tokens => do
      match tokens with
      | .symbol "," :: .symbol "\x7d" :: rest => return (first, rest)
      | .symbol "," :: rest => do
          let (second, rest) ← entry steps rest
          entries steps (.add first second) rest
      | _ => do return (first, ← expect "\x7d" tokens)

/-- A member of an object. A name without a value takes the value of that name; a variable with a
value is the key. -/
def entry : (steps : Nat) → List Token → Option (Term × List Token)
  | 0, _ => none
  | steps + 1, tokens => do
      match tokens with
      | .symbol "(" :: rest => do
          let (key, rest) ← pipes steps true rest
          let rest ← expect ":" (← expect ")" rest)
          let (value, rest) ← pipes steps false rest
          return (.member key value, rest)
      | .variable name :: .symbol ":" :: rest => do
          let (value, rest) ← pipes steps false rest
          return (.member (.variable name) value, rest)
      | .variable name :: rest => return (.member (.text name) (.variable name), rest)
      | .word name :: rest => named steps name rest
      | .text name :: rest => named steps name rest
      | _ => failure

/-- The value of a member with a name. -/
def named : (steps : Nat) → (name : String) → List Token → Option (Term × List Token)
  | 0, _, _ => none
  | steps + 1, name, tokens => do
      match tokens with
      | .symbol ":" :: rest => do
          let (value, rest) ← pipes steps false rest
          return (.member (.text name) value, rest)
      | _ => return (.member (.text name) (field name), tokens)

end

/-- The number of steps that parsing a token takes at most. -/
def stepsPerToken : Nat := 16

/-- The term that some tokens are, if they are one. -/
def ofTokens? (tokens : List Token) : Option Term :=
  match pipes (stepsPerToken * (tokens.length + 1)) true tokens with
  | some (term, []) => some term
  | _ => none

/-- The term that a text is, if it is one. -/
def ofText? (source : String) : Option Term := do
  match ← Token.all? source with
  | .word w :: rest => if moduleWords.contains w then none else ofTokens? (.word w :: rest)
  | tokens => ofTokens? tokens

end Term

end Filter

end ManifestSchema
