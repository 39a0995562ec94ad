import ManifestSchema.Decimal

/-!
# Options of a command

The arguments of a command are options with their values. An option is settled, that is counted and
checked, when the next one begins or the arguments end, so of two faults the one that is met first
in this sense is told.
-/

namespace ManifestSchema

/-- What the arguments amount to when they name no command that can run. -/
inductive UsageNotice
  | helpWanted
  | versionWanted
  | nothingWanted
  | unknownCommand
  | unknownArgument
  | missingOption
  | unacceptableValue
  | malformedValue
  | unexpectedValue
  | repeatedOption
deriving DecidableEq, Repr

namespace UsageNotice

/-- Whether the arguments asked for information only. -/
def isAnswer : UsageNotice → Bool
  | .helpWanted | .versionWanted => true
  | _ => false

/-- The exit code of a run that comes to nothing more. -/
def exitCode (n : UsageNotice) : Nat := if n.isAnswer then 0 else 2

end UsageNotice

/-- How many values belong to an option. -/
inductive Arity
  | flag
  | single
  | several
deriving DecidableEq, Repr

/-- What a value of an option has to be. -/
inductive ValueRule
  | text
  | path
  | natural
  | oneOf (names : List String)
deriving DecidableEq, Repr

/-- Check a value. -/
def ValueRule.check : ValueRule → String → Except UsageNotice Unit
  | .text, _ => .ok ()
  | .path, value => if value.isEmpty then .error .unacceptableValue else .ok ()
  | .natural, value =>
      if (Decimal.natural? value).isSome then .ok () else .error .malformedValue
  | .oneOf names, value =>
      if names.contains value then .ok () else .error .unacceptableValue

/-- An option of a command. -/
structure OptionRule where
  name : String
  letter : Option Char
  arity : Arity
  repeatable : Bool
  value : ValueRule
deriving DecidableEq, Repr

namespace OptionRule

/-- An option without values. -/
def flag (name : String) : OptionRule := ⟨name, none, .flag, false, .text⟩

/-- An option with a value. -/
def single (name : String) (value : ValueRule) : OptionRule := ⟨name, none, .single, false, value⟩

/-- An option with a text that may be given again. -/
def repeated (name : String) : OptionRule := ⟨name, none, .single, true, .text⟩

end OptionRule

/-- The options of a command, and those that only ask for information. -/
structure OptionTable where
  options : List OptionRule
  answers : List (String × Char × UsageNotice)

/-- The options that were given, in order, each with its values. -/
structure GivenOptions where
  entries : List (String × List String)

namespace GivenOptions

/-- Whether an option was given. -/
def has (g : GivenOptions) (name : String) : Bool := g.entries.any fun e => e.1 = name

/-- All values of an option. -/
def values (g : GivenOptions) (name : String) : List String :=
  g.entries.flatMap fun e => if e.1 = name then e.2 else []

/-- The first value of an option. -/
def value? (g : GivenOptions) (name : String) : Option String := (g.values name).head?

end GivenOptions

/-- Options read so far: the settled ones, and the last one while values may follow it. -/
structure OptionScan where
  settled : GivenOptions
  pending : Option (OptionRule × List String)

namespace OptionScan

/-- Nothing read yet. -/
def start : OptionScan := ⟨⟨[]⟩, none⟩

/-- Count and check an option with its values. -/
def record (given : GivenOptions) (o : OptionRule) (values : List String) :
    Except UsageNotice GivenOptions :=
  if o.arity ≠ .flag ∧ values = [] then .error .unacceptableValue
  else if !o.repeatable && given.has o.name then .error .repeatedOption
  else do
    values.forM o.value.check
    return ⟨given.entries ++ [(o.name, values)]⟩

/-- Settle the option that is pending. -/
def settle (s : OptionScan) : Except UsageNotice GivenOptions :=
  match s.pending with
  | none => .ok s.settled
  | some (o, values) => record s.settled o values

/-- Take an option whose values are complete. -/
def take (s : OptionScan) (o : OptionRule) (values : List String) :
    Except UsageNotice OptionScan := do
  return ⟨← record (← s.settle) o values, none⟩

/-- Begin an option whose values follow. -/
def begin (s : OptionScan) (o : OptionRule) : Except UsageNotice OptionScan := do
  return ⟨← s.settle, some (o, [])⟩

/-- Answer with a notice, once what is pending has been found in order. -/
def reply (s : OptionScan) (n : UsageNotice) : Except UsageNotice OptionScan := do
  let _ ← s.settle
  throw n

/-- Take an argument that is no option: a value of the pending one, if there is room for it. -/
def takeValue (s : OptionScan) (value : String) : Except UsageNotice OptionScan :=
  match s.pending with
  | some (o, values) =>
      if o.arity = .several ∨ values = [] then
        .ok { s with pending := some (o, values ++ [value]) }
      else .error .unknownArgument
  | none => .error .unknownArgument

/-- Take a name behind two dashes, and what follows it behind an equals sign. -/
def takeName (t : OptionTable) (s : OptionScan) (name : String) (attached : Option String) :
    Except UsageNotice OptionScan :=
  match t.answers.find? fun a => a.1 = name with
  | some (_, _, notice) =>
      if attached.isSome then .error .unexpectedValue else s.reply notice
  | none =>
      match t.options.find? fun o => o.name = name with
      | none => .error .unknownArgument
      | some o =>
          match o.arity, attached with
          | .flag, some _ => .error .unexpectedValue
          | .flag, none => s.take o []
          | _, some value => s.take o [value]
          | _, none => s.begin o

/-- The value behind the letter of an option, perhaps behind an equals sign. -/
def attachedValue : List Char → Option String
  | [] => none
  | '=' :: value => some (String.ofList value)
  | value => some (String.ofList value)

/-- Take letters behind one dash. What follows the letter of an option with values is its value. -/
def takeLetters (t : OptionTable) (s : OptionScan) : List Char → Except UsageNotice OptionScan
  | [] => .ok s
  | c :: rest =>
      match t.answers.find? fun a => a.2.1 = c with
      | some (_, _, notice) => s.reply notice
      | none =>
          match t.options.find? fun o => o.letter = some c with
          | none => .error .unknownArgument
          | some o =>
              match o.arity, attachedValue rest with
              | .flag, _ => do takeLetters t (← s.take o []) rest
              | _, some value => s.take o [value]
              | _, none => s.begin o

/-- Take an argument. A single dash is a value. -/
def takeArgument (t : OptionTable) (s : OptionScan) (argument : String) :
    Except UsageNotice OptionScan :=
  match argument.toList with
  | '-' :: '-' :: rest =>
      let name := rest.takeWhile (· ≠ '=')
      let attached := match rest.drop name.length with
        | '=' :: value => some (String.ofList value)
        | _ => none
      takeName t s (String.ofList name) attached
  | '-' :: c :: rest => takeLetters t s (c :: rest)
  | _ => s.takeValue argument

/-- Read arguments to the end. Nothing may follow two dashes that stand alone. -/
def readAll (t : OptionTable) (s : OptionScan) : List String → Except UsageNotice GivenOptions
  | [] => s.settle
  | argument :: rest =>
      if argument = "--" then
        if rest = [] then s.settle else .error .unknownArgument
      else do readAll t (← takeArgument t s argument) rest

end OptionScan

/-- The options in some arguments. -/
def OptionTable.read (t : OptionTable) (arguments : List String) :
    Except UsageNotice GivenOptions :=
  OptionScan.readAll t .start arguments

end ManifestSchema
