import ManifestSchema.Settings.Layer

/-!
# Settings in the environment

A variable whose name starts with `DECL_SCHEMA__` sets the key in the rest of its name, where two
underscores stand for a point. Of variables that set the same key the last one counts. The text is
taken for a boolean, an integer or a float if it is one, else split at commas where the key holds a
list, else kept.
-/

namespace ManifestSchema

namespace Environment

/-- How the names of variables start, in lower case. -/
def namePrefix : List Char := "decl_schema__".toList

/-- The layer of all variables, as messages call it. -/
def origin : String := "the environment"

/-- The keys that hold lists. -/
def listKeys : List String := ["roots.skip_prefixes", "diagnostics.suppress"]

/-- A sign and what follows it. -/
def readSign : List Char → Bool × List Char
  | '-' :: rest => (true, rest)
  | '+' :: rest => (false, rest)
  | rest => (false, rest)

/-- The integer that a text is, if it fits 64 bits with sign. -/
def integer? (text : String) : Option Int :=
  let (negative, digits) := readSign text.toList
  let n : Int := Decimal.ofDigits digits
  let n := if negative then -n else n
  if !digits.isEmpty && digits.all Char.isDigit && Word.fitsSigned n then some n else none

/-- An exponent: its mark, perhaps a sign, and digits up to the end. Without a mark it is zero. -/
def exponent? : List Char → Option Int
  | [] => some 0
  | e :: rest =>
      if e = 'e' ∨ e = 'E' then
        let (negative, digits) := readSign rest
        let n : Int := Decimal.ofDigits digits
        if digits.isEmpty || !digits.all Char.isDigit then none
        else some (if negative then -n else n)
      else none

/-- The magnitude that a text without sign shows. -/
def magnitude? (cs : List Char) : Option Float :=
  match String.ofList (cs.map Char.toLower) with
  | "inf" | "infinity" => some (Float.ofScientific 1 false 400)
  | "nan" => some (0.0 / 0.0)
  | _ =>
      let whole := cs.takeWhile Char.isDigit
      let rest := cs.drop whole.length
      let places := match rest with
        | '.' :: behind => behind.takeWhile Char.isDigit
        | _ => []
      let behind := match rest with
        | '.' :: _ => rest.drop (places.length + 1)
        | _ => rest
      if whole.isEmpty && places.isEmpty then none
      else (exponent? behind).map fun e => (Decimal.ofParts whole places e).toFloat

/-- The float that a text is. -/
def float? (text : String) : Option Float :=
  let (negative, body) := readSign text.toList
  (magnitude? body).map fun x => if negative then -x else x

/-- The value of a variable that sets a key. -/
def valueOf (key text : String) : Configured :=
  match Text.lower text with
  | "true" => .scalar (.flag true) origin
  | "false" => .scalar (.flag false) origin
  | _ =>
      match integer? text with
      | some n => .scalar (.integer n) origin
      | none =>
          match float? text with
          | some x => .scalar (.float x) origin
          | none =>
              if listKeys.contains key then
                .list ((text.splitOn ",").map fun s => .scalar (.text s) origin) origin
              else .scalar (.text text) origin

/-- The key and value that a variable sets, if it sets one. -/
def setting? (entry : String × String) : Option (String × Configured) :=
  let name := (Text.lower entry.1).toList
  if namePrefix.isPrefixOf name then
    let key := ".".intercalate ((String.ofList (name.drop namePrefix.length)).splitOn "__")
    some (key, valueOf key entry.2)
  else none

/-- The layer of some variables. -/
def layer (entries : List (String × String)) : List (String × Configured) :=
  Dict.ofList (entries.filterMap setting?)

end Environment

end ManifestSchema
