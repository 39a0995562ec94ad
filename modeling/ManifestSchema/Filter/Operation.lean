import ManifestSchema.Filter.Order
import ManifestSchema.Filter.Results
import ManifestSchema.Filter.Term

/-!
# Operations on values

What the operators and functions of filters do with values. An operation that does not suit its
values fails.
-/

namespace ManifestSchema

namespace Filter

namespace Value

/-- The sum of two values: null adds nothing, texts and lists are joined, and of two members with
one key the second one counts. -/
def add : Value → Value → Option Value
  | .null, v => some v
  | v, .null => some v
  | .num a, .num b => some (.num (a.add b))
  | .str a, .str b => some (.str (a ++ b))
  | .arr a, .arr b => some (.arr (a ++ b))
  | .obj a, .obj b => some (.obj (Dict.insertAll a b))
  | _, _ => none

/-- What is left of a value without another one: of a list the elements that are none of the other
list's. -/
def subtract : Value → Value → Option Value
  | .num a, .num b => some (.num (a.subtract b))
  | .arr a, .arr b => some (.arr (a.filter fun x => !b.any x.same))
  | _, _ => none

/-- The negative of a number. -/
def negate : Value → Option Value
  | .num n => some (.num n.negate)
  | _ => none

/-- The position of an index; a negative one counts from the end. -/
def position? (index : Int) (length : Nat) : Option Nat :=
  if 0 ≤ index then (if index < length then some index.toNat else none)
  else if (length : Int) < -index then none
  else some ((length : Int) + index).toNat

/-- The part of a value at a key. -/
def get : Value → Value → Option Value
  | .arr elements, .num (.int i) =>
      some (((position? i elements.length).bind (elements[·]?)).getD .null)
  | .obj members, .str key => some ((Dict.find? members key).getD .null)
  | _, _ => none

/-- The parts of a value in order. -/
def parts : Value → Option (List Value)
  | .arr elements => some elements
  | .obj members => some (members.map Prod.snd)
  | _ => none

/-- The integer that a value is. -/
def int? : Value → Option Int
  | .num (.int n) => some n
  | _ => none

/-- A bound of a slice within a length; a negative one counts from the end. -/
def bound (length : Nat) (i : Int) : Nat :=
  if 0 ≤ i then min i.toNat length else ((length : Int) + i).toNat

/-- The elements of a list from a start up to a stop. -/
def between {α : Type} (xs : List α) (start stop : Option Int) : List α :=
  let first := (start.map (bound xs.length)).getD 0
  let past := (stop.map (bound xs.length)).getD xs.length
  (xs.drop first).take (past - first)

/-- The slice of a list or text from a start up to a stop. -/
def cut (start stop : Option Int) : Value → Option Value
  | .arr elements => some (.arr (between elements start stop))
  | .str s => some (.str (String.ofList (between s.toList start stop)))
  | _ => none

/-- The size of a value: of a number the distance from zero. -/
def length : Value → Option Value
  | .null => some (.int 0)
  | .bool _ => none
  | .num n => some (.num n.magnitude)
  | .str s => some (.int s.length)
  | .arr elements => some (.int elements.length)
  | .obj members => some (.int members.length)

/-- The keys of a value: the positions of a list, the sorted names of an object. -/
def keys : Value → Option Value
  | .arr elements => some (.arr ((List.range elements.length).map fun (i : Nat) => .int i))
  | .obj members =>
      some (.arr ((members.map Prod.fst).mergeSort (fun a b => decide (a ≤ b)) |>.map .str))
  | _ => none

/-- A list from its end. -/
def reverse : Value → Option Value
  | .arr elements => some (.arr elements.reverse)
  | _ => none

/-- Whether a value has a part at a key. -/
def has : Value → Value → Option Value
  | .arr elements, .num (.int i) =>
      if 0 ≤ i then some (.bool (i < elements.length)) else none
  | .obj members, .str key => some (.bool (Dict.contains members key))
  | _, _ => none

/-! ## Ranges -/

/-- Whether a range goes on at a value: below its stop with a step up, above it with a step down,
and anywhere else with a step of zero. -/
def inRange (stop step x : Value) : Bool :=
  match order step (.int 0) with
  | .gt => order x stop == .lt
  | .lt => order x stop == .gt
  | .eq => order x stop != .eq

/-- The values from a start in equal steps while they lie in the range, `most` at the most. -/
def stepping (stop step : Value) : (most : Nat) → (start : Value) → Results Value
  | 0, _ => .done
  | most + 1, x =>
      if inRange stop step x then
        .value x fun _ =>
          match add x step with
          | some y => stepping stop step most y
          | none => .failed
      else .done

/-- The values from a start up to a stop, without it. A range without end counts as one of so many
values that nobody reads them all. -/
def range (start stop step : Value) : Results Value := stepping stop step Word.limit start

end Value

/-! ## Steps -/

namespace Step

/-- One result; a failure is none where the step is optional. -/
def reached (optional : Bool) : Option Value → Results Value
  | some v => .one v
  | none => if optional then .done else .failed

/-- The parts of a value that a step leads to. -/
def follow : Step Value → Value → Results Value
  | .index key optional, v => reached optional (v.get key)
  | .each optional, v =>
      match v.parts with
      | some parts => .ofList parts
      | none => reached optional none
  | .sliceFrom start optional, v =>
      reached optional (start.int?.bind fun i => v.cut (some i) none)
  | .sliceTo stop optional, v => reached optional (stop.int?.bind fun j => v.cut none (some j))
  | .slice start stop optional, v =>
      reached optional (start.int?.bind fun i => stop.int?.bind fun j => v.cut (some i) (some j))

/-- The parts of a value that steps lead to, one after the other. -/
def followAll : List (Step Value) → Value → Results Value
  | [], v => .one v
  | step :: rest, v => (step.follow v).andThen (followAll rest)

end Step

end Filter

end ManifestSchema
