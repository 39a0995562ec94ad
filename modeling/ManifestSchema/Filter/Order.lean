import ManifestSchema.Filter.Value

/-!
# The order of values

All values are ordered: null first, then booleans, numbers, texts, lists and objects. Numbers are
compared by value. Objects are compared by their names in order, then by the values in that order,
so the order in which an object was written does not count.
-/

namespace ManifestSchema

namespace Filter

namespace Quantity

/-- The order of floats. The two zeros are equal, and what is no number is below everything, even
below itself. -/
def orderFloats (x y : Float) : Ordering :=
  if x == 0 && y == 0 then .eq
  else if x.isNaN then .lt
  else if y.isNaN then .gt
  else if x < y then .lt
  else if y < x then .gt
  else .eq

/-- The order of numbers by value. -/
def order : Quantity → Quantity → Ordering
  | .int a, .int b => compare a b
  | a, b => orderFloats a.toFloat b.toFloat

end Quantity

namespace Value

/-- The place of a kind of values among the kinds. -/
def kindRank : Value → Nat
  | .null => 0
  | .bool _ => 1
  | .num _ => 2
  | .str _ => 3
  | .arr _ => 4
  | .obj _ => 5

/-- The order of the names of two objects: by the first names that differ, a shorter list first. -/
def orderNames : List (String × Value) → List (String × Value) → Ordering
  | [], [] => .eq
  | [], _ :: _ => .lt
  | _ :: _, [] => .gt
  | (k, _) :: as, (l, _) :: bs => (compare k l).then (orderNames as bs)

mutual

/-- A value with the members of all objects in the order of their names. -/
def sorted : Value → Value
  | .null => .null
  | .bool b => .bool b
  | .num n => .num n
  | .str s => .str s
  | .arr elements => .arr (sortedElements elements)
  | .obj members => .obj ((sortedMembers members).mergeSort fun a b => decide (a.1 ≤ b.1))

/-- Elements with the members of all objects in the order of their names. -/
def sortedElements : List Value → List Value
  | [] => []
  | v :: rest => sorted v :: sortedElements rest

/-- Members, in the order given, with sorted values. -/
def sortedMembers : List (String × Value) → List (String × Value)
  | [] => []
  | (k, v) :: rest => (k, sorted v) :: sortedMembers rest

end

mutual

/-- The order of sorted values. -/
def orderSorted : Value → Value → Ordering
  | .null, .null => .eq
  | .bool a, .bool b => compare a b
  | .num a, .num b => a.order b
  | .str a, .str b => compare a b
  | .arr a, .arr b => orderElements a b
  | .obj a, .obj b => (orderNames a b).then (orderMembers a b)
  | a, b => compare a.kindRank b.kindRank

/-- The order of lists: by the first elements that differ, a shorter list first. -/
def orderElements : List Value → List Value → Ordering
  | [], [] => .eq
  | [], _ :: _ => .lt
  | _ :: _, [] => .gt
  | x :: xs, y :: ys => (orderSorted x y).then (orderElements xs ys)

/-- The order of the values of two objects with the same names. -/
def orderMembers : List (String × Value) → List (String × Value) → Ordering
  | [], [] => .eq
  | [], _ :: _ => .lt
  | _ :: _, [] => .gt
  | (_, v) :: as, (_, w) :: bs => (orderSorted v w).then (orderMembers as bs)

end

/-- The order of values. -/
def order (a b : Value) : Ordering := orderSorted a.sorted b.sorted

/-- Whether two values are the same. -/
def same (a b : Value) : Bool := order a b == .eq

end Value

end Filter

end ManifestSchema
