import ManifestSchema.Dict

/-!
# JSON values

A value keeps what a printed document shows: the order of the members of an object, and whether a
number was an integer of at most 64 bits or a binary64 value. An object is a list of members, so a
value straight from a text may still repeat a key; `Json.collapse` settles that.

Results:

1. equality of values is decidable;
2. after `collapse` no object at any depth repeats a key, and a value without repeated keys is left
   as it is.
-/

namespace ManifestSchema

/-- A number: an integer in the signed or unsigned 64-bit range, or a binary64 value. -/
inductive Number
  | int (value : Int)
  | float (value : Float)
deriving DecidableEq

/-- A JSON value whose objects keep the order of their members. -/
inductive Json
  | null
  | bool (value : Bool)
  | num (value : Number)
  | str (value : String)
  | arr (elements : List Json)
  | obj (members : List (String × Json))
deriving Inhabited

namespace Json

/-! ## Equality -/

mutual

/-- Decide whether two values are equal. -/
def decideEq : (a b : Json) → Decidable (a = b)
  | .null, .null => isTrue rfl
  | .bool a, .bool b => decidable_of_iff (a = b) (by simp)
  | .num a, .num b => decidable_of_iff (a = b) (by simp)
  | .str a, .str b => decidable_of_iff (a = b) (by simp)
  | .arr a, .arr b =>
      match decideEqElements a b with
      | isTrue h => isTrue (by rw [h])
      | isFalse h => isFalse (by simpa using h)
  | .obj a, .obj b =>
      match decideEqMembers a b with
      | isTrue h => isTrue (by rw [h])
      | isFalse h => isFalse (by simpa using h)
  | .null, .bool _ | .null, .num _ | .null, .str _ | .null, .arr _ | .null, .obj _
  | .bool _, .null | .bool _, .num _ | .bool _, .str _ | .bool _, .arr _ | .bool _, .obj _
  | .num _, .null | .num _, .bool _ | .num _, .str _ | .num _, .arr _ | .num _, .obj _
  | .str _, .null | .str _, .bool _ | .str _, .num _ | .str _, .arr _ | .str _, .obj _
  | .arr _, .null | .arr _, .bool _ | .arr _, .num _ | .arr _, .str _ | .arr _, .obj _
  | .obj _, .null | .obj _, .bool _ | .obj _, .num _ | .obj _, .str _ | .obj _, .arr _ =>
      isFalse (by simp)

/-- Decide whether two lists of values are equal. -/
def decideEqElements : (a b : List Json) → Decidable (a = b)
  | [], [] => isTrue rfl
  | [], _ :: _ => isFalse (by simp)
  | _ :: _, [] => isFalse (by simp)
  | x :: xs, y :: ys =>
      match decideEq x y, decideEqElements xs ys with
      | isTrue h, isTrue hs => isTrue (by rw [h, hs])
      | isFalse h, _ => isFalse (by simp [h])
      | _, isFalse hs => isFalse (by simp [hs])

/-- Decide whether two lists of members are equal. -/
def decideEqMembers : (a b : List (String × Json)) → Decidable (a = b)
  | [], [] => isTrue rfl
  | [], _ :: _ => isFalse (by simp)
  | _ :: _, [] => isFalse (by simp)
  | (k, x) :: xs, (l, y) :: ys =>
      match decEq k l, decideEq x y, decideEqMembers xs ys with
      | isTrue hk, isTrue h, isTrue hs => isTrue (by rw [hk, h, hs])
      | isFalse hk, _, _ => isFalse (by simp [hk])
      | _, isFalse h, _ => isFalse (by simp [h])
      | _, _, isFalse hs => isFalse (by simp [hs])

end

instance : DecidableEq Json := decideEq

/-! ## Parts -/

/-- The members of an object. -/
def members? : Json → Option (Dict Json)
  | .obj members => some members
  | _ => none

/-- The elements of an array. -/
def elements? : Json → Option (List Json)
  | .arr elements => some elements
  | _ => none

/-- The text of a string. -/
def text? : Json → Option String
  | .str text => some text
  | _ => none

/-- The value under a key of an object. -/
def get? (value : Json) (key : String) : Option Json := value.members?.bind (·.find? key)

/-- An array of strings. -/
def strings (texts : List String) : Json := .arr (texts.map .str)

/-- A non-negative integer. -/
def nat (n : Nat) : Json := .num (.int n)

/-! ## Repeated keys -/

mutual

/-- Settle repeated keys at every depth: a repeated key keeps its place and takes its last value. -/
def collapse : Json → Json
  | .arr elements => .arr (collapseElements elements)
  | .obj members => .obj (Dict.ofList (collapseMembers members))
  | .null => .null
  | .bool b => .bool b
  | .num n => .num n
  | .str s => .str s

/-- Settle repeated keys inside each element. -/
def collapseElements : List Json → List Json
  | [] => []
  | v :: rest => collapse v :: collapseElements rest

/-- Settle repeated keys inside the value of each member. -/
def collapseMembers : List (String × Json) → List (String × Json)
  | [] => []
  | (k, v) :: rest => (k, collapse v) :: collapseMembers rest

end

mutual

/-- No object at any depth repeats a key. -/
def Settled : Json → Prop
  | .arr elements => SettledElements elements
  | .obj members => Dict.Distinct members ∧ SettledMembers members
  | _ => True

/-- No object inside the elements repeats a key. -/
def SettledElements : List Json → Prop
  | [] => True
  | v :: rest => Settled v ∧ SettledElements rest

/-- No object inside the values of the members repeats a key. -/
def SettledMembers : List (String × Json) → Prop
  | [] => True
  | (_, v) :: rest => Settled v ∧ SettledMembers rest

end

theorem SettledMembers.insert {d : Dict Json} (h : SettledMembers d) (key : String) {v : Json}
    (hv : Settled v) : SettledMembers (Dict.insert d key v) := by
  induction d with
  | nil => exact ⟨hv, trivial⟩
  | cons p rest ih =>
      obtain ⟨k, w⟩ := p
      rw [Dict.insert]
      split
      · exact ⟨hv, h.2⟩
      · exact ⟨h.1, ih h.2⟩

theorem SettledMembers.insertAll {d : Dict Json} (h : SettledMembers d)
    {pairs : List (String × Json)} (hp : SettledMembers pairs) :
    SettledMembers (Dict.insertAll d pairs) := by
  induction pairs generalizing d with
  | nil => exact h
  | cons p rest ih =>
      obtain ⟨k, v⟩ := p
      exact ih (h.insert k hp.1) hp.2

mutual

theorem settled_collapse : (v : Json) → (collapse v).Settled
  | .null | .bool _ | .num _ | .str _ => trivial
  | .arr elements => settledElements_collapse elements
  | .obj members => by
      rw [collapse, Settled]
      have empty : SettledMembers [] := trivial
      exact ⟨Dict.distinct_ofList _, empty.insertAll (settledMembers_collapse members)⟩

theorem settledElements_collapse : (vs : List Json) → SettledElements (collapseElements vs)
  | [] => trivial
  | v :: rest => ⟨settled_collapse v, settledElements_collapse rest⟩

theorem settledMembers_collapse :
    (members : List (String × Json)) → SettledMembers (collapseMembers members)
  | [] => trivial
  | (_, v) :: rest => ⟨settled_collapse v, settledMembers_collapse rest⟩

end

mutual

theorem collapse_of_settled : (v : Json) → v.Settled → collapse v = v
  | .null, _ | .bool _, _ | .num _, _ | .str _, _ => rfl
  | .arr elements, h => by rw [collapse, collapseElements_of_settled elements h]
  | .obj members, h => by
      rw [Settled] at h
      rw [collapse, collapseMembers_of_settled members h.2, Dict.ofList_of_distinct h.1]

theorem collapseElements_of_settled :
    (vs : List Json) → SettledElements vs → collapseElements vs = vs
  | [], _ => rfl
  | v :: rest, h => by
      rw [collapseElements, collapse_of_settled v h.1, collapseElements_of_settled rest h.2]

theorem collapseMembers_of_settled :
    (members : List (String × Json)) → SettledMembers members → collapseMembers members = members
  | [], _ => rfl
  | (k, v) :: rest, h => by
      rw [collapseMembers, collapse_of_settled v h.1, collapseMembers_of_settled rest h.2]

end

end Json

end ManifestSchema
