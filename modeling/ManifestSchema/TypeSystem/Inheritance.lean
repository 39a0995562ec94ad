import ManifestSchema.TypeSystem

/-!
# Inheritance

Which classes descend from which, and the properties that a type ends up with: its own first, then
those of its ancestors, where among the types that it extends a later one wins over an earlier one.
Ancestors that are not declared, and those that close a cycle, are noted on the way.
-/

namespace ManifestSchema

/-- The properties of a type with all inherited ones, and what was wrong with its ancestors. -/
structure Flattened where
  properties : Dict Property
  unresolved : List String
  cycles : List String

/-- What has been met on a walk through the ancestors of a type. -/
structure Walk where
  seen : List String
  unresolved : List String
  cycles : List String

/-- The properties of the instances themselves under their names; of two with one name the later one
wins where the earlier one stands. -/
def Definition.ownProperties (d : Definition) : Dict Property :=
  Dict.ofList ((d.properties.filter fun p => !p.isStatic).map fun p => (p.name, p))

/-- Add inherited properties behind one's own. A property of one's own hides an inherited one. -/
def Dict.inherit (own inherited : Dict Property) : Dict Property :=
  inherited.foldl (fun acc p => acc.insertNew p.1 p.2) own

namespace TypeSystem

/-- Whether a class or one of its bases has the name `base`. The walk ends where a class comes up
again; the number of steps bounds it. -/
def extendsWithin (ts : TypeSystem) (base : String) : (steps : Nat) → (seen : List String) →
    ClassType → Bool
  | 0, _, _ => false
  | steps + 1, seen, c =>
      if c.fqn = base then true
      else if c.fqn ∈ seen then false
      else
        match c.base.bind ts.findClass? with
        | none => false
        | some parent => extendsWithin ts base steps (c.fqn :: seen) parent

/-- Whether a class or one of its bases has the name `base`. -/
def classExtends (ts : TypeSystem) (c : ClassType) (base : String) : Bool :=
  ts.extendsWithin base (ts.size + 2) [] c

/-- Go through the parents of a type in order with `visit` and gather what they pass on. A parent on
the current path closes a cycle, one met before on another path adds nothing. -/
def walkParents (ts : TypeSystem) (visit : Definition → Walk → Dict Property × Walk)
    (path : List String) : (parents : List String) → (inherited : Dict Property) → Walk →
    Dict Property × Walk
  | [], inherited, w => (inherited, w)
  | parent :: rest, inherited, w =>
      if parent ∈ path then
        ts.walkParents visit path rest inherited { w with cycles := w.cycles ++ [parent] }
      else if parent ∈ w.seen then ts.walkParents visit path rest inherited w
      else
        match ts.find? parent with
        | none =>
            ts.walkParents visit path rest inherited
              { w with unresolved := w.unresolved ++ [parent] }
        | some definition =>
            let (passed, w) := visit definition w
            ts.walkParents visit path rest (inherited.insertAll passed) w

/-- The properties of a type that is reached on a path, within a number of steps. -/
def flattenWithin (ts : TypeSystem) : (steps : Nat) → (path : List String) → Definition → Walk →
    Dict Property × Walk
  | 0, _, _, w => ([], w)
  | steps + 1, path, d, w =>
      if d.isObject then
        let path := d.fqn :: path
        let (inherited, w) := ts.walkParents (ts.flattenWithin steps path) path d.parents []
          { w with seen := d.fqn :: w.seen }
        (d.ownProperties.inherit inherited, w)
      else ([], w)

/-- A number of steps that no walk exceeds: each name is met on a path at most once for every name
that has been seen before. -/
def walkBound (ts : TypeSystem) : Nat := (ts.size + 1) * (ts.size + 2)

/-- The properties of a type with all inherited ones. -/
def flatten (ts : TypeSystem) (d : Definition) : Flattened :=
  let (properties, w) := ts.flattenWithin ts.walkBound [] d ⟨[], [], []⟩
  ⟨properties, w.unresolved, w.cycles⟩

end TypeSystem

end ManifestSchema
