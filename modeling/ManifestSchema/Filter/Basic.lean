import ManifestSchema.Filter.Term
import ManifestSchema.Filter.Value

/-!
# Filters

A filter is a term whose names are resolved, so an unknown name is found whether or not it would
ever be reached.
-/

namespace ManifestSchema

/-- Why a filter gives no documents. -/
inductive FilterError
  | syntaxError
  | undefined
  | failed
deriving DecidableEq, Repr

/-- A filter whose names are resolved. -/
inductive Filter
  | identity
  | recurse
  | constant (value : Filter.Value)
  | variable (name : String)
  | list (body : Filter)
  | member (key value : Filter)
  | pipe (first second : Filter)
  | bind (first : Filter) (name : String) (body : Filter)
  | both (first second : Filter)
  | orElse (first second : Filter)
  | equal (first second : Filter)
  | different (first second : Filter)
  | add (first second : Filter)
  | subtract (first second : Filter)
  | negate (body : Filter)
  | branch (condition yes no : Filter)
  | path (base : Filter) (steps : List (Filter.Step Filter))
  | attempt (body : Filter)
  | nothing
  | fail
  | failWith (message : Filter)
  | first (body : Filter)
  | length
  | keys
  | reverse
  | has (key : Filter)
  | range (start stop step : Filter)

namespace Filter

/-- The filter of a name and its arguments. -/
def named? : (name : String) → (arguments : List Filter) → Option Filter
  | "null", [] => some (.constant .null)
  | "true", [] => some (.constant (.bool true))
  | "false", [] => some (.constant (.bool false))
  | "empty", [] => some .nothing
  | "error", [] => some .fail
  | "error", [f] => some (.failWith f)
  | "not", [] => some (.branch .identity (.constant (.bool false)) (.constant (.bool true)))
  | "select", [f] => some (.branch f .identity .nothing)
  | "map", [f] => some (.list (.pipe (.path .identity [.each false]) f))
  | "length", [] => some .length
  | "keys", [] => some .keys
  | "reverse", [] => some .reverse
  | "first", [] => some (.path .identity [.index (.constant (.int 0)) false])
  | "first", [f] => some (.first f)
  | "has", [f] => some (.has f)
  | "range", [stop] => some (.range (.constant (.int 0)) stop (.constant (.int 1)))
  | "range", [start, stop] => some (.range start stop (.constant (.int 1)))
  | "range", [start, stop, step] => some (.range start stop step)
  | _, _ => none

mutual

/-- Resolve the names of a term; `bound` are the variables in scope. -/
def ofTerm? (bound : List String) : Term → Option Filter
  | .identity => some .identity
  | .recurse => some .recurse
  | .number text => some (.constant (.num (.ofText text)))
  | .text content => some (.constant (.str content))
  | .variable name => if bound.contains name then some (.variable name) else none
  | .emptyList => some (.constant (.arr []))
  | .list body => do return .list (← ofTerm? bound body)
  | .emptyObject => some (.constant (.obj []))
  | .member key value => do return .member (← ofTerm? bound key) (← ofTerm? bound value)
  | .call name arguments => do named? name (← ofTerms? bound arguments)
  | .pipe a b => do return .pipe (← ofTerm? bound a) (← ofTerm? bound b)
  | .bind a name b => do return .bind (← ofTerm? bound a) name (← ofTerm? (name :: bound) b)
  | .both a b => do return .both (← ofTerm? bound a) (← ofTerm? bound b)
  | .orElse a b => do return .orElse (← ofTerm? bound a) (← ofTerm? bound b)
  | .equal a b => do return .equal (← ofTerm? bound a) (← ofTerm? bound b)
  | .different a b => do return .different (← ofTerm? bound a) (← ofTerm? bound b)
  | .add a b => do return .add (← ofTerm? bound a) (← ofTerm? bound b)
  | .subtract a b => do return .subtract (← ofTerm? bound a) (← ofTerm? bound b)
  | .negate a => do return .negate (← ofTerm? bound a)
  | .branch c a b => do
      return .branch (← ofTerm? bound c) (← ofTerm? bound a) (← ofTerm? bound b)
  | .path a steps => do return .path (← ofTerm? bound a) (← ofSteps? bound steps)
  | .attempt a => do return .attempt (← ofTerm? bound a)

/-- Resolve the names of terms. -/
def ofTerms? (bound : List String) : List Term → Option (List Filter)
  | [] => some []
  | t :: rest => do
      let first ← ofTerm? bound t
      let others ← ofTerms? bound rest
      return first :: others

/-- Resolve the names of a step. -/
def ofStep? (bound : List String) : Step Term → Option (Step Filter)
  | .index key optional => do return .index (← ofTerm? bound key) optional
  | .each optional => some (.each optional)
  | .sliceFrom start optional => do return .sliceFrom (← ofTerm? bound start) optional
  | .sliceTo stop optional => do return .sliceTo (← ofTerm? bound stop) optional
  | .slice start stop optional => do
      return .slice (← ofTerm? bound start) (← ofTerm? bound stop) optional

/-- Resolve the names of steps. -/
def ofSteps? (bound : List String) : List (Step Term) → Option (List (Step Filter))
  | [] => some []
  | s :: rest => do
      let first ← ofStep? bound s
      let others ← ofSteps? bound rest
      return first :: others

end

/-- The filter that a text is. -/
def ofText (source : String) : Except FilterError Filter :=
  match Term.ofText? source with
  | none => .error .syntaxError
  | some term =>
      match ofTerm? [] term with
      | none => .error .undefined
      | some filter => .ok filter

end Filter

end ManifestSchema
