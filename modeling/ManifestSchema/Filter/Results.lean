/-!
# Results of a filter

A filter gives results one after the other, and there may be no end to them, so the next one is
worked out only when it is asked for. A failure is the end: whatever reads results stops there.
-/

namespace ManifestSchema

namespace Filter

/-- Results one after the other, up to the end or to a failure. -/
inductive Results (α : Type)
  | done
  | failed
  | value (first : α) (rest : Unit → Results α)

namespace Results

variable {α β γ : Type}

/-- One result. -/
def one (x : α) : Results α := .value x fun _ => .done

/-- One result, or a failure. -/
def ofOption : Option α → Results α
  | some x => one x
  | none => .failed

/-- The elements of a list as results. -/
def ofList : List α → Results α
  | [] => .done
  | x :: rest => .value x fun _ => ofList rest

/-- Results, and further ones after them. -/
def append : Results α → (Unit → Results α) → Results α
  | .done, next => next ()
  | .failed, _ => .failed
  | .value x rest, next => .value x fun _ => append (rest ()) next

/-- Go on with each result. -/
def andThen (f : α → Results β) : Results α → Results β
  | .done => .done
  | .failed => .failed
  | .value x rest =>
      match f x with
      | .done => andThen f (rest ())
      | .failed => .failed
      | .value y more => .value y fun _ => append (more ()) fun _ => andThen f (rest ())

/-- Go on with each pair of a result and one of others, which are worked out again for each result.
A failure counts only where there is something to pair it with. -/
def pairedWith (others : Unit → Results β) (f : α → β → Results γ) : Results α → Results γ
  | .done => .done
  | .failed =>
      match others () with
      | .done => .done
      | _ => .failed
  | .value x rest =>
      match andThen (f x) (others ()) with
      | .done => pairedWith others f (rest ())
      | .failed => .failed
      | .value y more => .value y fun _ => append (more ()) fun _ => pairedWith others f (rest ())

/-- The results with a property. -/
def keep (p : α → Bool) : Results α → Results α
  | .done => .done
  | .failed => .failed
  | .value x rest => if p x then .value x fun _ => keep p (rest ()) else keep p (rest ())

/-- The results without the failure at their end. -/
def tolerant : Results α → Results α
  | .done | .failed => .done
  | .value x rest => .value x fun _ => tolerant (rest ())

/-- The first result alone. -/
def first : Results α → Results α
  | .value x _ => one x
  | .done => .done
  | .failed => .failed

/-- The results behind those read before, which are given from the last one. -/
def collect (read : List α) : Results α → Option (List α)
  | .done => some read.reverse
  | .failed => none
  | .value x rest => collect (x :: read) (rest ())

/-- All results, unless there is a failure at their end. -/
def toList? (results : Results α) : Option (List α) := collect [] results

end Results

end Filter

end ManifestSchema
