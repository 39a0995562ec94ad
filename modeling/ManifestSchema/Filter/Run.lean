import ManifestSchema.Filter.Basic
import ManifestSchema.Filter.Operation

/-!
# Running filters

A filter turns a value into results. An operator works on each pair of results of its two sides, the
left one outermost. What tells the steps of a path is worked out first, from the input of the whole
path: each choice of it is then followed on its own. A run succeeds when it has no failure.
-/

namespace ManifestSchema

namespace Filter

/-- An object of one member, unless the key is no text. -/
def memberOf (key value : Value) : Option Value :=
  match key with
  | .str name => some (.obj [(name, value)])
  | _ => none

mutual

/-- The results of a filter on a value; `env` holds the variables. -/
def results : Filter → (env : Dict Value) → Value → Results Value
  | .identity, _, v => .one v
  | .recurse, _, v => .ofList v.all
  | .constant c, _, _ => .one c
  | .variable name, env, _ => .ofOption (env.find? name)
  | .list body, env, v => .ofOption ((results body env v).toList?.map .arr)
  | .member key value, env, v =>
      (results key env v).pairedWith (fun _ => results value env v) fun k x =>
        .ofOption (memberOf k x)
  | .pipe a b, env, v => (results a env v).andThen fun x => results b env x
  | .bind a name b, env, v =>
      (results a env v).andThen fun x => results b (env.insert name x) v
  | .both a b, env, v => (results a env v).append fun _ => results b env v
  | .orElse a b, env, v =>
      match (results a env v).keep Value.holds with
      | .done => results b env v
      | found => found
  | .equal a b, env, v =>
      (results a env v).pairedWith (fun _ => results b env v) fun x y => .one (.bool (x.same y))
  | .different a b, env, v =>
      (results a env v).pairedWith (fun _ => results b env v) fun x y => .one (.bool (!x.same y))
  | .add a b, env, v =>
      (results a env v).pairedWith (fun _ => results b env v) fun x y => .ofOption (x.add y)
  | .subtract a b, env, v =>
      (results a env v).pairedWith (fun _ => results b env v) fun x y => .ofOption (x.subtract y)
  | .negate a, env, v => (results a env v).andThen fun x => .ofOption x.negate
  | .branch c a b, env, v => (results c env v).andThen fun x =>
      if x.holds then results a env v else results b env v
  | .path base steps, env, v => (results base env v).andThen fun x =>
      (choicesOfAll steps env v).andThen fun choice => Step.followAll choice x
  | .attempt a, env, v => (results a env v).tolerant
  | .nothing, _, _ => .done
  | .fail, _, _ => .failed
  | .failWith message, env, v =>
      match results message env v with
      | .done => .one v
      | _ => .failed
  | .first a, env, v => (results a env v).first
  | .length, _, v => .ofOption v.length
  | .keys, _, v => .ofOption v.keys
  | .reverse, _, v => .ofOption v.reverse
  | .has key, env, v => (results key env v).andThen fun k => .ofOption (v.has k)
  | .range a b c, env, v => (results a env v).andThen fun start =>
      (results b env v).andThen fun stop =>
        (results c env v).andThen fun step => Value.range start stop step

/-- The choices that a step leaves. -/
def choices : Step Filter → (env : Dict Value) → Value → Results (Step Value)
  | .index key optional, env, v => (results key env v).andThen fun k => .one (.index k optional)
  | .each optional, _, _ => .one (.each optional)
  | .sliceFrom start optional, env, v =>
      (results start env v).andThen fun i => .one (.sliceFrom i optional)
  | .sliceTo stop optional, env, v =>
      (results stop env v).andThen fun j => .one (.sliceTo j optional)
  | .slice start stop optional, env, v =>
      (results start env v).pairedWith (fun _ => results stop env v) fun i j =>
        .one (.slice i j optional)

/-- The choices that steps leave, those of the first step outermost. -/
def choicesOfAll : List (Step Filter) → (env : Dict Value) → Value → Results (List (Step Value))
  | [], _, _ => .one []
  | step :: rest, env, v =>
      (choices step env v).pairedWith (fun _ => choicesOfAll rest env v) fun s more =>
        .one (s :: more)

end

/-- The documents that a filter makes of a document. -/
def run (source : String) (input : Json) : Except FilterError (List Json) := do
  let filter ← ofText source
  match (filter.results [] (.ofJson input)).andThen (fun v => .ofOption v.toJson?) |>.toList? with
  | some outputs => return outputs
  | none => throw .failed

end Filter

end ManifestSchema
