import Shapewright.Query.Operations
import Shapewright.Query.Engine
import Shapewright.Query.Parser

/-!
# Running filters

A filter has any number of outcomes on a datum, each an output or a mishap, in
order. Where a form has several parts with several outputs each, those of the
first part vary slowest. An operator with two operands, and a way with several
keys and bounds, combines the outcomes of its parts whatever they are, so that a
part without outcomes leaves none at all; everything else goes on with outputs
only.

Every step has an origin of its own: the first part of a form runs on branch 0
of the origin of the form, and what is run for the n-th outcome of that part, n
counted from 0, on branch n + 1. A part is run anew for every outcome of the part
before it, since what it makes is not the same.

Main definitions:

* `Outcomes.andThen`, `Outcomes.combine` — the two ways to go on.
* `Step`, `Way.routes` — the accesses of a way with their keys and bounds known.
* `Filter.outcomes` — the outcomes of a filter on a datum.
* `Query.core` — the engine that runs these filters.
* `Query.run`, `Query.single` — what it answers.
-/

namespace Shapewright.Query

open Json (Value)

/-! ## Outcomes -/

/-- Outputs and mishaps in order. -/
abbrev Outcomes (α : Type) := List (Except Mishap α)

namespace Outcomes

variable {α β γ : Type}

/-- Go on with every output, at its branch of an origin. -/
def andThen (o : Origin) (xs : Outcomes α) (next : Origin → α → Outcomes β) : Outcomes β :=
  xs.zipIdx.flatMap fun
    | (.ok v, n) => next (o.branch (n + 1)) v
    | (.error m, _) => [.error m]

/-- Combine every outcome with every one that there is at its branch of an
origin. Of two mishaps the first one counts. -/
def combine (o : Origin) (f : α → β → γ) (xs : Outcomes α) (ys : Origin → Outcomes β) :
    Outcomes γ :=
  xs.zipIdx.flatMap fun (x, n) => (ys (o.branch (n + 1))).map fun y => do pure (f (← x) (← y))

/-- The outputs alone. -/
def outputs (xs : Outcomes α) : Outcomes α :=
  xs.filter fun
    | .ok _ => true
    | .error _ => false

/-- The outputs in front of the first mishap. -/
def untilMishap (xs : Outcomes α) : Outcomes α :=
  xs.takeWhile fun
    | .ok _ => true
    | .error _ => false

/-- All outputs, unless there is a mishap. -/
def all : Outcomes α → Except Mishap (List α)
  | [] => .ok []
  | .ok v :: rest => (all rest).map (v :: ·)
  | .error m :: _ => .error m

end Outcomes

/-! ## Accesses -/

/-- An access whose key or bounds are known. -/
inductive Step where
  | key (key : Datum)
  | all
  | segment (lower upper : Option Datum)
  deriving Repr, Inhabited

/-- The parts of a datum that an access is to. -/
def Step.outcomes : Step → Origin → Datum → Outcomes Datum
  | .key k, _, v => [part v k]
  | .all, _, v =>
    match parts v with
    | .ok vs => vs.map .ok
    | .error m => [.error m]
  | .segment lower upper, o, v => [Query.segment o v lower upper]

/-- A step, and whether it is optional. -/
abbrev Route := List (Step × Bool)

/-- The parts that steps lead to. -/
def Route.outcomes : Route → Origin → Datum → Outcomes Datum
  | [], _, v => [.ok v]
  | (step, optional) :: rest, o, v =>
    let found := step.outcomes (o.branch 0) v
    (if optional then found.outputs else found).andThen o (Route.outcomes rest)

/-! ## Filters -/

mutual

/-- The outcomes of a filter on a datum. -/
def Filter.outcomes : Filter → Origin → Datum → Outcomes Datum
  | .identity, _, v => [.ok v]
  | .recurse, _, v => (deep v).map .ok
  | .literal c, _, _ => [.ok c]
  | .nothing, _, _ => []
  | .access base way, o, v =>
    (base.outcomes (o.branch 0) v).andThen o fun o whole =>
      (way.routes (o.branch 0) v).andThen o fun o route => Route.outcomes route o whole
  | .attempt body, o, v => (body.outcomes o v).untilMishap
  | .negate body, o, v => (body.outcomes (o.branch 0) v).andThen o fun _ x => [negative x]
  | .pipe first second, o, v => (first.outcomes (o.branch 0) v).andThen o second.outcomes
  | .both first second, o, v =>
    first.outcomes (o.branch 0) v ++ second.outcomes (o.branch 1) v
  | .orElse first second, o, v =>
    let kept := (first.outcomes (o.branch 0) v).filter fun
      | .ok x => x.isTruthy
      | .error _ => true
    if kept.isEmpty then second.outcomes (o.branch 1) v else kept
  | .arithmetic op left right, o, v =>
    (Outcomes.combine (o.branch 0) (·, ·) (left.outcomes ((o.branch 0).branch 0) v)
      (right.outcomes · v)).andThen o fun o (x, y) => [op.apply o x y]
  | .compare op left right, o, v =>
    Outcomes.combine o (fun x y => .boolean (op.holds x y)) (left.outcomes (o.branch 0) v)
      (right.outcomes · v)
  | .conj left right, o, v =>
    (left.outcomes (o.branch 0) v).andThen o fun o x =>
      if x.isTruthy then
        (right.outcomes (o.branch 0) v).andThen o fun _ y => [.ok (.boolean y.isTruthy)]
      else [.ok (.boolean false)]
  | .disj left right, o, v =>
    (left.outcomes (o.branch 0) v).andThen o fun o x =>
      if x.isTruthy then [.ok (.boolean true)]
      else (right.outcomes (o.branch 0) v).andThen o fun _ y => [.ok (.boolean y.isTruthy)]
  | .collect body, o, v => [(body.outcomes (o.branch 0) v).all.map (.array (some o))]
  | .member key value, o, v =>
    (Outcomes.combine (o.branch 0) (·, ·) (key.outcomes ((o.branch 0).branch 0) v)
      (value.outcomes · v)).andThen o fun
      | o, (.string name, x) => [.ok (.object (some o) [(name, x)])]
      | _, _ => [.error .badKey]
  | .conditional test yes no, o, v =>
    (test.outcomes (o.branch 0) v).andThen o fun o x =>
      if x.isTruthy then yes.outcomes o v else no.outcomes o v
  | .builtin f, o, v => [f.apply o v]
  | .has key, o, v =>
    (key.outcomes (o.branch 0) v).andThen o fun _ k => [(hasPart v k).map .boolean]
  | .firstOf body, o, v => (body.outcomes o v).take 1
  -- a filter with unknown functions is not run
  | .unknown _, _, _ => []

/-- The steps of a way: all combinations of what its keys and bounds yield. -/
def Way.routes : Way → Origin → Datum → Outcomes Route
  | .here, _, _ => [.ok []]
  | .through access optional rest, o, v =>
    Outcomes.combine o (fun step route => (step, optional) :: route)
      (access.steps (o.branch 0) v) (rest.routes · v)

def Access.steps : Access → Origin → Datum → Outcomes Step
  | .key key, o, v => (key.outcomes o v).map (·.map .key)
  | .all, _, _ => [.ok .all]
  | .segment lower upper, o, v =>
    Outcomes.combine o .segment (lower.limits (o.branch 0) v) (upper.limits · v)

def Bound.limits : Bound → Origin → Datum → Outcomes (Option Datum)
  | .unbounded, _, _ => [.ok none]
  | .limit f, o, v => (f.outcomes o v).map (·.map some)

end

/-! ## Queries -/

/-- The engine of the core language. A filter outside of it is refused. -/
def core : Engine where
  outcomes text v :=
    match Filter.parse? text with
    | none => .error (.malformed ["no filter of the core language"])
    | some f =>
      match f.unknownNames with
      | [] => .ok ((f.outcomes [] (.ofDocument v)).map fun
        | .ok v => .ok v.text
        | .error m => .error m.message)
      | names => .error (.undefined (names.map fun name => (name, "no such filter")))

/-- The outputs of a filter of the core language. -/
def run (text : String) (v : Value) : Except Failure (List Value) := core.run text v

/-- The only output of a filter of the core language. -/
def single (text : String) (v : Value) : Except Failure Value := core.single text v

end Shapewright.Query
