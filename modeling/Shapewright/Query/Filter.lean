import Shapewright.Query.Datum

/-!
# Filters

A filter turns a datum into any number of data. The constructors are those of a
small core language; the written forms that are only shorthand have definitions
here that build their longer form.

Main definitions:

* `Filter`, with the accesses of a `Way` to the parts of what it yields.
* `Filter.call`, `Filter.object` — shorthand.
* `Filter.unknownNames` — the functions called that are not known.
-/

namespace Shapewright.Query

inductive Arithmetic where
  | add
  | subtract
  deriving Repr, DecidableEq, Inhabited

inductive Comparison where
  | equal
  | notEqual
  | less
  | lessEqual
  | greater
  | greaterEqual
  deriving Repr, DecidableEq, Inhabited

/-- Functions of the datum alone. -/
inductive Builtin where
  | length
  | keys
  | reverse
  | sum
  | kind
  deriving Repr, DecidableEq, Inhabited

mutual

inductive Filter where
  /-- The datum itself. -/
  | identity
  /-- The datum and everything inside it, each before its parts. -/
  | recurse
  | literal (value : Datum)
  /-- No output. -/
  | nothing
  /-- The parts that a way leads to from the outputs of the base. Keys and bounds
  on the way are computed from the datum, not from the base. -/
  | access (base : Filter) (way : Way)
  /-- The outputs in front of the first failure. -/
  | attempt (body : Filter)
  | negate (body : Filter)
  | pipe (first second : Filter)
  | both (first second : Filter)
  /-- The outputs of the first that are neither `null` nor `false`, and those of
  the second if there are none. -/
  | orElse (first second : Filter)
  | arithmetic (op : Arithmetic) (left right : Filter)
  | compare (op : Comparison) (left right : Filter)
  | conj (left right : Filter)
  | disj (left right : Filter)
  /-- All outputs in one list. -/
  | collect (body : Filter)
  /-- An object of one member. -/
  | member (key value : Filter)
  | conditional (test yes no : Filter)
  | builtin (function : Builtin)
  /-- Whether there is a part at the key. -/
  | has (key : Filter)
  | firstOf (body : Filter)
  /-- A call of a function that is not known. -/
  | unknown (name : String)
  deriving Repr, Inhabited

/-- Accesses one behind the other, each to what the one before it yields. An
optional access yields nothing where it would fail. -/
inductive Way where
  | here
  | through (access : Access) (optional : Bool) (rest : Way)
  deriving Repr, Inhabited

inductive Access where
  /-- The part at a key. -/
  | key (key : Filter)
  /-- All parts. -/
  | all
  /-- What lies between two bounds. -/
  | segment (lower upper : Bound)
  deriving Repr, Inhabited

inductive Bound where
  | unbounded
  | limit (limit : Filter)
  deriving Repr, Inhabited

end

namespace Filter

/-! ## Shorthand -/

def text (s : String) : Filter := .literal (.string s)

def null : Filter := .literal .null

def boolean (b : Bool) : Filter := .literal (.boolean b)

/-- The part of the base at a name. -/
def field (base : Filter) (name : String) : Filter :=
  .access base (.through (.key (.text name)) false .here)

/-- The parts that a way leads to; the way that leads nowhere ends at the base itself. -/
def along (base : Filter) : Way → Filter
  | .here => base
  | way => .access base way

/-- An object of the given members. -/
def object : List (Filter × Filter) → Filter
  | [] => .literal (.object none [])
  | [(key, value)] => .member key value
  | (key, value) :: rest => rest.foldl
    (fun made (key, value) => .arithmetic .add made (.member key value)) (.member key value)

/-- The meaning of a name applied to arguments. -/
def call : String → List Filter → Filter
  | "empty", [] => .nothing
  | "null", [] => null
  | "true", [] => boolean true
  | "false", [] => boolean false
  | "not", [] => .conditional .identity (boolean false) (boolean true)
  | "length", [] => .builtin .length
  | "keys", [] => .builtin .keys
  | "reverse", [] => .builtin .reverse
  | "add", [] => .builtin .sum
  | "type", [] => .builtin .kind
  | "recurse", [] => .recurse
  | "first", [] =>
    .access .identity (.through (.key (.literal (.number (.word 0)))) false .here)
  | "first", [f] => .firstOf f
  | "map", [f] => .collect (.pipe (.access .identity (.through .all false .here)) f)
  | "select", [f] => .conditional f .identity .nothing
  | "has", [f] => .has f
  | name, _ => .unknown name

end Filter

mutual

/-- The functions called that are not known, in order. -/
def Filter.unknownNames : Filter → List String
  | .unknown name => [name]
  | .access base way => base.unknownNames ++ way.unknownNames
  | .attempt f => f.unknownNames
  | .negate f => f.unknownNames
  | .pipe f g => f.unknownNames ++ g.unknownNames
  | .both f g => f.unknownNames ++ g.unknownNames
  | .orElse f g => f.unknownNames ++ g.unknownNames
  | .arithmetic _ f g => f.unknownNames ++ g.unknownNames
  | .compare _ f g => f.unknownNames ++ g.unknownNames
  | .conj f g => f.unknownNames ++ g.unknownNames
  | .disj f g => f.unknownNames ++ g.unknownNames
  | .collect f => f.unknownNames
  | .member k v => k.unknownNames ++ v.unknownNames
  | .conditional c t e => c.unknownNames ++ t.unknownNames ++ e.unknownNames
  | .has k => k.unknownNames
  | .firstOf f => f.unknownNames
  | .identity => []
  | .recurse => []
  | .literal _ => []
  | .nothing => []
  | .builtin _ => []

def Way.unknownNames : Way → List String
  | .here => []
  | .through access _ rest => access.unknownNames ++ rest.unknownNames

def Access.unknownNames : Access → List String
  | .key key => key.unknownNames
  | .all => []
  | .segment lower upper => lower.unknownNames ++ upper.unknownNames

def Bound.unknownNames : Bound → List String
  | .unbounded => []
  | .limit f => f.unknownNames

end

end Shapewright.Query
