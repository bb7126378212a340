import Shapewright.Query.Filter

/-!
# Operations of filters on data

Access to parts, arithmetic, and the functions of one datum. Places and bounds
are words: a real is none, even if it is an integer. An operation that makes a
list or an object is given the origin of the step that it is.

Main definitions:

* `Mishap` — why an operation has no result.
* `Comparison.holds` — comparison by equality and in the order of data.
* `part`, `parts`, `segment` — access to parts.
* `plus`, `minus`, `negative` — arithmetic.
* `Builtin.apply` — the functions of one datum.
-/

namespace Shapewright.Query

/-- Why an operation has no result. -/
inductive Mishap where
  | noSuchAccess
  | notAContainer
  | badOperands
  | badKey
  deriving Repr, DecidableEq, Inhabited

def Mishap.message : Mishap → String
  | .noSuchAccess => "the datum cannot be accessed with this key"
  | .notAContainer => "the datum has no parts"
  | .badOperands => "the operation is not defined on these data"
  | .badKey => "the name of a member is not a string"

def Comparison.holds : Comparison → Datum → Datum → Bool
  | .equal, v, w => v.same w
  | .notEqual, v, w => !v.same w
  | .less, v, w => v.cmp w == .lt
  | .lessEqual, v, w => v.cmp w != .gt
  | .greater, v, w => v.cmp w == .gt
  | .greaterEqual, v, w => v.cmp w != .lt

/-! ## Parts -/

/-- The place in a list of `count` items that an index means; a negative index
counts from the end. -/
def place? (count : Nat) (index : Int) : Option Nat :=
  if 0 ≤ index then some index.toNat
  else if index.natAbs ≤ count then some (count - index.natAbs)
  else none

/-- The part at a key. Where a list or an object has none, it is `null`. -/
def part (v key : Datum) : Except Mishap Datum :=
  match v, key with
  | .array _ items, .number (.word i) =>
    .ok (((place? items.length i.toInt).bind (items[·]?)).getD .null)
  | .object _ members, .string name => .ok ((Json.Member.get? name members).getD .null)
  | _, _ => .error .noSuchAccess

/-- The items of a list, or the values of the members of an object. -/
def parts : Datum → Except Mishap (List Datum)
  | .array _ items => .ok items
  | .object _ members => .ok (members.map Prod.snd)
  | _ => .error .notAContainer

/-- A bound of a segment of `count` items. -/
def bound (count : Nat) : Datum → Except Mishap Nat
  | .number (.word i) => .ok (min ((place? count i.toInt).getD 0) count)
  | _ => .error .noSuchAccess

/-- What a list holds from one bound up to another, where a missing bound is the
end of the list. -/
def between {α : Type} (items : List α) (lower upper : Option Datum) :
    Except Mishap (List α) := do
  let start ← (lower.map (bound items.length)).getD (.ok 0)
  let finish ← (upper.map (bound items.length)).getD (.ok items.length)
  pure ((items.drop start).take (finish - start))

/-- The segment of a list or a string from one bound up to another. -/
def segment (o : Origin) (v : Datum) (lower upper : Option Datum) : Except Mishap Datum :=
  match v with
  | .array _ items => (between items lower upper).map (.array (some o))
  | .string s => (between s.toList lower upper).map fun cs => .string (String.ofList cs)
  | _ => .error .notAContainer

/-- Whether there is a part at a key. -/
def hasPart (v key : Datum) : Except Mishap Bool :=
  match v, key with
  | .array _ items, .number (.word i) =>
    if 0 ≤ i then .ok (decide (i.toInt < items.length)) else .error .noSuchAccess
  | .object _ members, .string name => .ok (Json.Member.get? name members).isSome
  | _, _ => .error .noSuchAccess

mutual

/-- A datum and everything in it, each before its parts. -/
def deep : Datum → List Datum
  | .array origin items => .array origin items :: deepItems items
  | .object origin members => .object origin members :: deepMembers members
  | .null => [.null]
  | .boolean b => [.boolean b]
  | .number n => [.number n]
  | .string s => [.string s]

def deepItems : List Datum → List Datum
  | [] => []
  | v :: rest => deep v ++ deepItems rest

def deepMembers : List (String × Datum) → List Datum
  | [] => []
  | (_, v) :: rest => deep v ++ deepMembers rest

end

/-! ## Arithmetic -/

/-- Sum: `null` changes nothing, strings and lists are joined, and of two
objects the second one wins. -/
def plus (o : Origin) (v w : Datum) : Except Mishap Datum :=
  match v, w with
  | .null, w => .ok w
  | v, .null => .ok v
  | .number x, .number y => .ok (.number (x.add y))
  | .string s, .string t => .ok (.string (s ++ t))
  | .array _ xs, .array _ ys => .ok (.array (some o) (xs ++ ys))
  | .object _ ms, .object _ ns =>
    .ok (.object (some o) (ns.foldl (fun made (name, v) => Json.Member.put name v made) ms))
  | _, _ => .error .badOperands

/-- Difference of numbers, or the items of one list that are not in another. -/
def minus (o : Origin) (v w : Datum) : Except Mishap Datum :=
  match v, w with
  | .number x, .number y => .ok (.number (x.sub y))
  | .array _ xs, .array _ ys => .ok (.array (some o) (xs.filter fun x => !ys.any x.same))
  | _, _ => .error .badOperands

def Arithmetic.apply : Arithmetic → Origin → Datum → Datum → Except Mishap Datum
  | .add => plus
  | .subtract => minus

def negative : Datum → Except Mishap Datum
  | .number n => .ok (.number n.neg)
  | _ => .error .badOperands

/-! ## Functions -/

def count (n : Nat) : Datum := .number (.word (.ofNat n))

/-- The length of a container or a string; of a number its magnitude. -/
def lengthOf : Datum → Except Mishap Datum
  | .null => .ok (count 0)
  | .boolean _ => .error .badOperands
  | .number n => .ok (.number n.magnitude)
  | .string s => .ok (count s.length)
  | .array _ items => .ok (count items.length)
  | .object _ members => .ok (count members.length)

/-- The names of an object in order, or the indices of a list. -/
def keysOf (o : Origin) : Datum → Except Mishap Datum
  | .array _ items => .ok (.array (some o) ((List.range items.length).map count))
  | .object _ members =>
    .ok (.array (some o) ((Json.Member.names (Datum.sortedMembers members)).map .string))
  | _ => .error .notAContainer

def reversed (o : Origin) : Datum → Except Mishap Datum
  | .array _ items => .ok (.array (some o) items.reverse)
  | _ => .error .badOperands

/-- The sum of the parts. -/
def total (o : Origin) (v : Datum) : Except Mishap Datum := do
  (← parts v).foldlM (plus o) .null

def kindOf : Datum → String
  | .null => "null"
  | .boolean _ => "boolean"
  | .number _ => "number"
  | .string _ => "string"
  | .array _ _ => "array"
  | .object _ _ => "object"

def Builtin.apply : Builtin → Origin → Datum → Except Mishap Datum
  | .length, _, v => lengthOf v
  | .keys, o, v => keysOf o v
  | .reverse, o, v => reversed o v
  | .sum, o, v => total o v
  | .kind, _, v => .ok (.string (kindOf v))

end Shapewright.Query
