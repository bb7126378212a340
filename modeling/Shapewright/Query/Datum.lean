import Shapewright.Query.Numeral
import Shapewright.Query.Origin
import Shapewright.Json.Printer

/-!
# Data of queries

What filters work on: documents in which numbers are those of queries, and lists
and objects that a run makes remember the step that made them. That matters to
equality alone: a list that holds an undefined number equals itself, but no list
that another step made.

Main definitions:

* `Datum`, `Datum.ofDocument`.
* `Datum.text` — the text of a datum, which is that of a document unless it
  holds numbers that no document holds.
* `Datum.cmp` — the order: `null`, the two truth values, numbers, strings, lists
  and objects follow each other, and two of a kind compare by content. The order
  of members counts for nothing.
* `Datum.same` — equality, which goes by the order but for what one step made.
-/

namespace Shapewright.Query

open Json (Value)

/-- A datum. A list or an object that no run made has no origin. -/
inductive Datum where
  | null
  | boolean (value : Bool)
  | number (value : Numeral)
  | string (value : String)
  | array (origin : Option Origin) (items : List Datum)
  | object (origin : Option Origin) (members : List (String × Datum))
  deriving Repr, Inhabited

namespace Datum

/-! ## Documents -/

mutual

def ofDocument : Value → Datum
  | .null => .null
  | .boolean b => .boolean b
  | .number n => .number (.ofNumber n)
  | .string s => .string s
  | .array items => .array none (ofItems items)
  | .object members => .object none (ofMembers members)

def ofItems : List Value → List Datum
  | [] => []
  | v :: rest => ofDocument v :: ofItems rest

def ofMembers : List (String × Value) → List (String × Datum)
  | [] => []
  | (name, v) :: rest => (name, ofDocument v) :: ofMembers rest

end

/-! ## Texts -/

/-- The text of a number. One that has none is written as `null`. -/
def numberText (n : Numeral) : String := n.toText?.getD "null"

mutual

def text : Datum → String
  | .null => "null"
  | .boolean b => if b then "true" else "false"
  | .number n => numberText n
  | .string s => Json.quote s
  | .array _ items => "[" ++ textOfItems items ++ "]"
  | .object _ members => "\x7b" ++ textOfMembers members ++ "\x7d"

def textOfItems : List Datum → String
  | [] => ""
  | [v] => text v
  | v :: rest => text v ++ "," ++ textOfItems rest

def textOfMembers : List (String × Datum) → String
  | [] => ""
  | [(name, v)] => Json.quote name ++ ":" ++ text v
  | (name, v) :: rest => Json.quote name ++ ":" ++ text v ++ "," ++ textOfMembers rest

end

/-! ## Order -/

/-- Everything but `null` and `false` counts as true. -/
def isTruthy : Datum → Bool
  | .null => false
  | .boolean b => b
  | _ => true

def rank : Datum → Nat
  | .null => 0
  | .boolean false => 1
  | .boolean true => 2
  | .number _ => 3
  | .string _ => 4
  | .array _ _ => 5
  | .object _ _ => 6

/-- Put a member in front of the first whose name does not precede its own. -/
def insertByName (m : String × Datum) : List (String × Datum) → List (String × Datum)
  | [] => [m]
  | other :: rest => if other.1 < m.1 then other :: insertByName m rest else m :: other :: rest

mutual

/-- The datum with the members of all objects sorted by name. -/
def sorted : Datum → Datum
  | .array origin items => .array origin (sortedItems items)
  | .object origin members => .object origin (sortedMembers members)
  | .null => .null
  | .boolean b => .boolean b
  | .number n => .number n
  | .string s => .string s

def sortedItems : List Datum → List Datum
  | [] => []
  | v :: rest => sorted v :: sortedItems rest

def sortedMembers : List (String × Datum) → List (String × Datum)
  | [] => []
  | (name, v) :: rest => insertByName (name, sorted v) (sortedMembers rest)

end

mutual

/-- The order of data whose objects are sorted. -/
def cmpSorted : Datum → Datum → Ordering
  | .number x, .number y => x.cmp y
  | .string s, .string t => compare s t
  | .array _ xs, .array _ ys => cmpItems xs ys
  | .object _ ms, .object _ ns =>
    (compare (Json.Member.names ms) (Json.Member.names ns)).then (cmpMembers ms ns)
  | v, w => compare (rank v) (rank w)

def cmpItems : List Datum → List Datum → Ordering
  | [], [] => .eq
  | [], _ :: _ => .lt
  | _ :: _, [] => .gt
  | v :: vs, w :: ws => (cmpSorted v w).then (cmpItems vs ws)

/-- The order of members of the same names. -/
def cmpMembers : List (String × Datum) → List (String × Datum) → Ordering
  | [], [] => .eq
  | [], _ :: _ => .lt
  | _ :: _, [] => .gt
  | (_, v) :: vs, (_, w) :: ws => (cmpSorted v w).then (cmpMembers vs ws)

end

def cmp (v w : Datum) : Ordering := cmpSorted (sorted v) (sorted w)

/-! ## Equality -/

/-- Whether one and the same step made both. -/
def madeAlike : Option Origin → Option Origin → Bool
  | some o, some p => o == p
  | _, _ => false

mutual

/-- Whether two data are equal. Two that one step made are; others are if they
have the same content. -/
def same : Datum → Datum → Bool
  | .array o xs, .array p ys => madeAlike o p || sameItems xs ys
  | .object o ms, .object p ns => madeAlike o p || ms.length == ns.length && sameMembers ms ns
  | .null, w => cmp .null w == .eq
  | .boolean b, w => cmp (.boolean b) w == .eq
  | .number n, w => cmp (.number n) w == .eq
  | .string s, w => cmp (.string s) w == .eq
  | .array _ _, _ => false
  | .object _ _, _ => false

def sameItems : List Datum → List Datum → Bool
  | [], [] => true
  | v :: vs, w :: ws => same v w && sameItems vs ws
  | _, _ => false

/-- Whether an object has members equal to all the given ones. -/
def sameMembers : List (String × Datum) → List (String × Datum) → Bool
  | [], _ => true
  | (name, v) :: rest, ns =>
    (match Json.Member.get? name ns with
      | some w => same v w
      | none => false) && sameMembers rest ns

end

end Datum
end Shapewright.Query
