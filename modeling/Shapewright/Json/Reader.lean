import Shapewright.Json.Token
import Shapewright.Json.Path

/-!
# Reading documents

The reader is a pushdown machine over tokens: a state says what may come next
and which containers are still open, and every token takes one step. Each
failure comes with the path of the value that was being read.

Main definitions:

* `Reader.State`, `Reader.step` — the machine.
* `Reader.run` — read one value and return the tokens behind it.
* `Value.parse` — read a text that is one value and nothing else.
-/

namespace Shapewright.Json

/-- A fault and the path of the value in which it was found. -/
structure Failure where
  path : Path
  fault : Fault
  deriving Repr, DecidableEq, Inhabited

namespace Reader

/-- A container that is open around the value being read: the items of a list so
far, the last one first, or the members of an object so far and the name of the next. -/
inductive Frame where
  | list (items : List Value)
  | member (members : List (String × Value)) (key : String)
  deriving Repr, Inhabited

def Frame.step : Frame → Step
  | .list items => .index items.length
  | .member _ key => .key key

/-- The path of the value inside the frames, the innermost frame first. -/
def pathOf (outer : List Frame) : Path := (outer.map Frame.step).reverse

/-- What may come next. -/
inductive State where
  | value (outer : List Frame)
  | firstItem (outer : List Frame)
  | nextItem (items : List Value) (outer : List Frame)
  | itemEnd (items : List Value) (outer : List Frame)
  | firstKey (outer : List Frame)
  | nextKey (members : List (String × Value)) (outer : List Frame)
  | colon (members : List (String × Value)) (key : String) (outer : List Frame)
  | memberEnd (members : List (String × Value)) (outer : List Frame)
  | finished (value : Value)
  deriving Repr, Inhabited

/-- How many containers may be open at once. -/
def maxOpen : Nat := 127

/-- Hand a complete value to the container around it. -/
def deliver (v : Value) : List Frame → State
  | [] => .finished v
  | .list items :: outer => .itemEnd (v :: items) outer
  | .member members key :: outer => .memberEnd (Member.put key v members) outer

/-- A fault in the value inside the frames. -/
def within (outer : List Frame) (cause : Cause) (p : Position) : Failure :=
  ⟨pathOf outer, ⟨cause, p⟩⟩

/-- A fault between the members of an object, where no name is known. -/
def between (outer : List Frame) (fault : Fault) : Failure :=
  ⟨pathOf outer ++ [.unknown], fault⟩

/-- Take a token where a value must begin. -/
def stepValue (outer : List Frame) (l : Lexeme) : Except Failure State :=
  -- the depth is counted before a container is opened
  let opened (inside : State) : Except Failure State :=
    if maxOpen ≤ outer.length then .error (within outer .tooDeep l.ahead) else .ok inside
  match l.token with
  | .null => .ok (deliver .null outer)
  | .boolean b => .ok (deliver (.boolean b) outer)
  | .number n => .ok (deliver (.number n) outer)
  | .string s => .ok (deliver (.string s) outer)
  | .openArray => opened (.firstItem outer)
  | .openObject => opened (.firstKey outer)
  | .badScalar fault => .error ⟨pathOf outer, fault⟩
  | .badString fault => .error ⟨pathOf outer, fault⟩
  | _ => .error (within outer .expectedValue l.ahead)

/-- Take a token where the name of a member must begin. -/
def stepKey (members : List (String × Value)) (outer : List Frame) (l : Lexeme) :
    Except Failure State :=
  match l.token with
  | .string key => .ok (.colon members key outer)
  | .badString fault => .error (between outer fault)
  | _ => .error (between outer ⟨.keyNotString, l.ahead⟩)

/-- Take one token. -/
def step (s : State) (l : Lexeme) : Except Failure State :=
  match s with
  | .value outer => stepValue outer l
  | .firstItem outer =>
    if l.token = .closeArray then .ok (deliver (.array []) outer)
    else stepValue (.list [] :: outer) l
  | .nextItem items outer =>
    if l.token = .closeArray then .error (within outer .trailingComma l.ahead)
    else stepValue (.list items :: outer) l
  | .itemEnd items outer =>
    match l.token with
    | .closeArray => .ok (deliver (.array items.reverse) outer)
    | .comma => .ok (.nextItem items outer)
    | _ => .error (within outer .expectedListEnd l.ahead)
  | .firstKey outer =>
    if l.token = .closeObject then .ok (deliver (.object []) outer) else stepKey [] outer l
  | .nextKey members outer =>
    if l.token = .closeObject then .error (between outer ⟨.trailingComma, l.ahead⟩)
    else stepKey members outer l
  | .colon members key outer =>
    if l.token = .colon then .ok (.value (.member members key :: outer))
    else .error (within outer .expectedColon l.ahead)
  | .memberEnd members outer =>
    match l.token with
    | .closeObject => .ok (deliver (.object members) outer)
    | .comma => .ok (.nextKey members outer)
    | _ => .error (between outer ⟨.expectedObjectEnd, l.ahead⟩)
  | .finished v => .ok (.finished v)

/-- The failure of a text that ends at `p` before the value is complete. -/
def endFailure (s : State) (p : Position) : Failure :=
  match s with
  | .value outer => within outer .endInValue p
  | .firstItem outer => within outer .endInList p
  | .nextItem _ outer => within outer .endInValue p
  | .itemEnd _ outer => within outer .endInList p
  | .firstKey outer => between outer ⟨.endInObject, p⟩
  | .nextKey _ outer => between outer ⟨.endInValue, p⟩
  | .colon _ _ outer => within outer .endInObject p
  | .memberEnd _ outer => between outer ⟨.endInObject, p⟩
  -- a complete value is not followed by more tokens
  | .finished _ => within [] .endInValue p

/-- Take tokens until a value is complete, and return those behind it. -/
def run (finish : Position) (s : State) (ls : List Lexeme) :
    Except Failure (Value × List Lexeme) :=
  match s, ls with
  | .finished v, ls => .ok (v, ls)
  | s, [] => .error (endFailure s finish)
  | s, l :: ls =>
    match step s l with
    | .ok s => run finish s ls
    | .error f => .error f

end Reader

/-- Read the value at the head of a source and return the tokens behind it. -/
def Source.readValue (s : Source) : Except Failure (Value × List Lexeme) :=
  Reader.run s.finish (.value []) s.lexemes

/-- Read a text that is one value with nothing but blanks around it. -/
def Value.parse (text : String) : Except Fault Value :=
  match (Source.ofText text).readValue with
  | .error f => .error f.fault
  | .ok (v, []) => .ok v
  | .ok (_, l :: _) => .error ⟨.trailingCharacters, l.ahead⟩

end Shapewright.Json
