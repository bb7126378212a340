import Shapewright.Options.OfValue
import Shapewright.Json.Reader

/-!
# Options from a text

Options can also be read straight from a text. Values are then checked while
the text is read, so that the first thing wrong with either is reported, with
its place in the text. Nothing behind a complete value is looked at.

Main definitions:

* `Form.ofText?` — fill in a form from a text.
* `membersOfText?` — the members of the object in a text.
-/

namespace Shapewright.Options

open Json

/-- What can be wrong with options in a text. -/
inductive Problem where
  | fault (fault : Fault)
  | mismatch (mismatch : Mismatch) (position : Position)
  deriving Repr, DecidableEq, Inhabited

def Problem.message : Problem → String
  | .fault f => f.message
  | .mismatch m p => p.annotate m.message

/-- A problem and the path of the value it was found in. -/
structure TextMisfit where
  path : Path
  problem : Problem
  deriving Repr, DecidableEq, Inhabited

def TextMisfit.message (m : TextMisfit) : String := m.path.annotate m.problem.message

def faultAt (path : Path) (cause : Cause) (p : Position) : TextMisfit :=
  ⟨path, .fault ⟨cause, p⟩⟩

/-- What is wrong with a value that begins with a token and should have been
something else. A container is refused before its bracket is taken. -/
def refuse (path : Path) (expected : String) (l : Lexeme) : TextMisfit :=
  let wrong (v : Value) (p : Position) : TextMisfit :=
    ⟨path, .mismatch (.wrongType (describe v) expected) p⟩
  match l.token with
  | .null => wrong .null l.stop
  | .boolean b => wrong (.boolean b) l.stop
  | .number n => wrong (.number n) l.stop
  | .string s => wrong (.string s) l.stop
  | .openArray => wrong (.array []) l.start
  | .openObject => wrong (.object []) l.start
  | .badScalar f => ⟨path, .fault f⟩
  | .badString f => ⟨path, .fault f⟩
  | _ => faultAt path .expectedValue l.ahead

/-- The scalar that a token is. -/
def scalar? : Token → Option Value
  | .null => some .null
  | .boolean b => some (.boolean b)
  | .number n => some (.number n)
  | .string s => some (.string s)
  | _ => none

/-- The place that a problem with a name is reported at: where the reader gives
the object up, behind blanks and a closing brace that follow the name. -/
def behindName (finish : Position) : List Lexeme → Position
  | [] => finish
  | l :: _ => if l.token = .closeObject then l.stop else l.start

namespace Form

variable {α : Type}

/-- Enter the value that a token is. -/
def enterToken (form : Form α) (path : Path) (name : String) (kind : Kind) (options : α)
    (l : Lexeme) : Except TextMisfit α :=
  match (scalar? l.token).bind kind.entry? with
  | some entry => .ok (form.enter options name entry)
  | none => .error (refuse path kind.expected l)

/-- Check a name that was read: it must be known and new. -/
def checkName (form : Form α) (finish : Position) (seen : List String) (name : String)
    (behind : List Lexeme) : Except TextMisfit Kind :=
  match form.kind? name with
  | none =>
    .error ⟨[.key name],
      .mismatch (.unknownField name form.names) (behindName finish behind)⟩
  | some kind =>
    if seen.contains name then
      .error ⟨[], .mismatch (.duplicateField name) (behindName finish behind)⟩
    else .ok kind

/-- Read members from where the name of one must begin; `seen` are the names before it. -/
def readMembers (form : Form α) (finish : Position) (seen : List String) (options : α) :
    List Lexeme → Except TextMisfit α
  | [] => .error (faultAt [.unknown] .endInValue finish)
  | l :: behind =>
    match l.token with
    | .string name =>
      match form.checkName finish seen name behind with
      | .error e => .error e
      | .ok kind =>
        match behind with
        | [] => .error (faultAt [] .endInObject finish)
        | c :: behind =>
          if c.token ≠ .colon then .error (faultAt [] .expectedColon c.ahead)
          else
            match behind with
            | [] => .error (faultAt [.key name] .endInValue finish)
            | v :: behind =>
              match form.enterToken [.key name] name kind options v with
              | .error e => .error e
              | .ok options =>
                match behind with
                | [] => .error (faultAt [.unknown] .endInObject finish)
                | e :: behind =>
                  match e.token with
                  | .closeObject => .ok options
                  | .comma =>
                    match behind with
                    | [] => .error (faultAt [.unknown] .endInValue finish)
                    | n :: behind =>
                      -- a comma promises another member
                      if n.token = .closeObject then
                        .error (faultAt [.unknown] .trailingComma n.ahead)
                      else readMembers form finish (name :: seen) options (n :: behind)
                  | _ => .error (faultAt [.unknown] .expectedObjectEnd e.ahead)
    | .badString f => .error ⟨[.unknown], .fault f⟩
    | _ => .error (faultAt [.unknown] .keyNotString l.ahead)

/-- Read the end of a list whose options have all been read. -/
def readListEnd (finish : Position) (options : α) : List Lexeme → Except TextMisfit α
  | [] => .error (faultAt [] .endInList finish)
  | l :: behind =>
    match l.token, behind with
    | .closeArray, _ => .ok options
    | .comma, [] => .error (faultAt [] .trailingCharacters finish)
    | .comma, n :: _ =>
      let cause := if n.token = .closeArray then .trailingComma else .trailingCharacters
      .error (faultAt [] cause n.ahead)
    | _, _ => .error (faultAt [] .trailingCharacters l.ahead)

/-- Read the rest of a list behind its `index`-th item, as the given options. -/
def readItems (form : Form α) (finish : Position) (index : Nat) (options : α) :
    List (String × Kind) → List Lexeme → Except TextMisfit α
  | [], ls => readListEnd finish options ls
  | _ :: _, [] => .error (faultAt [] .endInList finish)
  | (name, kind) :: fields, l :: behind =>
    match l.token, behind with
    | .closeArray, _ => .ok options
    | .comma, [] => .error (faultAt [] .endInValue finish)
    | .comma, v :: behind =>
      if v.token = .closeArray then .error (faultAt [] .trailingComma v.ahead)
      else
        match form.enterToken [.index index] name kind options v with
        | .error e => .error e
        | .ok options => readItems form finish (index + 1) options fields behind
    | _, _ => .error (faultAt [] .expectedListEnd l.ahead)

/-- Read a list from behind its bracket. -/
def readList (form : Form α) (finish : Position) : List Lexeme → Except TextMisfit α
  | [] => .error (faultAt [] .endInList finish)
  | l :: behind =>
    match l.token, form.fields with
    | .closeArray, _ => .ok form.empty
    -- a target without options takes no item
    | _, [] => readListEnd finish form.empty (l :: behind)
    | _, (name, kind) :: fields =>
      match form.enterToken [.index 0] name kind form.empty l with
      | .error e => .error e
      | .ok options => form.readItems finish 1 options fields behind

/-- Read an object from behind its brace. -/
def readObject (form : Form α) (finish : Position) : List Lexeme → Except TextMisfit α
  | [] => .error (faultAt [.unknown] .endInObject finish)
  | l :: behind =>
    if l.token = .closeObject then .ok form.empty
    else form.readMembers finish [] form.empty (l :: behind)

/-- Fill in a form from a text. -/
def ofText? (form : Form α) (text : String) : Except TextMisfit α :=
  let source := Source.ofText text
  match source.lexemes with
  | [] => .error (faultAt [] .endInValue source.finish)
  | l :: behind =>
    match l.token with
    | .openObject => form.readObject source.finish behind
    | .openArray => form.readList source.finish behind
    | _ => .error (refuse [] form.expected l)

end Form

/-- The members of the object at the head of a text. -/
def membersOfText? (text : String) : Except TextMisfit (List (String × Value)) :=
  let source := Source.ofText text
  match source.lexemes with
  | [] => .error (faultAt [] .endInValue source.finish)
  | l :: _ =>
    match l.token, source.readValue with
    | .openObject, .ok (.object members, _) => .ok members
    | .openObject, .error f => .error ⟨f.path, .fault f.fault⟩
    | _, _ => .error (refuse [] "a map" l)

end Shapewright.Options
