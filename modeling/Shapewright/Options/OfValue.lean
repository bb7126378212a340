import Shapewright.Options.Form

/-!
# Options from a document

The options of a request are a document: an object with a member for each option
that is chosen, or a list with the options in their order. What is left out
keeps its default, and so does everything when the document is `null`.

Main definitions:

* `Form.ofValue?` — fill in a form from a document.
* `Form.decode?` — the same, where `null` leaves everything at its default.
-/

namespace Shapewright.Options

open Json (Value Path)

/-- A mismatch and the path of the value it was found in. -/
structure Misfit where
  path : Path
  mismatch : Mismatch
  deriving Repr, DecidableEq, Inhabited

def Misfit.message (m : Misfit) : String := m.path.annotate m.mismatch.message

namespace Form

variable {α : Type}

/-- Enter the value of one option. -/
def enterValue (form : Form α) (path : Path) (name : String) (kind : Kind) (options : α)
    (v : Value) : Except Misfit α :=
  match kind.entry? v with
  | some entry => .ok (form.enter options name entry)
  | none => .error ⟨path, .wrongType (describe v) kind.expected⟩

/-- Enter the members of an object in their order. -/
def ofMembers (form : Form α) (options : α) : List (String × Value) → Except Misfit α
  | [] => .ok options
  | (name, v) :: rest =>
    match form.kind? name with
    | none => .error ⟨[.key name], .unknownField name form.names⟩
    | some kind =>
      match form.enterValue [.key name] name kind options v with
      | .error e => .error e
      | .ok options => ofMembers form options rest

/-- Enter the items of a list of `length` items from the `index`-th on as the given options. -/
def ofItems (form : Form α) (length index : Nat) (options : α) :
    List (String × Kind) → List Value → Except Misfit α
  | _, [] => .ok options
  | [], _ :: _ => .error ⟨[], .tooLong length⟩
  | (name, kind) :: fields, v :: rest =>
    match form.enterValue [.index index] name kind options v with
    | .error e => .error e
    | .ok options => ofItems form length (index + 1) options fields rest

/-- Fill in a form from a document. -/
def ofValue? (form : Form α) : Value → Except Misfit α
  | .object members => form.ofMembers form.empty members
  | .array items => form.ofItems items.length 0 form.empty form.fields items
  | v => .error ⟨[], .wrongType (describe v) form.expected⟩

/-- Fill in a form from the options of a request. -/
def decode? (form : Form α) : Value → Except Misfit α
  | .null => .ok form.empty
  | v => form.ofValue? v

end Form
end Shapewright.Options
