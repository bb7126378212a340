import Shapewright.Json.Reader

/-!
# Engines

What runs the filters that pick a part of a document. A filter is a text, and an engine
knows what it means; the commands only ask for its outcomes on a document and take each
output for the text of another document. Nothing is assumed of an engine.

A query fails as a whole at its first mishap, and a filter that picks a part must have
exactly one output.

Main definitions:

* `Engine` — what runs filters, with `Refusal` where it does not.
* `Engine.run` — the outputs of a filter as documents.
* `Engine.single` — its only output.
* `Failure` — why a query has no answer.
-/

namespace Shapewright.Query

open Json (Value)

/-- Why a filter is not run at all, in the words of the engine. -/
inductive Refusal where
  /-- The text is no filter. -/
  | malformed (errors : List String)
  /-- Names are called that nothing is known of; what each should have been stands
  beside it. -/
  | undefined (names : List (String × String))
  deriving Repr, DecidableEq, Inhabited

/-- What runs filters. The outcomes of a filter on a document follow each other, each an
output, which is a text, or the report of a mishap. -/
structure Engine where
  outcomes : String → Value → Except Refusal (List (Except String String))

/-- Why a query has no answer. -/
inductive Failure where
  | invalidFilter (report : String)
  | unknownFunction (report : String)
  | mishap (report : String)
  /-- The text of an output is none of a document. -/
  | unreadable (fault : Json.Fault)
  | noOutput (text : String)
  | severalOutputs (text : String) (count : Nat)
  deriving Repr, DecidableEq, Inhabited

def Failure.message : Failure → String
  | .invalidFilter report => report
  | .unknownFunction report => report
  | .mishap report => "jq runtime error: " ++ report
  | .unreadable f => f.message
  | .noOutput text => "jq expression `" ++ text ++ "` produced no output"
  | .severalOutputs text count =>
    "jq expression `" ++ text ++ "` produced " ++ toString count ++
      " outputs, expected exactly one"

/-- A refused filter is reported with a line for each thing that is wrong. -/
def Refusal.failure (text : String) : Refusal → Failure
  | .malformed errors => .invalidFilter <| String.join <| errors.map fun error =>
    "parse error: " ++ error ++ " in `" ++ text ++ "`\n"
  | .undefined names => .unknownFunction <| String.join <| names.map fun (name, kind) =>
    "undefined `" ++ name ++ "`: " ++ kind ++ " in `" ++ text ++ "`\n"

/-- The documents that outputs are, up to the first mishap and the first text that is
none of a document. -/
def documents : List (Except String String) → Except Failure (List Value)
  | [] => .ok []
  | .error report :: _ => .error (.mishap report)
  | .ok text :: rest => do
    let v ← (Value.parse text).mapError .unreadable
    let vs ← documents rest
    pure (v :: vs)

namespace Engine

/-- The outputs of the filter that a text is. -/
def run (engine : Engine) (text : String) (v : Value) : Except Failure (List Value) := do
  documents (← (engine.outcomes text v).mapError (Refusal.failure text))

/-- The only output of the filter that a text is. -/
def single (engine : Engine) (text : String) (v : Value) : Except Failure Value :=
  match engine.run text v with
  | .error f => .error f
  | .ok [v] => .ok v
  | .ok [] => .error (.noOutput text)
  | .ok outputs => .error (.severalOutputs text outputs.length)

end Engine
end Shapewright.Query
