import Shapewright.Command.Basic
import Shapewright.Command.Failure

/-!
# Options of a command

The bag of options comes from three places: the options file, the pairs given
one by one, and the flag for separate files. What comes later replaces what was
there under the same key, and keeps its place.

Main definitions:

* `readPair` — the key and the value of a pair.
* `Generation.bag` — the bag.
-/

namespace Shapewright

open Json (Value)

/-- A value as it is written: a document, or else a string. -/
def readOptionValue (text : String) : Value :=
  match Value.parse text with
  | .ok v => v
  | .error _ => .string text

/-- The key and the value of a pair. The key ends at the first equals sign. -/
def readPair (pair : String) : Except RunFailure (String × Value) :=
  let cs := pair.toList
  match cs.dropWhile (· != '=') with
  | [] => .error (.noPair pair)
  | _ :: value =>
    match Text.trim (cs.takeWhile (· != '=')) with
    | [] => .error (.emptyKey pair)
    | key => .ok (String.ofList key, readOptionValue (String.ofList value))

/-- Put pairs into a bag one after the other. -/
def addPairs (members : List (String × Value)) :
    List String → Except RunFailure (List (String × Value))
  | [] => .ok members
  | pair :: rest => do
    let (key, value) ← readPair pair
    addPairs (Json.Member.put key value members) rest

namespace Generation

/-- The members of the options file. -/
def fileMembers (what : Generation) (files : Files) :
    Except RunFailure (List (String × Value)) :=
  match what.optionsFile? with
  | none => .ok []
  | some path => do
    let text ← (files.read path).mapError (.unreadable path)
    (Options.membersOfText? text).mapError (.badOptionsFile path)

/-- The bag whose file holds `members`. -/
def bagOver (what : Generation) (members : List (String × Value)) : Except RunFailure Value :=
  (addPairs members what.pairs).map fun members =>
    .object (if what.multipleFiles then Json.Member.put "multipleFiles" (.boolean true) members
      else members)

/-- The bag of options. -/
def bag (what : Generation) (files : Files) : Except RunFailure Value := do
  what.bagOver (← what.fileMembers files)

end Generation
end Shapewright
