import Shapewright.Dialect.Render
import Shapewright.Json.Reader
import Shapewright.Options.OfValue
import Shapewright.Shape.Sample
import Shapewright.Name.Identifier

/-!
# Generation

From the text of a sample to declarations: read the text, take the shape of the
document, find the target, fill in its options, plan the types and render them.
Each stage but the last two can fail, and nothing is rendered unless all succeed.

Main definitions:

* `Failure` — why a request fails, with `Failure.message`.
* `Event` — what a run notes on its way.
* `generate` — the whole; `generateTraced` also returns the notes.
-/

namespace Shapewright

/-- Why there are no declarations. -/
inductive Failure where
  | invalidJson (fault : Json.Fault)
  | tooDeep
  | unsupportedTarget (word : String)
  | invalidOptions (target : Target) (misfit : Options.Misfit)
  | refusedName (refusal : Name.Refusal)
  deriving Repr, DecidableEq, Inhabited

def Failure.message : Failure → String
  | .invalidJson fault => "invalid JSON: " ++ fault.message
  | .tooDeep => "JSON nesting exceeds the maximum supported depth of " ++ toString Shape.maxDepth
  | .unsupportedTarget word => "generator for `" ++ word ++ "` not implemented yet"
  | .invalidOptions target misfit =>
    "invalid options for " ++ target.label ++ ": " ++ misfit.message
  | .refusedName refusal => refusal.message

/-- What a run notes on its way. -/
inductive Event where
  /-- The shape of the sample is known. -/
  | inferred (kind : String)
  /-- Separate files were asked of a target that has none. -/
  | ignoredMultipleFiles (target : Target)
  | collected (nested layers : Nat)
  | emitting (target : Target) (root : String)
  | rendered (target : Target) (files : Nat)
  deriving Repr, DecidableEq, Inhabited

/-- The notes of a run and its outcome. -/
structure Traced (α : Type) where
  events : List Event
  outcome : Except Failure α

namespace Traced

/-- Go on with the outcome of a run, unless it failed. -/
def andThen {α β : Type} (run : Traced α) (next : α → Traced β) : Traced β :=
  match run.outcome with
  | .error f => ⟨run.events, .error f⟩
  | .ok a => ⟨run.events ++ (next a).events, (next a).outcome⟩

end Traced

/-- Read a document. -/
def readDocument (text : String) : Except Failure Json.Value :=
  (Json.Value.parse text).mapError .invalidJson

/-- The shape of a document. -/
def inferShape (document : Json.Value) : Except Failure Shape :=
  match Shape.sample? document with
  | some s => .ok s
  | none => .error .tooDeep

/-- The target meant by a word. -/
def findTarget (word : String) : Except Failure Target :=
  match Target.parse? word with
  | some t => .ok t
  | none => .error (.unsupportedTarget word)

/-- The options of a target in a bag. -/
def decodeOptions (t : Target) (bag : Json.Value) : Except Failure t.Options :=
  (t.form.decode? bag).mapError (.invalidOptions t)

/-- Whether a bag is an object that asks for separate files. -/
def asksForFiles : Json.Value → Bool
  | .object members =>
    match Json.Member.get? "multipleFiles" members with
    | some (.boolean true) => true
    | _ => false
  | _ => false

/-- The plan of a shape for a target. -/
def planFor (t : Target) (rootName : String) (s : Shape) : Plan :=
  Plan.ofShape t.reserved rootName s

/-- Render a shape for a target. -/
def emit (t : Target) (s : Shape) (rootName : String) (bag : Json.Value) :
    Except Failure Rendered :=
  (decodeOptions t bag).map fun options => t.render (planFor t rootName s) options

/-- Declarations for the sample in a text. -/
def generate (text target rootName : String) (bag : Json.Value) : Except Failure Rendered := do
  let document ← readDocument text
  let s ← inferShape document
  let t ← findTarget target
  emit t s rootName bag

/-! ## Notes -/

/-- `inferShape` with its note. -/
def inferTraced (document : Json.Value) : Traced Shape :=
  match inferShape document with
  | .ok s => ⟨[.inferred s.kind], .ok s⟩
  | .error f => ⟨[], .error f⟩

/-- The notes of rendering a plan. -/
def emitEvents (t : Target) (p : Plan) (bag : Json.Value) (output : Rendered) : List Event :=
  (if !t.splitsFiles && asksForFiles bag then [.ignoredMultipleFiles t] else []) ++
    [.collected p.nested.length p.rootLayers, .emitting t p.root.name,
      .rendered t output.sourceFiles.length]

/-- `emit` with its notes. -/
def emitTraced (t : Target) (s : Shape) (rootName : String) (bag : Json.Value) :
    Traced Rendered :=
  match emit t s rootName bag with
  | .ok output => ⟨emitEvents t (planFor t rootName s) bag output, .ok output⟩
  | .error f => ⟨[], .error f⟩

/-- `generate` with its notes. -/
def generateTraced (text target rootName : String) (bag : Json.Value) : Traced Rendered :=
  Traced.andThen ⟨[], readDocument text⟩ fun document =>
    Traced.andThen (inferTraced document) fun s =>
      Traced.andThen ⟨[], findTarget target⟩ fun t => emitTraced t s rootName bag

end Shapewright
