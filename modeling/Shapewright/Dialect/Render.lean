import Shapewright.Dialect.TypeScript
import Shapewright.Dialect.JavaScript
import Shapewright.Dialect.Python
import Shapewright.Dialect.Rust
import Shapewright.Dialect.Go
import Shapewright.Dialect.C
import Shapewright.Dialect.CPlusPlus
import Shapewright.Dialect.Java
import Shapewright.Dialect.Kotlin
import Shapewright.Options.Form

/-!
# What a target is to the generator

A target brings the names it cannot declare, the structure of its options with
the form that fills it in, and the rendering of a plan.
-/

namespace Shapewright.Target

/-- The type names that the target cannot declare. -/
def reserved : Target → Reserved
  | .typeScript => TypeScript.reserved
  | .javaScript => JavaScript.reserved
  | .python => Python.reserved
  | .rust => Rust.reserved
  | .go => Go.reserved
  | .c => C.reserved
  | .cPlusPlus => CPlusPlus.reserved
  | .java => Java.reserved
  | .kotlin => Kotlin.reserved

/-- Whether the target can write one file for each type. -/
def splitsFiles : Target → Bool
  | .java => true
  | .kotlin => true
  | _ => false

/-- The options of the target. -/
def Options : Target → Type
  | .go => GoOptions
  | .java => JavaOptions
  | .kotlin => KotlinOptions
  | _ => PlainOptions

def form : (t : Target) → Options.Form t.Options
  | .typeScript => PlainOptions.form
  | .javaScript => PlainOptions.form
  | .python => PlainOptions.form
  | .rust => PlainOptions.form
  | .go => GoOptions.form
  | .c => PlainOptions.form
  | .cPlusPlus => PlainOptions.form
  | .java => JavaOptions.form
  | .kotlin => KotlinOptions.form

/-- The declarations of a plan. -/
def render : (t : Target) → Plan → t.Options → Rendered
  | .typeScript, p, _ => TypeScript.render p
  | .javaScript, p, _ => JavaScript.render p
  | .python, p, _ => Python.render p
  | .rust, p, _ => Rust.render p
  | .go, p, options => Go.render p options
  | .c, p, _ => C.render p
  | .cPlusPlus, p, _ => CPlusPlus.render p
  | .java, p, options => Java.render p options
  | .kotlin, p, options => Kotlin.render p options

end Shapewright.Target
