import Shapewright.Text.Blank

/-!
# Targets

The languages that declarations can be written in.

Main definitions:

* `Target`, with its identifier, label and file extension.
* `Target.parse?` — the target meant by a user's word for it.
-/

namespace Shapewright

inductive Target where
  | typeScript
  | javaScript
  | python
  | rust
  | go
  | c
  | cPlusPlus
  | java
  | kotlin
  deriving Repr, DecidableEq, Inhabited

namespace Target

def all : List Target :=
  [.typeScript, .javaScript, .python, .rust, .go, .c, .cPlusPlus, .java, .kotlin]

/-- The identifier, which also tags output for highlighting. -/
def id : Target → String
  | .typeScript => "typescript"
  | .javaScript => "javascript"
  | .python => "python"
  | .rust => "rust"
  | .go => "go"
  | .c => "c"
  | .cPlusPlus => "cpp"
  | .java => "java"
  | .kotlin => "kotlin"

/-- The name of the language. -/
def label : Target → String
  | .typeScript => "TypeScript"
  | .javaScript => "JavaScript"
  | .python => "Python"
  | .rust => "Rust"
  | .go => "Go"
  | .c => "C"
  | .cPlusPlus => "C++"
  | .java => "Java"
  | .kotlin => "Kotlin"

/-- The extension of files with declarations, without the point. -/
def extension : Target → String
  | .typeScript => "ts"
  | .javaScript => "js"
  | .python => "py"
  | .rust => "rs"
  | .go => "go"
  | .c => "h"
  | .cPlusPlus => "hpp"
  | .java => "java"
  | .kotlin => "kt"

/-- Other words for a target. -/
def aliases : Target → List String
  | .typeScript => ["ts"]
  | .javaScript => ["js"]
  | .python => ["py"]
  | .rust => ["rs"]
  | .go => ["golang"]
  | .c => []
  | .cPlusPlus => ["c++"]
  | .java => []
  | .kotlin => ["kt"]

/-- The target meant by a word, in any ASCII case and with blanks around it. -/
def parse? (word : String) : Option Target :=
  let word := String.ofList ((Text.trim word.toList).map Char.toLower)
  all.find? fun t => (t.id :: t.aliases).contains word

/-- Every identifier means its target. -/
theorem parse?_id (t : Target) : parse? t.id = some t := by
  cases t <;> decide +kernel

end Target
end Shapewright
