import Shapewright.Target

/-!
# Rendered declarations

Declarations leave as one text or as a list of files. The pieces of a text are
stacked behind a header; a class can be opened again to take others into its
body.

Main definitions:

* `Rendered`, `SourceFile`.
* `stack` — a header and blocks in one text that ends a line.
* `nestInside` — declarations placed before the closing brace of another one.
* `perTypeFiles` — a file for each declaration.
-/

namespace Shapewright

structure SourceFile where
  filename : String
  content : String
  language : Target
  deriving Repr, DecidableEq, Inhabited

inductive Rendered where
  | single (content : String) (language : Target)
  | files (list : List SourceFile)
  deriving Repr, DecidableEq, Inhabited

namespace Rendered

/-- The language of the output, if there is any. -/
def language? : Rendered → Option Target
  | .single _ language => some language
  | .files list => list.head?.map SourceFile.language

/-- The separate files; none for output in one text. -/
def sourceFiles : Rendered → List SourceFile
  | .single _ _ => []
  | .files list => list

end Rendered

/-- `text`, with a line feed unless it ends in one. -/
def endLine (text : String) : String :=
  if text.toList.getLast? = some '\n' then text else text ++ "\n"

/-- The header and the blocks with `separator` between them, ending a line. -/
def stack (header : String) (blocks : List String) (separator : String) : String :=
  endLine (header ++ separator.intercalate blocks)

/-- The text without blanks at its end. -/
def trimEndText (text : String) : String := String.ofList (Text.trimEnd text.toList)

/-- The text without a closing brace at its very end, if there is one. -/
def dropClosingBrace? (text : String) : Option String :=
  match text.toList.reverse with
  | '\x7d' :: rest => some (String.ofList rest.reverse)
  | _ => none

/-- Place `inner` declarations inside the body of `outer`, behind its members. -/
def nestInside (outer : String) (inner : List String) : String :=
  let trimmed := trimEndText outer
  if inner.isEmpty then trimmed
  else
    match dropClosingBrace? trimmed with
    | none => trimmed
    | some body => trimEndText body ++ "\n\n" ++ "\n\n".intercalate inner ++ "\n\x7d"

/-- One file for each pair of type name and declaration, in order. -/
def perTypeFiles (declarations : List (String × String)) (header extension : String)
    (language : Target) : List SourceFile :=
  declarations.map fun (name, declaration) =>
    { filename := name ++ "." ++ extension
      content := stack header [declaration] ""
      language }

end Shapewright
