import Shapewright.Generate
import Shapewright.Options.OfText
import Shapewright.Query.Engine
import Shapewright.Files.Pattern

/-!
# Failures of commands

What can go wrong when a command runs. A message names the file or the input
that is concerned in front of what is wrong with it.
-/

namespace Shapewright

/-- Why a document has no part that was asked for. -/
inductive SelectionFailure where
  | unresolved (pointer : String)
  | query (failure : Query.Failure)
  deriving Repr, DecidableEq, Inhabited

def SelectionFailure.message : SelectionFailure → String
  | .unresolved pointer => "JSON pointer `" ++ pointer ++ "` does not resolve"
  | .query f => f.message

/-- Why a command fails. -/
inductive RunFailure where
  | generation (failure : Failure)
  /-- A pair without an equals sign. -/
  | noPair (text : String)
  | emptyKey (text : String)
  | badOptionsFile (path : String) (misfit : Options.TextMisfit)
  | badPattern (fault : Files.PatternFault)
  | noMatch (pattern : String)
  | unreadable (what : String) (fault : Files.Fault)
  | invalidDocument (label : String) (fault : Json.Fault)
  | unselected (label : String) (failure : SelectionFailure)
  /-- Several documents for one file. -/
  | severalInputs (count : Nat)
  /-- Several files for one file. -/
  | severalFiles
  | noDirectory (fault : Files.Fault)
  | unwritable (path : String) (fault : Files.Fault)
  deriving Repr, DecidableEq, Inhabited

def RunFailure.message : RunFailure → String
  | .generation f => f.message
  | .noPair text => "option `" ++ text ++ "` is not of the form key=value"
  | .emptyKey text => "option `" ++ text ++ "` has an empty key"
  | .badOptionsFile path misfit => "invalid options file " ++ path ++ ": " ++ misfit.message
  | .badPattern f => f.message
  | .noMatch pattern => "glob pattern matched no files: " ++ pattern
  | .unreadable what f => "failed to read " ++ what ++ ": " ++ f.message
  | .invalidDocument label f =>
    "failed to parse " ++ label ++ ": " ++ (Failure.invalidJson f).message ++ ": " ++ f.message
  | .unselected label f => "failed to select from " ++ label ++ ": " ++ f.message
  | .severalInputs count =>
    toString count ++ " inputs resolved; use --out-dir instead of --out"
  | .severalFiles => "multi-file output needs --out-dir"
  | .noDirectory f => f.message
  | .unwritable path f => "failed to write " ++ path ++ ": " ++ f.message

end Shapewright
