import Shapewright.Command.Run
import Shapewright.Generate
import Shapewright.Main
import Shapewright.Proofs.Plan.DependencyOrder
import Shapewright.Proofs.Plan.Expansion
import Shapewright.Proofs.Plan.NameForms
import Shapewright.Proofs.Rust.Schema
import Shapewright.Proofs.Text.Escapes
import Shapewright.Proofs.Json.DistinctNames
import Shapewright.Proofs.Schema.Reading
import Shapewright.Proofs.Schema.Sample
import Shapewright.Proofs.Command.FailedRuns
import Shapewright.Proofs.Command.Batches
import Shapewright.Proofs.Plan.Spelling
import Shapewright.Proofs.Plan.Widening
import Shapewright.Proofs.TypeScript.Pieces
import Shapewright.Proofs.TypeScript.Reading
import Shapewright.Proofs.TypeScript.Schema
import Shapewright.Proofs.TypeScript.TopLevelNames
import Shapewright.Proofs.C.TypeNames
import Shapewright.Proofs.Dialect.MemberNames
import Shapewright.Proofs.Dialect.ListRoots
import Shapewright.Proofs.Command.Printing
import Shapewright.Proofs.Dialect.SeparateFiles
import Shapewright.Proofs.Java.Lines
import Shapewright.Proofs.Java.Layouts
import Shapewright.Proofs.Java.Methods
import Shapewright.Proofs.Java.Accessors
import Shapewright.Proofs.Dialect.Packaging
import Shapewright.Proofs.Plan.Growth
import Shapewright.Proofs.Plan.Positions
import Shapewright.Proofs.Request.Stages
import Shapewright.Proofs.Rust.WireNames
import Shapewright.Proofs.Name.Identifiers
import Shapewright.Proofs.Dialect.MemberLayouts
import Shapewright.Proofs.Dialect.MemberForms
import Shapewright.Proofs.Name.Underscores
import Shapewright.Proofs.C.MemberNames
import Shapewright.Proofs.Text.Marks
import Shapewright.Proofs.Dialect.QuotedKeys
import Shapewright.Proofs.Go.Tags
import Shapewright.Proofs.Name.Grammars
import Shapewright.Proofs.Name.Breaks
import Shapewright.Proofs.Dialect.LanguageWords
import Shapewright.Proofs.CPlusPlus.MemberNames
import Shapewright.Proofs.Schema.Recovery
import Shapewright.Proofs.Shape.Samples
import Shapewright.Proofs.Options.Entries
import Shapewright.Proofs.Options.Decoding
import Shapewright.Proofs.Json.Prefixes
import Shapewright.Proofs.Json.Heads
import Shapewright.Proofs.Options.Texts
import Shapewright.Proofs.Dialect.TypeExpressions
import Shapewright.Proofs.JavaScript.Evaluation
import Shapewright.Proofs.JavaScript.Reading
import Shapewright.Proofs.JavaScript.Constructors
import Shapewright.Proofs.Text.Trimming
import Shapewright.Proofs.Request.RootNames
import Shapewright.Proofs.Command.Bags
