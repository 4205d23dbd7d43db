import WikiTypeset.Action
import WikiTypeset.Article.Figures
import WikiTypeset.Article.Formulas
import WikiTypeset.Article.Lists
import WikiTypeset.Article.Page
import WikiTypeset.Article.Prose
import WikiTypeset.Article.Role
import WikiTypeset.Article.Switch
import WikiTypeset.Article.Typesetter
import WikiTypeset.Article.Walk
import WikiTypeset.Bidi.Class
import WikiTypeset.Bidi.ClassTable
import WikiTypeset.Bidi.Explicit
import WikiTypeset.Bidi.Paragraph
import WikiTypeset.Bidi.Resolve
import WikiTypeset.Bundle.Outline
import WikiTypeset.Bundle.Store
import WikiTypeset.Bundle.TableFile
import WikiTypeset.Bundle.Workspace
import WikiTypeset.Collection.Header
import WikiTypeset.Collection.Sources
import WikiTypeset.CommandLine.Arguments
import WikiTypeset.CommandLine.Diagnostics
import WikiTypeset.CommandLine.Session
import WikiTypeset.Conversion.Compilation
import WikiTypeset.Conversion.Convert
import WikiTypeset.Conversion.Failure
import WikiTypeset.Conversion.Workshop
import WikiTypeset.Files.Archive
import WikiTypeset.Files.Bytes
import WikiTypeset.Files.Change
import WikiTypeset.Files.Deflate
import WikiTypeset.Files.Path
import WikiTypeset.Files.Tree
import WikiTypeset.Formula.Check
import WikiTypeset.Formula.Dialect
import WikiTypeset.Formula.Lexeme
import WikiTypeset.Formula.Signature
import WikiTypeset.Formula.Tree
import WikiTypeset.Html.Annotation
import WikiTypeset.Html.BaseReference
import WikiTypeset.Html.Document
import WikiTypeset.Html.Entity
import WikiTypeset.Html.EntityTable
import WikiTypeset.Html.Node
import WikiTypeset.Html.Place
import WikiTypeset.Html.Selector
import WikiTypeset.Html.Token
import WikiTypeset.Json.Reader
import WikiTypeset.Json.Value
import WikiTypeset.Language.Lookup
import WikiTypeset.Language.Setup
import WikiTypeset.Language.Table
import WikiTypeset.Latex.Decoration
import WikiTypeset.Latex.Emitter
import WikiTypeset.Latex.Escape
import WikiTypeset.Latex.Operation
import WikiTypeset.Latex.UrlSpan
import WikiTypeset.Log
import WikiTypeset.Main
import WikiTypeset.Media.Preparation
import WikiTypeset.Media.SafeName
import WikiTypeset.Media.Tools
import WikiTypeset.Number.Double
import WikiTypeset.Number.Reader
import WikiTypeset.Number.Shortest
import WikiTypeset.Number.Whole
import WikiTypeset.Options.Article
import WikiTypeset.Options.Conversion
import WikiTypeset.Options.Setting
import WikiTypeset.Progress.Reporter
import WikiTypeset.Proofs.Article.Anomalies
import WikiTypeset.Proofs.Article.Bearings
import WikiTypeset.Proofs.Article.Blocks
import WikiTypeset.Proofs.Article.Calm
import WikiTypeset.Proofs.Collection.Sections
import WikiTypeset.Proofs.Article.Cleared
import WikiTypeset.Proofs.Article.Composes
import WikiTypeset.Proofs.Article.Layout
import WikiTypeset.Proofs.Article.Declarations
import WikiTypeset.Proofs.Article.Documents
import WikiTypeset.Proofs.Article.Enclosure
import WikiTypeset.Proofs.Article.Endings
import WikiTypeset.Proofs.Article.Standing
import WikiTypeset.Proofs.Article.Ground
import WikiTypeset.Proofs.Article.Handlers
import WikiTypeset.Proofs.Article.Hiding
import WikiTypeset.Proofs.Article.Links
import WikiTypeset.Proofs.Article.Lists
import WikiTypeset.Proofs.Article.Matching
import WikiTypeset.Proofs.Article.Openings
import WikiTypeset.Proofs.Article.Origins
import WikiTypeset.Proofs.Article.Passages
import WikiTypeset.Proofs.Article.Settings
import WikiTypeset.Proofs.Article.Skeleton
import WikiTypeset.Proofs.Article.Sources
import WikiTypeset.Proofs.Article.Succession
import WikiTypeset.Proofs.Article.Texts
import WikiTypeset.Proofs.Article.Visits
import WikiTypeset.Proofs.Article.Walks
import WikiTypeset.Proofs.Article.Warnings
import WikiTypeset.Proofs.Article.Crossing
import WikiTypeset.Proofs.Article.Handing
import WikiTypeset.Proofs.Article.Termination
import WikiTypeset.Proofs.Article.Wording
import WikiTypeset.Proofs.Bidi.Levels
import WikiTypeset.Proofs.Bidi.Partition
import WikiTypeset.Proofs.Bidi.Settled
import WikiTypeset.Proofs.Bidi.Unassigned
import WikiTypeset.Proofs.Bundle.Workspace
import WikiTypeset.Proofs.Collection.Course
import WikiTypeset.Proofs.Collection.Deeds
import WikiTypeset.Proofs.Collection.Inputs
import WikiTypeset.Proofs.Collection.Steps
import WikiTypeset.Proofs.Conversion.Clearing
import WikiTypeset.Proofs.Conversion.Closing
import WikiTypeset.Proofs.Conversion.Course
import WikiTypeset.Proofs.Conversion.Inside
import WikiTypeset.Proofs.Conversion.Proceeding
import WikiTypeset.Proofs.Conversion.Workshop
import WikiTypeset.Proofs.Conversion.Fresh
import WikiTypeset.Proofs.Emission.Account
import WikiTypeset.Proofs.Emission.Bearings
import WikiTypeset.Proofs.Emission.Braced
import WikiTypeset.Proofs.Emission.Coupling
import WikiTypeset.Proofs.Emission.Detached
import WikiTypeset.Proofs.Emission.Directions
import WikiTypeset.Proofs.Emission.Environments
import WikiTypeset.Proofs.Emission.Exposure
import WikiTypeset.Proofs.Emission.Following
import WikiTypeset.Proofs.Emission.Footing
import WikiTypeset.Proofs.Emission.Formatting
import WikiTypeset.Proofs.Emission.OptionalArguments
import WikiTypeset.Proofs.Emission.Gather
import WikiTypeset.Proofs.Emission.Held
import WikiTypeset.Proofs.Emission.Ledger
import WikiTypeset.Proofs.Emission.LineBreaks
import WikiTypeset.Proofs.Emission.Keeping
import WikiTypeset.Proofs.Emission.Onset
import WikiTypeset.Proofs.Emission.Reached
import WikiTypeset.Proofs.Emission.Reading
import WikiTypeset.Proofs.Emission.Replay
import WikiTypeset.Proofs.Emission.Runs
import WikiTypeset.Proofs.Emission.Shown
import WikiTypeset.Proofs.Emission.Stance
import WikiTypeset.Proofs.Emission.Supply
import WikiTypeset.Proofs.Emission.Watched
import WikiTypeset.Proofs.Emission.Weave
import WikiTypeset.Proofs.Emission.WellNested
import WikiTypeset.Proofs.Files.Entries
import WikiTypeset.Proofs.Files.Contents
import WikiTypeset.Proofs.Files.Places
import WikiTypeset.Proofs.Formula.Apart
import WikiTypeset.Proofs.Formula.Arguments
import WikiTypeset.Proofs.Formula.Commands
import WikiTypeset.Proofs.Formula.Fuel
import WikiTypeset.Proofs.Formula.Grouping
import WikiTypeset.Proofs.Formula.Lexemes
import WikiTypeset.Proofs.Formula.Standard
import WikiTypeset.Proofs.Formula.Reader
import WikiTypeset.Proofs.Formula.Rules
import WikiTypeset.Proofs.Formula.Safety
import WikiTypeset.Proofs.Formula.Translation
import WikiTypeset.Proofs.Html.Hidden
import WikiTypeset.Proofs.Html.Surroundings
import WikiTypeset.Proofs.Language.Setup
import WikiTypeset.Proofs.Leaves
import WikiTypeset.Proofs.Media.Preparation
import WikiTypeset.Proofs.Media.Contents
import WikiTypeset.Proofs.Media.Mapping
import WikiTypeset.Proofs.Media.SafeNames
import WikiTypeset.Proofs.Progress.Stages
import WikiTypeset.Proofs.Tex.Braces
import WikiTypeset.Proofs.Tex.Brackets
import WikiTypeset.Proofs.Tex.Decoded
import WikiTypeset.Proofs.Tex.Escaped
import WikiTypeset.Proofs.Tex.LatinSpans
import WikiTypeset.Proofs.Tex.LineEnds
import WikiTypeset.Proofs.Tex.OneLine
import WikiTypeset.Proofs.Tex.Opening
import WikiTypeset.Proofs.Tex.SetUnits
import WikiTypeset.Proofs.Tex.Tokens
import WikiTypeset.Proofs.Tex.Urls
import WikiTypeset.Reference.Parts
import WikiTypeset.Reference.Resolve
import WikiTypeset.Text.Blank
import WikiTypeset.Text.CharClass
import WikiTypeset.Text.LetterTable
import WikiTypeset.Text.LowerCase
import WikiTypeset.Text.Quoted
import WikiTypeset.Text.Ranges
import WikiTypeset.Text.Segment
import WikiTypeset.Proofs.Bidi.Strong
import WikiTypeset.Proofs.Bidi.Uniform
import WikiTypeset.Proofs.Pairs
import WikiTypeset.Proofs.Emission.Pairing
import WikiTypeset.Proofs.Emission.Unmarked
import WikiTypeset.Proofs.Bidi.Isolates
