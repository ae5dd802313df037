import ClassForge.Blueprint.Basic
import ClassForge.Blueprint.Build
import ClassForge.Blueprint.Codec
import ClassForge.Command.Arguments
import ClassForge.Command.Request
import ClassForge.Command.Run
import ClassForge.Digest.Sha256
import ClassForge.Double.Basic
import ClassForge.Double.Decimal
import ClassForge.Double.Layout
import ClassForge.Files.Access
import ClassForge.Files.Lossy
import ClassForge.Files.Path
import ClassForge.Files.Store
import ClassForge.Inflection.Inflector
import ClassForge.Inflection.Marker
import ClassForge.Json.Parse
import ClassForge.Json.Read
import ClassForge.Json.Text
import ClassForge.Json.Value
import ClassForge.Literal.Basic
import ClassForge.Literal.Canonical
import ClassForge.Literal.Codec
import ClassForge.Main
import ClassForge.Name.ClassName
import ClassForge.Name.Identifier
import ClassForge.Name.Segment
import ClassForge.Name.SourceName
import ClassForge.Output.Directory
import ClassForge.Output.Emit
import ClassForge.Output.Failure
import ClassForge.Output.Settings
import ClassForge.Pass.Basic
import ClassForge.Pass.ClassEdit
import ClassForge.Pass.Methods
import ClassForge.Pass.Renamer
import ClassForge.Pass.Resolver
import ClassForge.Pass.Scope
import ClassForge.Pass.Traverser
import ClassForge.Pass.Visitor
import ClassForge.Proofs.Blueprint.Faithfulness
import ClassForge.Proofs.Blueprint.Reading
import ClassForge.Proofs.Blueprint.Recording
import ClassForge.Proofs.Command.AllOrNothing
import ClassForge.Proofs.Command.Confinement
import ClassForge.Proofs.Command.Generation
import ClassForge.Proofs.Double.Reading
import ClassForge.Proofs.Files.ClassFiles
import ClassForge.Proofs.Files.Directories
import ClassForge.Proofs.Files.Placement
import ClassForge.Proofs.Inflection.Collisions
import ClassForge.Proofs.Inflection.Generated
import ClassForge.Proofs.Inflection.Inversion
import ClassForge.Proofs.Inflection.ParsedNames
import ClassForge.Proofs.Json.Numbers
import ClassForge.Proofs.Json.Records
import ClassForge.Proofs.Json.RoundTrip
import ClassForge.Proofs.Literal.Numerals
import ClassForge.Proofs.Literal.RoundTrip
import ClassForge.Proofs.Literal.UniqueDecoding
import ClassForge.Proofs.Literal.UniqueReading
import ClassForge.Proofs.Name.Grammar
import ClassForge.Proofs.Name.Segments
import ClassForge.Proofs.Pass.Acceptance
import ClassForge.Proofs.Pass.Calls
import ClassForge.Proofs.Pass.Commuting
import ClassForge.Proofs.Pass.Disabling
import ClassForge.Proofs.Pass.Discipline
import ClassForge.Proofs.Pass.HeadEdits
import ClassForge.Proofs.Pass.HeadFaults
import ClassForge.Proofs.Pass.HeadRuns
import ClassForge.Proofs.Pass.Histories
import ClassForge.Proofs.Pass.Judged
import ClassForge.Proofs.Pass.Moving
import ClassForge.Proofs.Pass.Renaming
import ClassForge.Proofs.Pass.Resolution
import ClassForge.Proofs.Pass.Simulation
import ClassForge.Proofs.Pass.SingleClass
import ClassForge.Proofs.Pass.Viewing
import ClassForge.Proofs.Pass.Walk
import ClassForge.Proofs.Registry.Evaluation
import ClassForge.Proofs.Registry.Loading
import ClassForge.Proofs.Registry.Runs
import ClassForge.Proofs.Registry.Sessions
import ClassForge.Proofs.Source.Joining
import ClassForge.Proofs.Source.Phrases
import ClassForge.Proofs.Source.Scanning
import ClassForge.Proofs.Tree.Contents
import ClassForge.Proofs.Tree.Declarations
import ClassForge.Proofs.Tree.Opening
import ClassForge.Proofs.Tree.Plain
import ClassForge.Proofs.Tree.Printing
import ClassForge.Proofs.Tree.RoundTrip
import ClassForge.Proofs.Tree.Statements
import ClassForge.Registry.Autoload
import ClassForge.Registry.Basic
import ClassForge.Source.Declared
import ClassForge.Source.OpenTag
import ClassForge.Source.Token
import ClassForge.Tree.Basic
import ClassForge.Tree.Codec
import ClassForge.Tree.Source
