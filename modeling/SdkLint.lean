import SdkLint.Analysis.Basic
import SdkLint.Analysis.Run
import SdkLint.Cause.Flow
import SdkLint.Cause.Policy
import SdkLint.CommandLine.Arguments
import SdkLint.CommandLine.ConfigSource
import SdkLint.CommandLine.InitialConfig
import SdkLint.CommandLine.Outlook
import SdkLint.CommandLine.RuleList
import SdkLint.CommandLine.Run
import SdkLint.Config.Basic
import SdkLint.Config.Decode
import SdkLint.Decimal.Shortest
import SdkLint.Files.Discovery
import SdkLint.Files.Disk
import SdkLint.Files.Glob
import SdkLint.Files.IgnoreFile
import SdkLint.Files.Path
import SdkLint.Files.Pattern
import SdkLint.Finding.Basic
import SdkLint.Finding.Directive
import SdkLint.Finding.Json
import SdkLint.Finding.Listing
import SdkLint.Java.Concrete
import SdkLint.Java.Listing
import SdkLint.Java.Parse
import SdkLint.Json.Value
import SdkLint.Main
import SdkLint.Proofs.Analysis.Assembly
import SdkLint.Proofs.Analysis.Listings
import SdkLint.Proofs.Cause.Trace
import SdkLint.Proofs.Exceptions.Assigned
import SdkLint.Proofs.Exceptions.Rethrown
import SdkLint.Proofs.Exceptions.Stored
import SdkLint.Proofs.Exceptions.Thrown
import SdkLint.Proofs.Files.FolderPatterns
import SdkLint.Proofs.Files.PathOrder
import SdkLint.Proofs.FinalFields.Attribution
import SdkLint.Proofs.FinalFields.BareWrites
import SdkLint.Proofs.FinalFields.Frames
import SdkLint.Proofs.FinalFields.OwnWrites
import SdkLint.Proofs.FinalFields.Run
import SdkLint.Proofs.FinalFields.Writes
import SdkLint.Proofs.Finding.AllowedLines
import SdkLint.Proofs.Finding.BlockDirectives
import SdkLint.Proofs.Finding.CompactLines
import SdkLint.Proofs.Finding.Order
import SdkLint.Proofs.Finding.RoundTrip
import SdkLint.Proofs.Finding.WrittenDirectives
import SdkLint.Proofs.Java.Faults
import SdkLint.Proofs.Java.Offsets
import SdkLint.Proofs.Java.Origins
import SdkLint.Proofs.Java.Places
import SdkLint.Proofs.Java.Translation
import SdkLint.Proofs.Rules.BannedSegments
import SdkLint.Proofs.Rules.BannedTypes
import SdkLint.Proofs.Rules.FieldOwners
import SdkLint.Proofs.Rules.FromCatalogue
import SdkLint.Proofs.Rules.JavadocAnchors
import SdkLint.Proofs.Rules.JavadocMarks
import SdkLint.Proofs.Rules.JavadocSpacing
import SdkLint.Proofs.Rules.Locations
import SdkLint.Proofs.Rules.MarkerReadings
import SdkLint.Proofs.Rules.Messages
import SdkLint.Proofs.Rules.Quotations
import SdkLint.Proofs.Rules.StayOn
import SdkLint.Proofs.Rules.Verdicts
import SdkLint.Proofs.Scope.LocalOrder
import SdkLint.Proofs.Scope.Resolution
import SdkLint.Proofs.Scope.Surroundings
import SdkLint.Proofs.Text.ByteCounts
import SdkLint.Proofs.Text.Cuts
import SdkLint.Proofs.Text.LineStarts
import SdkLint.Proofs.Text.NumberedLines
import SdkLint.Proofs.Text.Occurrences
import SdkLint.Proofs.Text.Offsets
import SdkLint.Proofs.Text.OneLine
import SdkLint.Proofs.Text.Stretches
import SdkLint.Proofs.Tree.AddedComments
import SdkLint.Proofs.Tree.Building
import SdkLint.Proofs.Tree.Journey
import SdkLint.Proofs.Tree.Members
import SdkLint.Proofs.Tree.Numbering
import SdkLint.Proofs.Tree.Order
import SdkLint.Proofs.Tree.Outline
import SdkLint.Proofs.Tree.Parentheses
import SdkLint.Proofs.Tree.Tour
import SdkLint.Proofs.Types.Ancestry
import SdkLint.Proofs.Types.Chain
import SdkLint.Proofs.Types.Knowledge
import SdkLint.Proofs.Walk.Answers
import SdkLint.Proofs.Walk.Calls
import SdkLint.Proofs.Walk.Emission
import SdkLint.Proofs.Walk.Isolation
import SdkLint.Proofs.Walk.Loop
import SdkLint.Proofs.Walk.Names
import SdkLint.Proofs.Walk.Parallel
import SdkLint.Proofs.Walk.Remarks
import SdkLint.Proofs.Walk.Responses
import SdkLint.Proofs.Walk.Scopes
import SdkLint.Proofs.Walk.Severities
import SdkLint.Proofs.Walk.Suppression
import SdkLint.Rule.Basic
import SdkLint.Rule.Context
import SdkLint.Rule.Dispatch
import SdkLint.Rule.Scripted
import SdkLint.Rule.Walk
import SdkLint.Rules.BannedApi
import SdkLint.Rules.Catalogue
import SdkLint.Rules.CauseKept
import SdkLint.Rules.ClientShape
import SdkLint.Rules.DirectThrow
import SdkLint.Rules.Expression
import SdkLint.Rules.FinalFields
import SdkLint.Rules.ImmutableFields
import SdkLint.Rules.Javadoc
import SdkLint.Rules.LoggedThrown
import SdkLint.Rules.LoggerThrow
import SdkLint.Rules.Logging
import SdkLint.Scope.Declared
import SdkLint.Scope.Stack
import SdkLint.Text.Blank
import SdkLint.Text.Lines
import SdkLint.Text.Pieces
import SdkLint.Text.Printable
import SdkLint.Text.Quoted
import SdkLint.Text.Slice
import SdkLint.Text.Upper
import SdkLint.Toml.Document
import SdkLint.Toml.Scalar
import SdkLint.Toml.Value
import SdkLint.Tree.Basic
import SdkLint.Tree.Builder
import SdkLint.Tree.Kind
import SdkLint.Tree.Query
import SdkLint.Tree.Traversal
