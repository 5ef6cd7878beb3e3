import Stepwise.Command.Flag
import Stepwise.Command.Help
import Stepwise.Command.Run
import Stepwise.Command.Tree
import Stepwise.Configuration.Apply
import Stepwise.Configuration.Basic
import Stepwise.Diff.Bisect
import Stepwise.Diff.Distance
import Stepwise.Diff.Edit
import Stepwise.Diff.Halves
import Stepwise.Diff.Tidy
import Stepwise.Document.Basic
import Stepwise.Document.Completion
import Stepwise.Document.Cursor
import Stepwise.Document.Diagnostics
import Stepwise.Document.Fixes
import Stepwise.Document.Folding
import Stepwise.Document.Hover
import Stepwise.Document.LineClass
import Stepwise.Document.Links
import Stepwise.Document.Span
import Stepwise.Document.StepLine
import Stepwise.Document.Store
import Stepwise.Editor.Connection
import Stepwise.Editor.Diagnostic
import Stepwise.Editor.Frame
import Stepwise.Editor.Params
import Stepwise.Editor.Position
import Stepwise.Editor.Result
import Stepwise.Editor.Server
import Stepwise.Json.Compact
import Stepwise.Json.Extent
import Stepwise.Json.Fault
import Stepwise.Json.Read
import Stepwise.Json.Reader
import Stepwise.Json.Stream
import Stepwise.Json.Value
import Stepwise.Keyword.Basic
import Stepwise.Keyword.Kind
import Stepwise.Keyword.Lexicon
import Stepwise.Keyword.NearMiss
import Stepwise.Language.Registry
import Stepwise.Language.Tag
import Stepwise.Location.Basic
import Stepwise.Location.Path
import Stepwise.Location.Percent
import Stepwise.Location.Uri
import Stepwise.Log.Event
import Stepwise.Log.Line
import Stepwise.Main
import Stepwise.Number.Binary64
import Stepwise.Number.Decimal
import Stepwise.Number.Literal
import Stepwise.Number.Power
import Stepwise.Number.Word
import Stepwise.Payload.Basic
import Stepwise.Payload.Decode
import Stepwise.Payload.Field
import Stepwise.Proofs.AddedDeclarations
import Stepwise.Proofs.BoundedAccess
import Stepwise.Proofs.BoundedAnswers
import Stepwise.Proofs.BoundedDocuments
import Stepwise.Proofs.BoundedKeywords
import Stepwise.Proofs.BoundedLines
import Stepwise.Proofs.BoundedRegistries
import Stepwise.Proofs.CapitalLetters
import Stepwise.Proofs.CapitalizedKeywords
import Stepwise.Proofs.CompletedVariables
import Stepwise.Proofs.DeclaredLexicon
import Stepwise.Proofs.DeclaredRegistries
import Stepwise.Proofs.DocumentHistory
import Stepwise.Proofs.EditDistance
import Stepwise.Proofs.EditScripts
import Stepwise.Proofs.EditedLines
import Stepwise.Proofs.FencedLines
import Stepwise.Proofs.FlaggedLines
import Stepwise.Proofs.FlatFolds
import Stepwise.Proofs.FlowScalars
import Stepwise.Proofs.FlowScanning
import Stepwise.Proofs.FlowTokens
import Stepwise.Proofs.FlowTree
import Stepwise.Proofs.FoldRanges
import Stepwise.Proofs.HoverAgreement
import Stepwise.Proofs.IndependentRequests
import Stepwise.Proofs.InstalledSteps
import Stepwise.Proofs.JoinedWords
import Stepwise.Proofs.JsonCompaction
import Stepwise.Proofs.JsonExtent
import Stepwise.Proofs.JsonGrammar
import Stepwise.Proofs.JsonLines
import Stepwise.Proofs.JsonReading
import Stepwise.Proofs.JsonStreams
import Stepwise.Proofs.JsonTree
import Stepwise.Proofs.JsonWriting
import Stepwise.Proofs.KeyedItems
import Stepwise.Proofs.LineContent
import Stepwise.Proofs.LineReading
import Stepwise.Proofs.LineScans
import Stepwise.Proofs.LinkedNames
import Stepwise.Proofs.LongestPhrases
import Stepwise.Proofs.MemoFreshness
import Stepwise.Proofs.MentionedNames
import Stepwise.Proofs.NearestKeyword
import Stepwise.Proofs.NearestSteps
import Stepwise.Proofs.NumberText
import Stepwise.Proofs.Numerals
import Stepwise.Proofs.PayloadShapes
import Stepwise.Proofs.PlainScalars
import Stepwise.Proofs.PublishedDiagnostics
import Stepwise.Proofs.RegistryFiles
import Stepwise.Proofs.RegistryReplacement
import Stepwise.Proofs.RenderedPayloads
import Stepwise.Proofs.RepairedLines
import Stepwise.Proofs.RepeatedKeys
import Stepwise.Proofs.ReplacedTokens
import Stepwise.Proofs.RequestHead
import Stepwise.Proofs.RequestReplies
import Stepwise.Proofs.ScannedTokens
import Stepwise.Proofs.SchemaAcceptance
import Stepwise.Proofs.SectionValues
import Stepwise.Proofs.SessionRun
import Stepwise.Proofs.SettledReaders
import Stepwise.Proofs.SettledRecords
import Stepwise.Proofs.SpelledTrees
import Stepwise.Proofs.StepLookup
import Stepwise.Proofs.SuggestedImports
import Stepwise.Proofs.SuppliedMarkers
import Stepwise.Proofs.TransmittedValues
import Stepwise.Proofs.TypedSteps
import Stepwise.Proofs.UnchangedShapes
import Stepwise.Proofs.ValidDirectives
import Stepwise.Proofs.ValidPayloads
import Stepwise.Proofs.WorkerLines
import Stepwise.Registry.Imports
import Stepwise.Registry.Steps
import Stepwise.Registry.Variables
import Stepwise.Reply.Basic
import Stepwise.Request.Basic
import Stepwise.Request.Decode
import Stepwise.Schema.Basic
import Stepwise.Schema.Configuration
import Stepwise.Schema.Violation
import Stepwise.Session.Basic
import Stepwise.Session.RegistryFile
import Stepwise.Session.Worker
import Stepwise.Settings.Basic
import Stepwise.Settings.Duration
import Stepwise.Settings.File
import Stepwise.Settings.Load
import Stepwise.Settings.Value
import Stepwise.Step.Index
import Stepwise.Step.Placeholder
import Stepwise.Step.Shape
import Stepwise.Text.Blank
import Stepwise.Text.Casing.Basic
import Stepwise.Text.Casing.Fold
import Stepwise.Text.Casing.Lower
import Stepwise.Text.Casing.Property
import Stepwise.Text.Casing.Run
import Stepwise.Text.Casing.Upper
import Stepwise.Text.Hex
import Stepwise.Text.Line
import Stepwise.Text.Printable
import Stepwise.Text.Quoted
import Stepwise.Toml.Document
import Stepwise.Toml.Scalar
import Stepwise.Toml.Text
import Stepwise.Yaml.Binary
import Stepwise.Yaml.Block
import Stepwise.Yaml.Document
import Stepwise.Yaml.Expansion
import Stepwise.Yaml.Fault
import Stepwise.Yaml.Gap
import Stepwise.Yaml.Input
import Stepwise.Yaml.Node
import Stepwise.Yaml.Plain
import Stepwise.Yaml.Properties
import Stepwise.Yaml.Quoted
import Stepwise.Yaml.Scalar
import Stepwise.Yaml.Scanner
import Stepwise.Yaml.Timestamp
import Stepwise.Yaml.Token
import Stepwise.Yaml.Value
