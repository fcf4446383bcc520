import SwitchLexicon.Browser
import SwitchLexicon.Bundled
import SwitchLexicon.Bundled.Interfaces
import SwitchLexicon.Bundled.Ip
import SwitchLexicon.Bundled.Management
import SwitchLexicon.Bundled.Platforms
import SwitchLexicon.Bundled.Security
import SwitchLexicon.Bundled.Switching
import SwitchLexicon.Bundled.Vlan
import SwitchLexicon.CommandLine.Answer
import SwitchLexicon.CommandLine.Arguments
import SwitchLexicon.CommandLine.Request
import SwitchLexicon.CommandLine.Run
import SwitchLexicon.CommandLine.Usage
import SwitchLexicon.Console.DetailView
import SwitchLexicon.Console.Highlight
import SwitchLexicon.Console.Markup
import SwitchLexicon.Console.Plain
import SwitchLexicon.Console.Renderable
import SwitchLexicon.Console.Report
import SwitchLexicon.Console.Screen
import SwitchLexicon.Detail.Basic
import SwitchLexicon.Detail.Record
import SwitchLexicon.Dictionary.Build
import SwitchLexicon.Dictionary.Construct
import SwitchLexicon.Dictionary.Load
import SwitchLexicon.Dictionary.Reading
import SwitchLexicon.Dictionary.Shape
import SwitchLexicon.Failure
import SwitchLexicon.Files.Basic
import SwitchLexicon.Files.Path
import SwitchLexicon.Highlight.Category
import SwitchLexicon.Highlight.Classify
import SwitchLexicon.Highlight.Segment
import SwitchLexicon.Index.Basic
import SwitchLexicon.Index.Popup
import SwitchLexicon.Index.Search
import SwitchLexicon.Journal.Basic
import SwitchLexicon.Journal.Row
import SwitchLexicon.Json.Reader
import SwitchLexicon.Json.Writer
import SwitchLexicon.Limit
import SwitchLexicon.Line.Split
import SwitchLexicon.Line.Suggestion
import SwitchLexicon.Main
import SwitchLexicon.Number.Binary64
import SwitchLexicon.Number.Shortest
import SwitchLexicon.Number.Whole
import SwitchLexicon.Proofs.Browser
import SwitchLexicon.Proofs.Bundled
import SwitchLexicon.Proofs.CommandLine.Course
import SwitchLexicon.Proofs.CommandLine.Messages
import SwitchLexicon.Proofs.CommandLine.Script
import SwitchLexicon.Proofs.CommandLine.Settings
import SwitchLexicon.Proofs.Console.Highlight
import SwitchLexicon.Proofs.Console.Markup
import SwitchLexicon.Proofs.Console.Screen
import SwitchLexicon.Proofs.Detail.Record
import SwitchLexicon.Proofs.Detail.Schema
import SwitchLexicon.Proofs.Dictionary.Accepted
import SwitchLexicon.Proofs.Dictionary.Built
import SwitchLexicon.Proofs.Dictionary.Construct
import SwitchLexicon.Proofs.Dictionary.Drafted
import SwitchLexicon.Proofs.Dictionary.Extent
import SwitchLexicon.Proofs.Dictionary.Load
import SwitchLexicon.Proofs.Dictionary.Malformed
import SwitchLexicon.Proofs.Dictionary.Nested
import SwitchLexicon.Proofs.Dictionary.Readings
import SwitchLexicon.Proofs.Dictionary.Skipped
import SwitchLexicon.Proofs.Files.Join
import SwitchLexicon.Proofs.Files.Put
import SwitchLexicon.Proofs.Highlight.Classify
import SwitchLexicon.Proofs.Highlight.Family
import SwitchLexicon.Proofs.Highlight.Language
import SwitchLexicon.Proofs.Highlight.LetterCase
import SwitchLexicon.Proofs.Highlight.Segment
import SwitchLexicon.Proofs.Index.Canonical
import SwitchLexicon.Proofs.Index.Disabled
import SwitchLexicon.Proofs.Index.Enumeration
import SwitchLexicon.Proofs.Index.Export
import SwitchLexicon.Proofs.Index.Inert
import SwitchLexicon.Proofs.Index.Lookup
import SwitchLexicon.Proofs.Index.Popup
import SwitchLexicon.Proofs.Index.Search
import SwitchLexicon.Proofs.Index.Statistics
import SwitchLexicon.Proofs.Journal.SetUp
import SwitchLexicon.Proofs.Journal.Sinks
import SwitchLexicon.Proofs.Json.Limits
import SwitchLexicon.Proofs.Json.RoundTrip
import SwitchLexicon.Proofs.Json.Values
import SwitchLexicon.Proofs.Json.Written
import SwitchLexicon.Proofs.Line.Acceptance
import SwitchLexicon.Proofs.Line.Cut
import SwitchLexicon.Proofs.Line.Offer
import SwitchLexicon.Proofs.Line.Split
import SwitchLexicon.Proofs.Line.Suggestion
import SwitchLexicon.Proofs.Session.Verdict
import SwitchLexicon.Proofs.Settings.Durable
import SwitchLexicon.Proofs.Settings.Merge
import SwitchLexicon.Proofs.Settings.Overlay
import SwitchLexicon.Proofs.Settings.Update
import SwitchLexicon.Proofs.Text.Beginning
import SwitchLexicon.Proofs.Text.CaseBlind
import SwitchLexicon.Proofs.Text.Encodable
import SwitchLexicon.Proofs.Text.Lines
import SwitchLexicon.Proofs.Text.Lowercase
import SwitchLexicon.Proofs.Text.Strip
import SwitchLexicon.Proofs.Text.Utf8
import SwitchLexicon.Proofs.Text.Words
import SwitchLexicon.Proofs.Toml.Complete
import SwitchLexicon.Proofs.Toml.Proper
import SwitchLexicon.Proofs.Tree.Alter
import SwitchLexicon.Proofs.Tree.Children
import SwitchLexicon.Proofs.Tree.Commands
import SwitchLexicon.Proofs.Tree.Draft
import SwitchLexicon.Proofs.Tree.Freeze
import SwitchLexicon.Proofs.Tree.Frozen
import SwitchLexicon.Proofs.Tree.Growth
import SwitchLexicon.Proofs.Tree.Language
import SwitchLexicon.Proofs.Tree.Path
import SwitchLexicon.Proofs.Tree.Shape
import SwitchLexicon.Proofs.Tree.Unfold
import SwitchLexicon.Proofs.Value.Mapping
import SwitchLexicon.Session.Basic
import SwitchLexicon.Session.Transcript
import SwitchLexicon.Session.Verdict
import SwitchLexicon.Settings.Merge
import SwitchLexicon.Settings.Store
import SwitchLexicon.Text.Blank
import SwitchLexicon.Text.CodeRange
import SwitchLexicon.Text.Digit
import SwitchLexicon.Text.Find
import SwitchLexicon.Text.Lines
import SwitchLexicon.Text.Lowercase
import SwitchLexicon.Text.Lowercase.Tables
import SwitchLexicon.Text.Printable
import SwitchLexicon.Text.Quoted
import SwitchLexicon.Text.Surrogate
import SwitchLexicon.Text.Uppercase
import SwitchLexicon.Text.Uppercase.Tables
import SwitchLexicon.Text.Utf8
import SwitchLexicon.Toml.Document
import SwitchLexicon.Toml.Reader
import SwitchLexicon.Toml.Scalar
import SwitchLexicon.Toml.Text
import SwitchLexicon.Toml.Writer
import SwitchLexicon.Tree.Basic
import SwitchLexicon.Tree.Draft
import SwitchLexicon.Tree.Path
import SwitchLexicon.Value.Basic
import SwitchLexicon.Value.Moment
import SwitchLexicon.Value.Quoted
