import SvgJsx.Batch.Claim
import SvgJsx.Batch.Convert
import SvgJsx.Batch.Run
import SvgJsx.Batch.Settings
import SvgJsx.Batch.Watch
import SvgJsx.Command.Convert
import SvgJsx.Command.Init
import SvgJsx.Command.Result
import SvgJsx.CommandLine.Arguments
import SvgJsx.CommandLine.Basic
import SvgJsx.CommandLine.Region
import SvgJsx.CommandLine.Run
import SvgJsx.Component.Name
import SvgJsx.Component.Template
import SvgJsx.Config.Basic
import SvgJsx.Convert.Error
import SvgJsx.Convert.Pipeline
import SvgJsx.Decimal.Range
import SvgJsx.FileTree.Basic
import SvgJsx.FileTree.Error
import SvgJsx.FileTree.Walk
import SvgJsx.FileTree.Write
import SvgJsx.Json.Number
import SvgJsx.Json.Token
import SvgJsx.Json.Value
import SvgJsx.Json.Written
import SvgJsx.Log
import SvgJsx.Main
import SvgJsx.Markup.AttributeName
import SvgJsx.Markup.Root
import SvgJsx.Markup.Scanner
import SvgJsx.Network.Address
import SvgJsx.Path.Basic
import SvgJsx.Path.Order
import SvgJsx.Path.Relative
import SvgJsx.Path.Svg
import SvgJsx.Playground.Answer
import SvgJsx.Playground.Channel
import SvgJsx.Playground.Connection
import SvgJsx.Playground.Http
import SvgJsx.Playground.Hub
import SvgJsx.Playground.MediaType
import SvgJsx.Playground.Message
import SvgJsx.Playground.Page
import SvgJsx.Playground.Request
import SvgJsx.Playground.Watching
import SvgJsx.Proofs.Batch.AnyOrder
import SvgJsx.Proofs.Batch.Building
import SvgJsx.Proofs.Batch.Claiming
import SvgJsx.Proofs.Batch.Converting
import SvgJsx.Proofs.Batch.FirstCome
import SvgJsx.Proofs.Batch.Handling
import SvgJsx.Proofs.Batch.Leaving
import SvgJsx.Proofs.Batch.Merging
import SvgJsx.Proofs.Batch.Mirroring
import SvgJsx.Proofs.Batch.Reporting
import SvgJsx.Proofs.Batch.Sparing
import SvgJsx.Proofs.Batch.Storing
import SvgJsx.Proofs.Batch.Targets
import SvgJsx.Proofs.Batch.Watching
import SvgJsx.Proofs.CommandLine.Naming
import SvgJsx.Proofs.Component.Name
import SvgJsx.Proofs.Component.Runs
import SvgJsx.Proofs.Convert.Agreement
import SvgJsx.Proofs.Convert.Effect
import SvgJsx.Proofs.Convert.Naming
import SvgJsx.Proofs.Convert.Recognition
import SvgJsx.Proofs.FileTree.Adding
import SvgJsx.Proofs.FileTree.Changing
import SvgJsx.Proofs.FileTree.Creating
import SvgJsx.Proofs.FileTree.Drawings
import SvgJsx.Proofs.FileTree.Keeping
import SvgJsx.Proofs.FileTree.Landmarks
import SvgJsx.Proofs.FileTree.Nodes
import SvgJsx.Proofs.FileTree.Raising
import SvgJsx.Proofs.FileTree.Walking
import SvgJsx.Proofs.Json.Numerals
import SvgJsx.Proofs.Json.Spelling
import SvgJsx.Proofs.Json.Strings
import SvgJsx.Proofs.Markup.Appending
import SvgJsx.Proofs.Markup.Assigned
import SvgJsx.Proofs.Markup.Balance
import SvgJsx.Proofs.Markup.Counting
import SvgJsx.Proofs.Markup.Document
import SvgJsx.Proofs.Markup.Framing
import SvgJsx.Proofs.Markup.OctetScan
import SvgJsx.Proofs.Markup.Passing
import SvgJsx.Proofs.Markup.Places
import SvgJsx.Proofs.Markup.Reading
import SvgJsx.Proofs.Markup.Rescanning
import SvgJsx.Proofs.Markup.Scanning
import SvgJsx.Proofs.Markup.Spans
import SvgJsx.Proofs.Markup.Stepping
import SvgJsx.Proofs.Markup.Words
import SvgJsx.Proofs.Path.Components
import SvgJsx.Proofs.Path.FileNames
import SvgJsx.Proofs.Path.Joining
import SvgJsx.Proofs.Path.Steps
import SvgJsx.Proofs.Playground.Accounting
import SvgJsx.Proofs.Playground.Answering
import SvgJsx.Proofs.Playground.Backlog
import SvgJsx.Proofs.Playground.Naming
import SvgJsx.Proofs.Playground.RoundTrip
import SvgJsx.Proofs.Playground.Serving
import SvgJsx.Proofs.Session.Acting
import SvgJsx.Proofs.Text.BeforeEquals
import SvgJsx.Proofs.Text.Infix
import SvgJsx.Proofs.Text.Letters
import SvgJsx.Proofs.Text.Passes
import SvgJsx.Proofs.Text.Replacing
import SvgJsx.Proofs.Transform.CamelNames
import SvgJsx.Proofs.Transform.CamelTexts
import SvgJsx.Proofs.Transform.ClassNames
import SvgJsx.Proofs.Transform.Hyphens
import SvgJsx.Proofs.Transform.KeptNames
import SvgJsx.Proofs.Transform.ModeAgreement
import SvgJsx.Proofs.Transform.Patterns
import SvgJsx.Proofs.Transform.RenamedPlaces
import SvgJsx.Proofs.Transform.Stages
import SvgJsx.Proofs.Transform.StyleDeclarations
import SvgJsx.Proofs.Transform.StyleLiteral
import SvgJsx.Proofs.Transform.StyleNames
import SvgJsx.Proofs.Transform.TableAfterCamelCase
import SvgJsx.Proofs.Transform.TableAtOnce
import SvgJsx.Proofs.Transform.TableWords
import SvgJsx.Proofs.Transform.Tree
import SvgJsx.Proofs.Transform.TreeRewrite
import SvgJsx.Session
import SvgJsx.Text.Basic
import SvgJsx.Text.Blank
import SvgJsx.Text.CharRanges
import SvgJsx.Text.Quoted
import SvgJsx.Text.Reader
import SvgJsx.Text.Substitution
import SvgJsx.Text.Unprintable
import SvgJsx.Text.WordChar
import SvgJsx.Toml.Item
import SvgJsx.Toml.Reader
import SvgJsx.Toml.Scalar
import SvgJsx.Transform.CamelCase
import SvgJsx.Transform.ClassName
import SvgJsx.Transform.RenameTable
import SvgJsx.Transform.Rule
import SvgJsx.Transform.Stage
import SvgJsx.Transform.Style
import SvgJsx.WatchEvent
