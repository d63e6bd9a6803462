import Scaffold.Assembly.Application
import Scaffold.Assembly.Generate
import Scaffold.Assembly.Module
import Scaffold.Assembly.RawTree
import Scaffold.Assembly.Relying
import Scaffold.Assembly.Tree
import Scaffold.BaseCode.Basic
import Scaffold.BaseCode.Bundled
import Scaffold.BaseCode.Directory
import Scaffold.Command.Arguments
import Scaffold.Command.Completion
import Scaffold.Command.Configure
import Scaffold.Command.Console
import Scaffold.Command.Failure
import Scaffold.Command.Grammar
import Scaffold.Command.Host
import Scaffold.Command.Invocation
import Scaffold.Command.Machine
import Scaffold.Command.Paint
import Scaffold.Command.Run
import Scaffold.Command.Tasks
import Scaffold.Command.Usage
import Scaffold.Decimal.Double
import Scaffold.Decimal.Shortest
import Scaffold.Decimal.Text
import Scaffold.Disk.Basic
import Scaffold.Disk.Store
import Scaffold.Error.Project
import Scaffold.Error.Run
import Scaffold.Fragment.Aggregate
import Scaffold.Fragment.Form
import Scaffold.Fragment.Relation
import Scaffold.Json.Cursor
import Scaffold.Json.Fault
import Scaffold.Json.Number
import Scaffold.Json.Record
import Scaffold.Json.Scalar
import Scaffold.Json.Skip
import Scaffold.Json.Value
import Scaffold.Main
import Scaffold.Path.Basic
import Scaffold.Path.Contained
import Scaffold.Path.Map
import Scaffold.Path.Raw
import Scaffold.Path.Segment
import Scaffold.Project.Basic
import Scaffold.Project.Check
import Scaffold.Project.Input
import Scaffold.Project.Load
import Scaffold.Proofs.Assembly.Application
import Scaffold.Proofs.Assembly.Bundled
import Scaffold.Proofs.Assembly.Collision
import Scaffold.Proofs.Assembly.Content
import Scaffold.Proofs.Assembly.Diagnostics
import Scaffold.Proofs.Assembly.Display
import Scaffold.Proofs.Assembly.Expansion
import Scaffold.Proofs.Assembly.Failures
import Scaffold.Proofs.Assembly.Forgery
import Scaffold.Proofs.Assembly.Guards
import Scaffold.Proofs.Assembly.Isolation
import Scaffold.Proofs.Assembly.Location
import Scaffold.Proofs.Assembly.Names
import Scaffold.Proofs.Assembly.Order
import Scaffold.Proofs.Assembly.Progress
import Scaffold.Proofs.Assembly.References
import Scaffold.Proofs.Assembly.Relying
import Scaffold.Proofs.Assembly.Shared
import Scaffold.Proofs.Assembly.Tree
import Scaffold.Proofs.Assembly.WellFormed
import Scaffold.Proofs.Assembly.Wiring
import Scaffold.Proofs.BaseCode.Basic
import Scaffold.Proofs.BaseCode.Bundled
import Scaffold.Proofs.BaseCode.Directory
import Scaffold.Proofs.BaseCode.RoundTrip
import Scaffold.Proofs.Disk.Growth
import Scaffold.Proofs.Disk.Making
import Scaffold.Proofs.Disk.Walk
import Scaffold.Proofs.Error.Paths
import Scaffold.Proofs.Error.Steps
import Scaffold.Proofs.Fragment.Markup
import Scaffold.Proofs.Fragment.Relation
import Scaffold.Proofs.Fragment.Service
import Scaffold.Proofs.Fragment.Spelling
import Scaffold.Proofs.Generation.Changes
import Scaffold.Proofs.Generation.Checked
import Scaffold.Proofs.Generation.Containment
import Scaffold.Proofs.Generation.Effect
import Scaffold.Proofs.Generation.Overwriting
import Scaffold.Proofs.Generation.Policy
import Scaffold.Proofs.Generation.Protocol
import Scaffold.Proofs.Generation.Rollback
import Scaffold.Proofs.Generation.Root
import Scaffold.Proofs.Generation.Run
import Scaffold.Proofs.Generation.Targets
import Scaffold.Proofs.Json.Reading
import Scaffold.Proofs.Json.Record
import Scaffold.Proofs.Path.Below
import Scaffold.Proofs.Path.Chain
import Scaffold.Proofs.Path.Components
import Scaffold.Proofs.Path.Join
import Scaffold.Proofs.Path.Map
import Scaffold.Proofs.Path.Raw
import Scaffold.Proofs.Path.RawBelow
import Scaffold.Proofs.Path.Segment
import Scaffold.Proofs.Project.Check
import Scaffold.Proofs.Project.Document
import Scaffold.Proofs.Project.Lookup
import Scaffold.Proofs.Project.Sound
import Scaffold.Proofs.Store.Exchange
import Scaffold.Proofs.Store.Front
import Scaffold.Proofs.Store.History
import Scaffold.Proofs.Store.Memory
import Scaffold.Proofs.Store.Run
import Scaffold.Proofs.Store.Treelike
import Scaffold.Proofs.Template.Divided
import Scaffold.Proofs.Template.Expansion
import Scaffold.Proofs.Template.Fields
import Scaffold.Proofs.Template.Forgery
import Scaffold.Proofs.Template.OnePass
import Scaffold.Proofs.Template.Rendering
import Scaffold.Proofs.Template.Scan
import Scaffold.Proofs.Template.Segment
import Scaffold.Proofs.Template.Slots
import Scaffold.Proofs.Template.Spelling
import Scaffold.Proofs.Template.Token
import Scaffold.Proofs.Template.Words
import Scaffold.Proofs.Text.Case
import Scaffold.Proofs.Text.Encoded
import Scaffold.Proofs.Text.Occurrence
import Scaffold.Proofs.Text.Place
import Scaffold.Proofs.Text.Plain
import Scaffold.Proofs.Text.Replace
import Scaffold.Proofs.Text.Word
import Scaffold.Settings.Basic
import Scaffold.Settings.Environment
import Scaffold.Settings.EnvironmentFile
import Scaffold.Settings.Layer
import Scaffold.Settings.Location
import Scaffold.Store.Basic
import Scaffold.Store.Memory
import Scaffold.Store.Watched
import Scaffold.Template.Filling
import Scaffold.Template.Residual
import Scaffold.Template.Token
import Scaffold.Template.Vocabulary
import Scaffold.Text.Case
import Scaffold.Text.CaseData
import Scaffold.Text.Character
import Scaffold.Text.Decoded
import Scaffold.Text.PrintData
import Scaffold.Text.Quoted
import Scaffold.Text.Replace
import Scaffold.Text.Word
import Scaffold.Toml.Document
import Scaffold.Toml.Moment
import Scaffold.Toml.Quoted
import Scaffold.Toml.Scalar
import Scaffold.Toml.Table
import Scaffold.Toml.Written
