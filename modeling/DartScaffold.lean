import DartScaffold.Aggregate.Document
import DartScaffold.Aggregate.Edit
import DartScaffold.Aggregate.Fragment
import DartScaffold.Aggregate.ImportLine
import DartScaffold.Aggregate.Marker
import DartScaffold.Aggregate.Patch
import DartScaffold.Api.Basic
import DartScaffold.Api.Kinds
import DartScaffold.Artifact
import DartScaffold.ClassName.Registry
import DartScaffold.ClassName.Reserved
import DartScaffold.ClassName.Scope
import DartScaffold.ClassName.Stem
import DartScaffold.CommandLine.Flag
import DartScaffold.CommandLine.Reply
import DartScaffold.CommandLine.Request
import DartScaffold.CommandLine.Word
import DartScaffold.Config.Block
import DartScaffold.Config.Feature
import DartScaffold.Config.Loading
import DartScaffold.Config.Options
import DartScaffold.Config.ProjectName
import DartScaffold.Config.Reading
import DartScaffold.Config.Settings
import DartScaffold.Config.Starter
import DartScaffold.Dart.Field
import DartScaffold.Dart.Identifier
import DartScaffold.Dart.Literal
import DartScaffold.Decimal.Binary64
import DartScaffold.Decimal.Shortest
import DartScaffold.Disk.Basic
import DartScaffold.Disk.Error
import DartScaffold.Disk.Home
import DartScaffold.Disk.Location
import DartScaffold.Disk.TextFile
import DartScaffold.Failure
import DartScaffold.Json.Basic
import DartScaffold.Json.Printer
import DartScaffold.Json.Reader
import DartScaffold.Layer.Context
import DartScaffold.Layer.DataSource
import DartScaffold.Layer.Repository
import DartScaffold.Layer.UseCase
import DartScaffold.Log
import DartScaffold.Main
import DartScaffold.Mapper
import DartScaffold.Model.ClassText
import DartScaffold.Model.Expression
import DartScaffold.Model.File
import DartScaffold.Model.Policy
import DartScaffold.ModelTest.File
import DartScaffold.ModelTest.Literal
import DartScaffold.Proofs.Aggregate.Exchange
import DartScaffold.Proofs.Aggregate.Idempotence
import DartScaffold.Proofs.Aggregate.Imports
import DartScaffold.Proofs.Aggregate.ModelImport
import DartScaffold.Proofs.Aggregate.NonInterference
import DartScaffold.Proofs.Aggregate.OnDisk
import DartScaffold.Proofs.Aggregate.OrderedMap
import DartScaffold.Proofs.Aggregate.Parsing
import DartScaffold.Proofs.Aggregate.Pruning
import DartScaffold.Proofs.Aggregate.Undoing
import DartScaffold.Proofs.ClassName.Growth
import DartScaffold.Proofs.ClassName.Page
import DartScaffold.Proofs.ClassName.Search
import DartScaffold.Proofs.Config.DatePattern
import DartScaffold.Proofs.Config.Reading
import DartScaffold.Proofs.Dart.Bracket
import DartScaffold.Proofs.Dart.Decoding
import DartScaffold.Proofs.Dart.Expression
import DartScaffold.Proofs.Dart.Field
import DartScaffold.Proofs.Dart.FieldName
import DartScaffold.Proofs.Dart.Literal
import DartScaffold.Proofs.Dart.Mention
import DartScaffold.Proofs.Dart.Reference
import DartScaffold.Proofs.Disk.Change
import DartScaffold.Proofs.Disk.Frame
import DartScaffold.Proofs.Disk.Receptive
import DartScaffold.Proofs.Disk.Saving
import DartScaffold.Proofs.Layer.Lines
import DartScaffold.Proofs.Layer.Patching
import DartScaffold.Proofs.Layer.Reference
import DartScaffold.Proofs.Layer.WellFormed
import DartScaffold.Proofs.Mapper.Agreement
import DartScaffold.Proofs.Mapper.Bracket
import DartScaffold.Proofs.Mapper.Extension
import DartScaffold.Proofs.Mapper.WellFormed
import DartScaffold.Proofs.Model.Bracket
import DartScaffold.Proofs.Model.Closure
import DartScaffold.Proofs.Model.CoreName
import DartScaffold.Proofs.Model.Declaration
import DartScaffold.Proofs.Model.Members
import DartScaffold.Proofs.Model.Mention
import DartScaffold.Proofs.Model.Signature
import DartScaffold.Proofs.ModelTest.File
import DartScaffold.Proofs.Run.Action
import DartScaffold.Proofs.Run.Batch
import DartScaffold.Proofs.Run.Closure
import DartScaffold.Proofs.Run.Contribution
import DartScaffold.Proofs.Run.Crew
import DartScaffold.Proofs.Run.Effect
import DartScaffold.Proofs.Run.Failing
import DartScaffold.Proofs.Run.Interleaving
import DartScaffold.Proofs.Run.Isolation
import DartScaffold.Proofs.Run.Places
import DartScaffold.Proofs.Run.Reading
import DartScaffold.Proofs.Run.Script
import DartScaffold.Proofs.Run.Targets
import DartScaffold.Proofs.Run.Verdict
import DartScaffold.Proofs.Run.WriteSet
import DartScaffold.Proofs.Shape.Conform
import DartScaffold.Proofs.Shape.Leaf
import DartScaffold.Proofs.Shape.Lookup
import DartScaffold.Proofs.Text.SnakeCase
import DartScaffold.Proofs.Text.Words
import DartScaffold.Proofs.Validation.Agreement
import DartScaffold.Proofs.Validation.Identifier
import DartScaffold.Proofs.Validation.Name
import DartScaffold.Run.ApiUnit
import DartScaffold.Run.Batch
import DartScaffold.Run.Features
import DartScaffold.Run.Generation
import DartScaffold.Run.Job
import DartScaffold.Run.PageUnits
import DartScaffold.Run.Progress
import DartScaffold.Run.Report
import DartScaffold.Run.Site
import DartScaffold.Run.Task
import DartScaffold.Run.Unit
import DartScaffold.Sample
import DartScaffold.Sample.Cache
import DartScaffold.Schema.Check
import DartScaffold.Schema.Integer
import DartScaffold.Schema.Problem
import DartScaffold.Schema.Record
import DartScaffold.Sha256
import DartScaffold.Shape.Basic
import DartScaffold.Shape.Conform
import DartScaffold.Shape.DateText
import DartScaffold.Shape.Infer
import DartScaffold.Text.Blank
import DartScaffold.Text.Case
import DartScaffold.Text.Digit
import DartScaffold.Text.Lines
import DartScaffold.Text.Numbered
import DartScaffold.Text.Printable
import DartScaffold.Text.Quoted
import DartScaffold.Text.Range
import DartScaffold.Text.Surrogate
import DartScaffold.Text.Twin
import DartScaffold.Text.WordChar
import DartScaffold.Validation.Entry
import DartScaffold.Validation.Issue
import DartScaffold.Validation.Page
import DartScaffold.Proofs.Disk.Home
