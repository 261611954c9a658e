import WorkloadSynth.CommandLine.Arguments
import WorkloadSynth.CommandLine.Run
import WorkloadSynth.CommandLine.System
import WorkloadSynth.Dataset.Digest
import WorkloadSynth.Dataset.Production
import WorkloadSynth.Dataset.Recipe
import WorkloadSynth.Dataset.Sample
import WorkloadSynth.Dataset.Split
import WorkloadSynth.Decimal.Layout
import WorkloadSynth.Decimal.Reading
import WorkloadSynth.Decimal.Shortest
import WorkloadSynth.Exchange.Form
import WorkloadSynth.Exchange.Manifest
import WorkloadSynth.Exchange.Record
import WorkloadSynth.Exchange.Sample
import WorkloadSynth.Json.Reader
import WorkloadSynth.Json.Shape
import WorkloadSynth.Json.Skip
import WorkloadSynth.Json.Token
import WorkloadSynth.Json.Value
import WorkloadSynth.Main
import WorkloadSynth.Number.Binary64
import WorkloadSynth.Number.Natural
import WorkloadSynth.Number.Scalar
import WorkloadSynth.Proofs.Binary64.Arithmetic
import WorkloadSynth.Proofs.Binary64.Conversion
import WorkloadSynth.Proofs.Binary64.Decoding
import WorkloadSynth.Proofs.Binary64.Error
import WorkloadSynth.Proofs.Binary64.Identity
import WorkloadSynth.Proofs.Binary64.Interval
import WorkloadSynth.Proofs.Binary64.Meaning
import WorkloadSynth.Proofs.Binary64.Natural
import WorkloadSynth.Proofs.Binary64.Nearest
import WorkloadSynth.Proofs.Binary64.Significand
import WorkloadSynth.Proofs.Binary64.Value
import WorkloadSynth.Proofs.CommandLine.Rejection
import WorkloadSynth.Proofs.Dataset.Anomalous
import WorkloadSynth.Proofs.Dataset.Beginnings
import WorkloadSynth.Proofs.Dataset.Counters
import WorkloadSynth.Proofs.Dataset.Digest
import WorkloadSynth.Proofs.Dataset.Partition
import WorkloadSynth.Proofs.Dataset.Plan
import WorkloadSynth.Proofs.Dataset.Pool
import WorkloadSynth.Proofs.Dataset.Progress
import WorkloadSynth.Proofs.Dataset.Ratio
import WorkloadSynth.Proofs.Dataset.Rearranged
import WorkloadSynth.Proofs.Dataset.Sampling
import WorkloadSynth.Proofs.Dataset.SingleStep
import WorkloadSynth.Proofs.Decimal.Numeral
import WorkloadSynth.Proofs.Decimal.Rounding
import WorkloadSynth.Proofs.Decimal.Shortest
import WorkloadSynth.Proofs.Exchange.Form
import WorkloadSynth.Proofs.Exchange.Sample
import WorkloadSynth.Proofs.Json.Accuracy
import WorkloadSynth.Proofs.Json.Number
import WorkloadSynth.Proofs.Json.Quoted
import WorkloadSynth.Proofs.Json.Reads
import WorkloadSynth.Proofs.Json.Record
import WorkloadSynth.Proofs.Json.Scale
import WorkloadSynth.Proofs.Number.Order
import WorkloadSynth.Proofs.Random.Draw
import WorkloadSynth.Proofs.Random.Seed
import WorkloadSynth.Proofs.Random.Shuffle
import WorkloadSynth.Proofs.Settings.Blanks
import WorkloadSynth.Proofs.Settings.Fields
import WorkloadSynth.Proofs.Settings.Layers
import WorkloadSynth.Proofs.Settings.Loading
import WorkloadSynth.Proofs.Settings.Names
import WorkloadSynth.Proofs.Settings.Stages
import WorkloadSynth.Proofs.Settings.Variables
import WorkloadSynth.Proofs.Stats.Bounds
import WorkloadSynth.Proofs.Stats.Extremes
import WorkloadSynth.Proofs.Stats.Moments
import WorkloadSynth.Proofs.Stats.Tally
import WorkloadSynth.Proofs.Storage.Columns
import WorkloadSynth.Proofs.Storage.Contents
import WorkloadSynth.Proofs.Storage.NumericArray
import WorkloadSynth.Proofs.Storage.Output
import WorkloadSynth.Proofs.Storage.Path
import WorkloadSynth.Proofs.Storage.Volume
import WorkloadSynth.Proofs.Workload.Age
import WorkloadSynth.Proofs.Workload.Bounding
import WorkloadSynth.Proofs.Workload.Exact
import WorkloadSynth.Proofs.Workload.Growth
import WorkloadSynth.Proofs.Workload.Influence
import WorkloadSynth.Proofs.Workload.Injection
import WorkloadSynth.Proofs.Workload.Injector
import WorkloadSynth.Proofs.Workload.Label
import WorkloadSynth.Proofs.Workload.Moment
import WorkloadSynth.Proofs.Workload.Monotone
import WorkloadSynth.Proofs.Workload.Passage
import WorkloadSynth.Proofs.Workload.Raise
import WorkloadSynth.Proofs.Workload.Refusal
import WorkloadSynth.Proofs.Workload.Replicas
import WorkloadSynth.Proofs.Workload.Schedule
import WorkloadSynth.Proofs.Workload.Step
import WorkloadSynth.Proofs.Workload.Trace
import WorkloadSynth.Proofs.Workload.Usage
import WorkloadSynth.Random.Draw
import WorkloadSynth.Random.Generator
import WorkloadSynth.Random.Layers
import WorkloadSynth.Random.Seed
import WorkloadSynth.Random.Shuffle
import WorkloadSynth.Random.Supply
import WorkloadSynth.Report.Console
import WorkloadSynth.Report.Journal
import WorkloadSynth.Report.Metrics
import WorkloadSynth.Report.Table
import WorkloadSynth.Report.Timestamp
import WorkloadSynth.Settings.Address
import WorkloadSynth.Settings.Basic
import WorkloadSynth.Settings.Entries
import WorkloadSynth.Settings.Layer
import WorkloadSynth.Settings.Load
import WorkloadSynth.Settings.Setting
import WorkloadSynth.Settings.Toml.Document
import WorkloadSynth.Settings.Toml.Moment
import WorkloadSynth.Settings.Toml.Number
import WorkloadSynth.Settings.Toml.Table
import WorkloadSynth.Settings.Toml.Text
import WorkloadSynth.Stats.Batch
import WorkloadSynth.Stats.Running
import WorkloadSynth.Stats.Tally
import WorkloadSynth.Storage.Archive
import WorkloadSynth.Storage.Container
import WorkloadSynth.Storage.Host
import WorkloadSynth.Storage.NumericArray
import WorkloadSynth.Storage.Output
import WorkloadSynth.Storage.Path
import WorkloadSynth.Storage.Volume
import WorkloadSynth.Text.Attached
import WorkloadSynth.Text.Blank
import WorkloadSynth.Text.Changes
import WorkloadSynth.Text.Emoji
import WorkloadSynth.Text.Quoted
import WorkloadSynth.Text.Shapeless
import WorkloadSynth.Text.Wide
import WorkloadSynth.Text.Width
import WorkloadSynth.Workload.Anomaly
import WorkloadSynth.Workload.Archetype
import WorkloadSynth.Workload.Injector
import WorkloadSynth.Workload.Label
import WorkloadSynth.Workload.Moment
import WorkloadSynth.Workload.Noise
import WorkloadSynth.Workload.Trace
import WorkloadSynth.Workload.Usage
