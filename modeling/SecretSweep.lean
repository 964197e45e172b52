import SecretSweep.Text.Case
import SecretSweep.Main
import SecretSweep.Git.Recording
import SecretSweep.Store.Rows
import SecretSweep.Text.Fields
import SecretSweep.Header.Address
import SecretSweep.Header.Plain
import SecretSweep.Console.Command
import SecretSweep.Sweep.Basic
import SecretSweep.Console.Options
import SecretSweep.Delivery.Outlets
import SecretSweep.Sweep.Pipeline
import SecretSweep.Sweep.Site
import SecretSweep.Delivery.Router
import SecretSweep.Delivery.Mailer
import SecretSweep.Delivery.FileLog
import SecretSweep.Schedule.Cycle
import SecretSweep.Scan.Scanner
import SecretSweep.Settings.Load
import SecretSweep.Yaml.Display
import SecretSweep.Files.Glob
import SecretSweep.Files.Environment
import SecretSweep.Yaml.Document
import SecretSweep.Yaml.Node
import SecretSweep.Yaml.Tag
import SecretSweep.Yaml.Reader
import SecretSweep.Yaml.Mark
import SecretSweep.Yaml.Block
import SecretSweep.Yaml.Plain
import SecretSweep.Yaml.Quoted
import SecretSweep.Yaml.Token
import SecretSweep.Yaml.Cursor
import SecretSweep.Yaml.Fault
import SecretSweep.Patch.Chunk
import SecretSweep.Leak.Worker
import SecretSweep.Rule.Builtin
import SecretSweep.Time.Moment
import SecretSweep.Regex.Reader
import SecretSweep.Regex.Escape
import SecretSweep.Regex.Match
import SecretSweep.Decimal.Layout
import SecretSweep.Text.Utf8
import SecretSweep.Proofs.Git.Printing
import SecretSweep.Proofs.Scan.Emission
import SecretSweep.Proofs.Scan.Reached
import SecretSweep.Proofs.Schedule.Checkpoint
import SecretSweep.Proofs.Schedule.Coverage
import SecretSweep.Proofs.Text.Digits
import SecretSweep.Proofs.Patch.Printed
import SecretSweep.Proofs.Patch.Reading
import SecretSweep.Proofs.Patch.RoundTrip
import SecretSweep.Proofs.Leak.Findings
import SecretSweep.Proofs.Patch.AddedLine
import SecretSweep.Proofs.Regex.Search
import SecretSweep.Proofs.Leak.LineNumber
import SecretSweep.Proofs.Scan.Abort
import SecretSweep.Proofs.Scan.Lost
import SecretSweep.Proofs.Schedule.Bookkeeping
import SecretSweep.Proofs.Schedule.LastSuccess
import SecretSweep.Proofs.Schedule.Increment
import SecretSweep.Proofs.Schedule.Independence
import SecretSweep.Proofs.Store.Atomic
import SecretSweep.Proofs.Git.Listing
import SecretSweep.Proofs.Scan.References
import SecretSweep.Proofs.Delivery.Calls
import SecretSweep.Proofs.Delivery.Lifecycle
import SecretSweep.Proofs.Delivery.Collector
import SecretSweep.Proofs.Sweep.Flow
import SecretSweep.Proofs.Sweep.Once
import SecretSweep.Proofs.Delivery.Conservation
import SecretSweep.Proofs.Delivery.Deadline
import SecretSweep.Proofs.Delivery.Progress
import SecretSweep.Proofs.Delivery.Isolation
import SecretSweep.Proofs.Store.Ledger
import SecretSweep.Proofs.Files.Reach
import SecretSweep.Proofs.Delivery.RecordReading
import SecretSweep.Proofs.Delivery.LeakLog
import SecretSweep.Proofs.Leak.Consumer
import SecretSweep.Proofs.Leak.Consumption
import SecretSweep.Proofs.Settings.Refusal
import SecretSweep.Proofs.Scan.Course
import SecretSweep.Proofs.Scan.Pace
import SecretSweep.Proofs.Schedule.Counting
import SecretSweep.Proofs.Leak.Reporting
import SecretSweep.Proofs.Leak.Composition
import SecretSweep.Proofs.Patch.HunkHeader
import SecretSweep.Proofs.Patch.Passage
import SecretSweep.Proofs.Patch.Independence
import SecretSweep.Proofs.Regex.Meaning
import SecretSweep.Proofs.Rule.Token
import SecretSweep.Proofs.Decimal.Order
import SecretSweep.Proofs.Store.Recent
import SecretSweep.Proofs.Delivery.MailAccount
