import EventWorker.Text.Blank
import EventWorker.Text.LowerCase
import EventWorker.Text.Utf8
import EventWorker.Text.Base64
import EventWorker.Text.Lines
import EventWorker.Text.Quoted
import EventWorker.Document
import EventWorker.Document.Scalar
import EventWorker.Table
import EventWorker.Document.Json
import EventWorker.Document.JsonText
import EventWorker.Document.Decode
import EventWorker.Document.Free
import EventWorker.Duration
import EventWorker.Error
import EventWorker.UnitRef
import EventWorker.Resource.Claim
import EventWorker.Resource.Pod
import EventWorker.Resource.Secret
import EventWorker.EnvValue
import EventWorker.Job
import EventWorker.Event
import EventWorker.Project
import EventWorker.Naming
import EventWorker.Text.Pattern
import EventWorker.Unit
import EventWorker.Document.Yaml.Cursor
import EventWorker.Document.Yaml.Scalar
import EventWorker.Document.Format
import EventWorker.Bus
import EventWorker.Config
import EventWorker.HandlerFile
import EventWorker.Timeline
import EventWorker.Watch
import EventWorker.Cluster
import EventWorker.Cluster.Memory
import EventWorker.Watch.Script
import EventWorker.Run.Backend
import EventWorker.Run.Controller
import EventWorker.Http
import EventWorker.Http.Url
import EventWorker.Cluster.ApiServer
import EventWorker.Command
import EventWorker.Main
import EventWorker.Proofs.Run.Work
import EventWorker.Proofs.Run.Tasks
import EventWorker.Proofs.Run.Forest
import EventWorker.Proofs.Run.Handling
import EventWorker.Proofs.Run.Course
import EventWorker.Proofs.Run.Deeds
import EventWorker.Proofs.Run.Calls
import EventWorker.Proofs.Run.OnceOnly
import EventWorker.Proofs.Run.Joining
import EventWorker.Proofs.Run.FirstFailure
import EventWorker.Proofs.Run.LeftBehind
import EventWorker.Proofs.Job.Name
import EventWorker.Proofs.Table
import EventWorker.Proofs.Unit.Carrier
import EventWorker.Proofs.Unit.Environment
import EventWorker.Proofs.Unit.Built
import EventWorker.Proofs.Unit.Authority
import EventWorker.Proofs.Unit.Closed
import EventWorker.Proofs.Run.Groups
import EventWorker.Proofs.Run.Records
import EventWorker.Proofs.Run.Account
import EventWorker.Proofs.Watch.Subscriptions
import EventWorker.Proofs.Watch.Stream
import EventWorker.Proofs.WorkerApi.StatusFeed
import EventWorker.Proofs.Unit.Secrecy
import EventWorker.Proofs.Unit.Sourceless
import EventWorker.Proofs.Unit.Contents
import EventWorker.Proofs.Unit.Credentials
import EventWorker.Proofs.Watch.Poll
import EventWorker.Proofs.Cluster.Memory
import EventWorker.Proofs.HandlerFile
import EventWorker.Proofs.Run.Verdict
import EventWorker.Proofs.Command.DryRun
import EventWorker.Proofs.Related
import EventWorker.Proofs.Http.Escapes
import EventWorker.Proofs.Http.Layout
import EventWorker.Proofs.Http.Target
import EventWorker.Proofs.WorkerApi.Addresses
import EventWorker.Proofs.WorkerApi.Privilege
import EventWorker.Proofs.Cluster.Claims
import EventWorker.Proofs.Run.Keeping
import EventWorker.Proofs.Document.JsonText
import EventWorker.Proofs.Document.Spelling
import EventWorker.Proofs.Document.Yield
import EventWorker.Proofs.Resource.Volume
import EventWorker.Proofs.Job.Spelling
import EventWorker.Proofs.RoundTrip
import EventWorker.Proofs.Document.Fields
import EventWorker.Proofs.Step
import EventWorker.Proofs.Run.Submission
import EventWorker.Proofs.HandlerFile.Accepted
import EventWorker.Proofs.Text.Blank
import EventWorker.Proofs.Text.Utf8
import EventWorker.Proofs.Cluster.Submission
import EventWorker.Proofs.Cluster.Scripted
import EventWorker.Proofs.Cluster.Rivals
import EventWorker.Proofs.Config
import EventWorker.Proofs.Watch.Fallible
import EventWorker.Proofs.WorkerApi.SourcePath
import EventWorker.Proofs.Unit.Refused
import EventWorker.Proofs.Run.Timed
import EventWorker.Proofs.Run.Batches
import EventWorker.Proofs.Cluster.Caches
import EventWorker.Proofs.Unit.Containers
import EventWorker.Proofs.Command.Holdings
import EventWorker.Proofs.Run.Blame
import EventWorker.Proofs.Settings
import EventWorker.Proofs.Run.Background
import EventWorker.Proofs.Run.Reports
import EventWorker.Proofs.Watch.Ledger
import EventWorker.Proofs.Job.Language
import EventWorker.Proofs.Document.JsonReaders
import EventWorker.Proofs.Document.JsonSpace
import EventWorker.Proofs.Document.JsonTyped
import EventWorker.Proofs.WorkerApi.LogLines
import EventWorker.Proofs.Project
