import CompilerDriver.Github.Decode
import CompilerDriver.Main
import CompilerDriver.Rehearsal.Decode
import CompilerDriver.Rehearsal.Exchange
import CompilerDriver.Rehearsal.WorkerEnd
import CompilerDriver.Proofs.Import.Closure
import CompilerDriver.Proofs.Import.Growth
import CompilerDriver.Proofs.Session.Agreement
import CompilerDriver.Proofs.Session.Faults
import CompilerDriver.Proofs.Session.Outcome
import CompilerDriver.Proofs.Session.Reports
import CompilerDriver.Proofs.Session.Retries
import CompilerDriver.Proofs.Worker.Correlation
import CompilerDriver.Proofs.Worker.Exit
import CompilerDriver.Proofs.Worker.Framing
import CompilerDriver.Proofs.Session.Newest
import CompilerDriver.Proofs.Import.Sharing
import CompilerDriver.Proofs.Session.Latest
import CompilerDriver.Proofs.Session.Dispatch
import CompilerDriver.Proofs.Session.Pending
import CompilerDriver.Proofs.Session.Ends
import CompilerDriver.Proofs.Store.Paths
import CompilerDriver.Proofs.Store.Contract
import CompilerDriver.Proofs.Import.Exchanges
import CompilerDriver.Proofs.Import.Lookups
import CompilerDriver.Proofs.Import.Failure
import CompilerDriver.Proofs.Session.ImportFailures
import CompilerDriver.Proofs.Worker.Abandonment
import CompilerDriver.Proofs.Session.Retention
import CompilerDriver.Proofs.Session.Abandonment
import CompilerDriver.Proofs.Text.Runs
import CompilerDriver.Proofs.Payload
import CompilerDriver.Proofs.Store.Containment
import CompilerDriver.Proofs.Import.Directives
import CompilerDriver.Proofs.Url.Segments
import CompilerDriver.Proofs.Url.Extension
import CompilerDriver.Proofs.Github.Confinement
import CompilerDriver.Proofs.Import.References
import CompilerDriver.Proofs.Digest.Standard
import CompilerDriver.Proofs.Sources.Additions
import CompilerDriver.Proofs.Sources.Digest
import CompilerDriver.Proofs.Worker.Hosting
import CompilerDriver.Proofs.Session.Counts
import CompilerDriver.Proofs.Session.Accounts
import CompilerDriver.Proofs.Session.Readiness
