import HookAtlas.Files.Edit
import HookAtlas.Http.Routes
import HookAtlas.Proofs.Php.Lossless
import HookAtlas.Proofs.Php.Extent
import HookAtlas.Scheduler.Task
import HookAtlas.Site.Lifecycle
import HookAtlas.Store.Fault
import HookAtlas.Proofs.Php.Opaque
import HookAtlas.Proofs.Php.Layout
import HookAtlas.Proofs.Php.LiteralCall
import HookAtlas.Proofs.Php.CallWindow
import HookAtlas.Proofs.Json.StringText
import HookAtlas.Proofs.Json.RoundTrip
import HookAtlas.Proofs.Hook.TimestampText
import HookAtlas.Proofs.Cache.Holding
import HookAtlas.Proofs.Cache.Drain
import HookAtlas.Proofs.Scheduler.Slot
import HookAtlas.Proofs.Cache.Attended
import HookAtlas.Proofs.Dispatch.Alike
import HookAtlas.Proofs.Site.Listeners
import HookAtlas.Proofs.Site.Attended
import HookAtlas.Proofs.Cache.Interleaving
import HookAtlas.Proofs.Cache.Superseded
import HookAtlas.Proofs.Scan.Records
import HookAtlas.Proofs.Cache.Rescan
import HookAtlas.Proofs.Site.History
import HookAtlas.Proofs.Store.Writes
import HookAtlas.Proofs.Cache.Writes
import HookAtlas.Proofs.Site.Operation
import HookAtlas.Proofs.Store.Numbers
import HookAtlas.Proofs.Catalogue.Filter
import HookAtlas.Proofs.Catalogue.Pagination
import HookAtlas.Proofs.Cache.Failures
import HookAtlas.Proofs.Site.Failures
import HookAtlas.Proofs.Dispatch.Snapshots
import HookAtlas.Proofs.Capture.Rows
import HookAtlas.Proofs.Cache.Answers
import HookAtlas.Proofs.Php.Blocks
import HookAtlas.Proofs.Site.Attribution
import HookAtlas.Proofs.Cache.Batch
import HookAtlas.Proofs.Dispatch.Registry
import HookAtlas.Proofs.Source.Specificity
import HookAtlas.Proofs.Capture.Ignored
import HookAtlas.Proofs.Path.Relative
import HookAtlas.Proofs.Php.Tags
import HookAtlas.Proofs.Site.ScannedRoots
import HookAtlas.Proofs.Scan.EachFileOnce
import HookAtlas.Proofs.Catalogue.Clause
import HookAtlas.Proofs.Scheduler.Accounts
import HookAtlas.Proofs.Scheduler.Contract
import HookAtlas.Proofs.Scheduler.Named
import HookAtlas.Proofs.Php.Escapes
import HookAtlas.Proofs.Scan.StorableNames
import HookAtlas.Proofs.Text.Scrub
import HookAtlas.Proofs.Cache.Payloads
import HookAtlas.Proofs.Catalogue.Document
import HookAtlas.Proofs.Php.Interpolation
import HookAtlas.Proofs.Php.Words
import HookAtlas.Proofs.Catalogue.Slug
import HookAtlas.Proofs.Catalogue.Statistics
