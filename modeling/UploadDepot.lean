import UploadDepot.Assembly
import UploadDepot.Bytes
import UploadDepot.Dialogue
import UploadDepot.Digest.Sha256
import UploadDepot.Files.Fault
import UploadDepot.Files.Path
import UploadDepot.Files.Tree
import UploadDepot.Header.Parameters
import UploadDepot.Http.ClientAddress
import UploadDepot.Http.Message
import UploadDepot.Http.ReadLimit
import UploadDepot.Http.Route
import UploadDepot.Http.Site
import UploadDepot.Json
import UploadDepot.Log
import UploadDepot.Main
import UploadDepot.Media.Signatures
import UploadDepot.Metrics
import UploadDepot.Multipart.Event
import UploadDepot.Multipart.FilePart
import UploadDepot.Multipart.Scanner
import UploadDepot.Number.Binary64
import UploadDepot.Number.Numeral
import UploadDepot.Number.Shortest
import UploadDepot.Proofs.Bytes
import UploadDepot.Proofs.Dialogue
import UploadDepot.Proofs.Digest.Hex
import UploadDepot.Proofs.Files.Path
import UploadDepot.Proofs.Files.Tree
import UploadDepot.Proofs.Header.Disposition
import UploadDepot.Proofs.Header.Sections
import UploadDepot.Proofs.Http.Acceptance
import UploadDepot.Proofs.Http.Accounting
import UploadDepot.Proofs.Http.Answers
import UploadDepot.Proofs.Http.ClientAddress
import UploadDepot.Proofs.Http.DeclaredLength
import UploadDepot.Proofs.Http.Serving
import UploadDepot.Proofs.Http.Truncation
import UploadDepot.Proofs.Interleaving
import UploadDepot.Proofs.Json
import UploadDepot.Proofs.Multipart.Budget
import UploadDepot.Proofs.Multipart.Bytewise
import UploadDepot.Proofs.Multipart.Chunks
import UploadDepot.Proofs.Multipart.Faults
import UploadDepot.Proofs.Multipart.FirstFile
import UploadDepot.Proofs.Multipart.Form
import UploadDepot.Proofs.Multipart.OnePart
import UploadDepot.Proofs.Multipart.Preamble
import UploadDepot.Proofs.Multipart.Selection
import UploadDepot.Proofs.Multipart.Tracking
import UploadDepot.Proofs.Multipart.Transcript
import UploadDepot.Proofs.Multipart.Truncation
import UploadDepot.Proofs.Number.Binary64
import UploadDepot.Proofs.Number.Numeral
import UploadDepot.Proofs.Quarantine.Stale
import UploadDepot.Proofs.Quarantine.Sweep
import UploadDepot.Proofs.RateLimit.Admission
import UploadDepot.Proofs.RateLimit.Bound
import UploadDepot.Proofs.RateLimit.Log
import UploadDepot.Proofs.RateLimit.Memory
import UploadDepot.Proofs.RateLimit.Newest
import UploadDepot.Proofs.RateLimit.Run
import UploadDepot.Proofs.RateLimit.Shards
import UploadDepot.Proofs.RateLimit.Stored
import UploadDepot.Proofs.RateLimit.Validation
import UploadDepot.Proofs.RateLimit.Window
import UploadDepot.Proofs.Store.BucketOutcomes
import UploadDepot.Proofs.Store.BucketRivals
import UploadDepot.Proofs.Store.BucketStore
import UploadDepot.Proofs.Store.FileAccount
import UploadDepot.Proofs.Store.FileFrame
import UploadDepot.Proofs.Store.FileRivals
import UploadDepot.Proofs.Store.FileScenes
import UploadDepot.Proofs.Store.FileStore
import UploadDepot.Proofs.Store.Inside
import UploadDepot.Proofs.Store.Shelf
import UploadDepot.Proofs.Table
import UploadDepot.Proofs.Text
import UploadDepot.Proofs.Upload.Atomicity
import UploadDepot.Proofs.Upload.Backends
import UploadDepot.Proofs.Upload.Candidate
import UploadDepot.Proofs.Upload.Chunking
import UploadDepot.Proofs.Upload.Cutoff
import UploadDepot.Proofs.Upload.Form
import UploadDepot.Proofs.Upload.Integrity
import UploadDepot.Proofs.Upload.Pipeline
import UploadDepot.Quarantine.CommandLine
import UploadDepot.Quarantine.Options
import UploadDepot.Quarantine.Report
import UploadDepot.Quarantine.Sweep
import UploadDepot.RateLimit.Admission
import UploadDepot.RateLimit.Limiter
import UploadDepot.RateLimit.Rule
import UploadDepot.Settings
import UploadDepot.Settings.Entries
import UploadDepot.Startup
import UploadDepot.Store.Basic
import UploadDepot.Store.BucketStore
import UploadDepot.Store.Disk
import UploadDepot.Store.Fault
import UploadDepot.Store.FileStore
import UploadDepot.Store.MemoryService
import UploadDepot.Store.ObjectService
import UploadDepot.Table
import UploadDepot.Text.Blank
import UploadDepot.Text.Digit
import UploadDepot.Text.Lower
import UploadDepot.Text.Printable
import UploadDepot.Text.Quoted
import UploadDepot.Text.Split
import UploadDepot.Text.Upper
import UploadDepot.Upload.Candidate
import UploadDepot.Upload.Error
import UploadDepot.Upload.Form
import UploadDepot.Upload.Outcome
import UploadDepot.Upload.Pipeline
