import StockImport.Library.PyText
import StockImport.Library.Utf8Escape
import StockImport.Library.Sha256
import StockImport.Library.PercentEncoding
import StockImport.Library.CsvReader
import StockImport.Library.Tables
import StockImport.Library.Queries
import StockImport.Library.Snapshots
import StockImport.Library.Program
import StockImport.Library.World
import StockImport.Library.Soundness
import StockImport.Library.Attempts
import StockImport.Csv.Records
import StockImport.Csv.Assembly
import StockImport.Csv.ChunkIO
import StockImport.Csv.ChunkAdapter
import StockImport.Csv.Validation
import StockImport.Csv.RowRules
import StockImport.Csv.Streaming
import StockImport.Csv.ReaderAgreement
import StockImport.Csv.RoundTrip
import StockImport.Csv.Accounting
import StockImport.Csv.Shown
import StockImport.Csv.Storable
import StockImport.Csv.Undecodable
import StockImport.Csv.Terminators
import StockImport.Csv.RawData
import StockImport.Db.Schema
import StockImport.Db.Inventory
import StockImport.Db.ApplyEffect
import StockImport.Db.StockChanges
import StockImport.Db.Commuting
import StockImport.Db.Overlay
import StockImport.Db.Transactions
import StockImport.Db.Queue
import StockImport.Worker.Programs
import StockImport.Worker.Sound
import StockImport.Worker.Validation
import StockImport.Worker.Cycle
import StockImport.Worker.Lifecycle
import StockImport.Worker.ClosedForm
import StockImport.Worker.Decision
import StockImport.Worker.Requests
import StockImport.Worker.Interleaving
import StockImport.Worker.Queue
import StockImport.Worker.UnknownCommit
import StockImport.Worker.Draining
import StockImport.Worker.Fencing
import StockImport.Worker.ErrorRecords
import StockImport.Worker.Download
import StockImport.Worker.LockConnection
import StockImport.Worker.Overlapping
import StockImport.Worker.Verdict
import StockImport.Worker.Faultless
import StockImport.Storage.ObjectStore
import StockImport.Storage.Upload
import StockImport.Storage.Multipart
import StockImport.Storage.Registration
import StockImport.Api.ContentDisposition
import StockImport.Api.Reads
import StockImport.Api.Pages
import StockImport.Api.Selection
import StockImport.Api.Snapshots
import StockImport.Site.Requests
import StockImport.Site.Uploads
import StockImport.Site.Alone
import StockImport.Site.Service
import StockImport.Site.Originals
import StockImport.Site.Download
import StockImport.Site.Imports
import StockImport.Api.Files
import StockImport.Api.Links
import StockImport.Db.Growth
import StockImport.Db.Reapply
import StockImport.Worker.Resubmission
