import StockImport.Csv.Accounting
import StockImport.Db.Transactions
import StockImport.Library.Soundness

/-!
# The worker

`ValidationBatchWriter`, `ReportValidator`, `ApplyReportService` and
`ReportProcessor` as programs over the database.  A program asks for transactions,
for the state of its lock connection (`assert_lock_alive`) and for the calls that
leave the process: opening a download, fetching a chunk, running a step hook.

The callbacks of `validate_csv_stream` run in the order of its events, each fetch
of a chunk behind an `assert_lock_alive`.  The transaction of `apply` takes effect
at its commit; the hooks and liveness checks between its statements can only end
it early, and stand in front.
-/

set_option autoImplicit false

namespace StockImport.Worker

open Csv Db Transactional

inductive WorkerCycleOutcome where
  | lockNotAcquired
  | noReport
  | validated
  | validationFailed
  | processingFailed
  | waitingForApply
  | completed
  deriving DecidableEq, Repr

inductive ApplyStep where
  | warehousesUpserted
  | productsUpserted
  | explicitStocksApplied
  | missingStocksZeroed
  | beforeReportCompleted
  deriving DecidableEq, Repr

/-- The calls that leave the process, each for a report. -/
inductive ExternalCall where
  | downloadStream (reportId : Nat)
  | readChunk (reportId : Nat)
  | runHook (reportId : Nat) (step : ApplyStep)
  deriving DecidableEq, Repr

def ExternalCall.reportId : ExternalCall → Nat
  | .downloadStream reportId => reportId
  | .readChunk reportId => reportId
  | .runHook reportId _ => reportId

inductive Transaction where
  | claim
  | writeStagingBatch (reportId : Nat) (batch : List ValidatedRow)
  | writeErrorBatch (reportId : Nat) (batch : List ValidationIssue)
  | insertDuplicateErrors (reportId rawValueChars : Nat)
  | errorCount (reportId : Nat)
  | finalizeValidationFailure (reportId rowCount errorCount : Nat)
  | markValidated (reportId rowCount : Nat)
  | markProcessingFailed (reportId : Nat)
  | apply (reportId : Nat)
  | markApplyFailed (reportId : Nat)
  deriving DecidableEq, Repr

/-- The report a transaction is about; a claim finds its own. -/
def Transaction.reportId : Transaction → Option Nat
  | .claim => none
  | .writeStagingBatch reportId _ => some reportId
  | .writeErrorBatch reportId _ => some reportId
  | .insertDuplicateErrors reportId _ => some reportId
  | .errorCount reportId => some reportId
  | .finalizeValidationFailure reportId _ _ => some reportId
  | .markValidated reportId _ => some reportId
  | .markProcessingFailed reportId => some reportId
  | .apply reportId => some reportId
  | .markApplyFailed reportId => some reportId

abbrev Transaction.Reply : Transaction → Type
  | .claim => Option (ReportSource × Bool)
  | .errorCount _ => Nat
  | .apply _ => ApplyResult
  | _ => Unit

abbrev workerInterface : Interface where
  Exception := PyException
  Call := ExternalCall
  Transaction := Transaction
  Reply := Transaction.Reply

/-- The database, and the reports in the order in which their applies have
committed. -/
structure Ledger where
  db : Database
  completions : List ReportSource

def Ledger.empty : Ledger := ⟨.empty, []⟩

def Ledger.store (ledger : Ledger) : Except PyException Database → Except PyException (Unit × Ledger)
  | .ok db => .ok ((), { ledger with db := db })
  | .error e => .error e

def Transaction.exec : (t : Transaction) → Ledger → Except PyException (t.Reply × Ledger)
  | .claim, s =>
      .ok ((claimOrRecoverNextReport s.db).1, { s with db := (claimOrRecoverNextReport s.db).2 })
  | .writeStagingBatch reportId batch, s => s.store (Db.writeStagingBatch reportId batch s.db)
  | .writeErrorBatch reportId batch, s => s.store (Db.writeErrorBatch reportId batch s.db)
  | .insertDuplicateErrors reportId rawValueChars, s =>
      s.store (Db.insertDuplicateErrors rawValueChars reportId s.db)
  | .errorCount reportId, s => .ok (Db.errorCount reportId s.db, s)
  | .finalizeValidationFailure reportId rowCount count, s =>
      s.store (.ok (Db.finalizeValidationFailure reportId rowCount count s.db))
  | .markValidated reportId rowCount, s => s.store (.ok (Db.markValidated reportId rowCount s.db))
  | .markProcessingFailed reportId, s => s.store (Db.markProcessingFailed reportId s.db)
  | .markApplyFailed reportId, s => s.store (Db.markApplyFailed reportId s.db)
  | .apply reportId, s =>
      match applyReport reportId s.db with
      | .error e => .error e
      | .ok (result, db) => .ok (result,
          ⟨db, s.completions ++ ((s.db.reports.find reportId).map reportSource).toList⟩)

/-- The settings of the workers and the original files, which nothing changes. -/
structure Deployment where
  limits : CsvLimits
  batchSize : Nat
  batchSize_pos : 0 < batchSize
  original : (objectBucket objectKey : String) → Bytes

def Deployment.file (deployment : Deployment) (source : ReportSource) : Bytes :=
  deployment.original source.objectBucket source.objectKey

/-- `_duplicate_raw_value_chars`. -/
def Deployment.duplicateRawValueChars (deployment : Deployment) : Nat :=
  max 1 (min deployment.limits.errorRawValueChars (deployment.limits.errorRawTotalChars / 4))

/-- How the storage and the stream buffers cut a file in one cycle. -/
structure Delivery (deployment : Deployment) where
  chunking : ∀ source : ReportSource, Chunking (deployment.file source)
  sizes : StreamSizes

abbrev WorkerProgram := Program workerInterface

def assertLockAlive : WorkerProgram Unit := Program.assertLock PyException.lockConnectionLost

/-- A transaction of the worker. -/
def inTransaction (t : Transaction) : WorkerProgram t.Reply :=
  Program.commit (i := workerInterface) t

def external (c : ExternalCall) : WorkerProgram Unit := Program.invoke (i := workerInterface) c

/-! ## ValidationBatchWriter -/

structure BatchWriter where
  stagingBatch : List ValidatedRow
  errorBatch : List ValidationIssue

def flushStaging (reportId : Nat) (writer : BatchWriter) : WorkerProgram BatchWriter :=
  if writer.stagingBatch = [] then pure writer
  else do
    assertLockAlive
    inTransaction (.writeStagingBatch reportId writer.stagingBatch)
    pure { writer with stagingBatch := [] }

def flushErrors (reportId : Nat) (writer : BatchWriter) : WorkerProgram BatchWriter :=
  if writer.errorBatch = [] then pure writer
  else do
    assertLockAlive
    inTransaction (.writeErrorBatch reportId writer.errorBatch)
    pure { writer with errorBatch := [] }

def addValidRow (batchSize reportId : Nat) (writer : BatchWriter) (row : ValidatedRow) :
    WorkerProgram BatchWriter :=
  let writer := { writer with stagingBatch := writer.stagingBatch ++ [row] }
  if batchSize ≤ writer.stagingBatch.length then flushStaging reportId writer else pure writer

def addIssue (batchSize reportId : Nat) (writer : BatchWriter) (issue : ValidationIssue) :
    WorkerProgram BatchWriter :=
  let writer := { writer with errorBatch := writer.errorBatch ++ [issue] }
  if batchSize ≤ writer.errorBatch.length then flushErrors reportId writer else pure writer

def addIssues (batchSize reportId : Nat) :
    BatchWriter → List ValidationIssue → WorkerProgram BatchWriter
  | writer, [] => pure writer
  | writer, issue :: rest => do
      let writer ← addIssue batchSize reportId writer issue
      addIssues batchSize reportId writer rest

def flushAll (reportId : Nat) (writer : BatchWriter) : WorkerProgram BatchWriter := do
  let writer ← flushStaging reportId writer
  flushErrors reportId writer

/-- The events of `validate_csv_stream` as they reach the writer. -/
def runEvents (batchSize reportId : Nat) :
    BatchWriter → List StreamEvent → WorkerProgram BatchWriter
  | writer, [] => pure writer
  | writer, .fetch :: rest => do
      assertLockAlive
      external (.readChunk reportId)
      runEvents batchSize reportId writer rest
  | writer, .validRow row :: rest => do
      let writer ← addValidRow batchSize reportId writer row
      runEvents batchSize reportId writer rest
  | writer, .issues found :: rest => do
      let writer ← addIssues batchSize reportId writer found
      runEvents batchSize reportId writer rest

/-! ## ReportValidator -/

/-- `validate` from `if error_count` on. -/
def concludeValidation (reportId : Nat) (summary : CsvValidationSummary) (errorCount : Nat) :
    WorkerProgram WorkerCycleOutcome :=
  if errorCount ≠ 0 then do
    assertLockAlive
    inTransaction (.finalizeValidationFailure reportId summary.rowCount errorCount)
    pure .validationFailed
  else if summary.reachedEof = false ∨ summary.rowCount = 0 then
    Program.raise (i := workerInterface) .runtimeError
  else do
    assertLockAlive
    inTransaction (.markValidated reportId summary.rowCount)
    pure .validated

/-- `validate` after the stream: the duplicates, the count of errors and the decision. -/
def finishValidation (deployment : Deployment) (reportId : Nat) (summary : CsvValidationSummary) :
    WorkerProgram WorkerCycleOutcome := do
  assertLockAlive
  inTransaction (.insertDuplicateErrors reportId deployment.duplicateRawValueChars)
  assertLockAlive
  let errorCount ← inTransaction (.errorCount reportId)
  concludeValidation reportId summary errorCount

/-- `validate` from the first callback on, for the events and the result of one run
of `validate_csv_stream`. -/
def consumeRun (deployment : Deployment) (reportId : Nat) (run : ValidationRun) :
    WorkerProgram WorkerCycleOutcome := do
  let writer ← runEvents deployment.batchSize reportId ⟨[], []⟩ run.events
  let summary ← Program.done (i := workerInterface) run.result
  let _ ← flushAll reportId writer
  finishValidation deployment reportId summary

def Delivery.run {deployment : Deployment} (delivery : Delivery deployment)
    (source : ReportSource) : ValidationRun :=
  validateCsvStream deployment.limits delivery.sizes (delivery.chunking source).chunks

def validate (deployment : Deployment) (delivery : Delivery deployment) (source : ReportSource) :
    WorkerProgram WorkerCycleOutcome := do
  assertLockAlive
  external (.downloadStream source.id)
  consumeRun deployment source.id (delivery.run source)

/-! ## ApplyReportService -/

def applySteps : List ApplyStep :=
  [.warehousesUpserted, .productsUpserted, .explicitStocksApplied, .missingStocksZeroed,
    .beforeReportCompleted]

def runSteps (reportId : Nat) : List ApplyStep → WorkerProgram Unit
  | [] => pure ()
  | step :: rest => do
      external (.runHook reportId step)
      assertLockAlive
      runSteps reportId rest

def apply (reportId : Nat) : WorkerProgram ApplyResult := do
  assertLockAlive
  runSteps reportId applySteps
  inTransaction (.apply reportId)

/-! ## ReportProcessor -/

/-- `except LockConnectionLost: raise`, and `handler` for any other exception. -/
def unlessLockLost (handler : PyException → WorkerProgram WorkerCycleOutcome) (e : PyException) :
    WorkerProgram WorkerCycleOutcome :=
  if e = .lockConnectionLost then Program.raise (i := workerInterface) e else handler e

def processApply (reportId : Nat) : WorkerProgram WorkerCycleOutcome :=
  Program.handle
    (do
      let _ ← apply reportId
      pure .completed)
    (unlessLockLost fun originalError =>
      Program.handle
        (do
          assertLockAlive
          inTransaction (.markApplyFailed reportId)
          pure .processingFailed)
        (fun _ => Program.raise (i := workerInterface) originalError))

def processValidation (deployment : Deployment) (delivery : Delivery deployment)
    (source : ReportSource) : WorkerProgram WorkerCycleOutcome :=
  Program.handle (validate deployment delivery source)
    (unlessLockLost fun _ => do
      assertLockAlive
      inTransaction (.markProcessingFailed source.id)
      pure .processingFailed)

def process (deployment : Deployment) (delivery : Delivery deployment) :
    WorkerProgram WorkerCycleOutcome := do
  match ← inTransaction .claim with
  | none => pure .noReport
  | some (source, true) => processApply source.id
  | some (source, false) => processValidation deployment delivery source

/-! ## The service -/

/-- Any number of workers over one database, with registrations and the clock. -/
def service (deployment : Deployment) :
    System workerInterface Ledger Environment (Delivery deployment) WorkerCycleOutcome where
  exec := Transaction.exec
  environment e s := (e.step s.db).map fun db => { s with db := db }
  program := process deployment

abbrev ServiceWorld := World workerInterface Ledger Nat WorkerCycleOutcome

/-- No report, no stock, no worker at work. -/
def ServiceWorld.empty : ServiceWorld where
  shared := .empty
  threads _ := none
  owner := none
  current := none
  attempts := 0
  history := []

theorem ServiceWorld.empty_idle : ServiceWorld.empty.Idle := ⟨fun _ => rfl, rfl, rfl⟩

end StockImport.Worker
