import StockImport.Worker.Lifecycle

/-!
# What `validate` decides

The calls that one run of `validate_csv_stream` makes account for every data
record, and `validate` turns them into the tables and the outcome without a loss:
the batches are the calls in their order, the repeated pairs add one error each,
and the outcome depends on nothing else.
-/

set_option autoImplicit false

namespace StockImport.Worker

open Csv Db Tables Transactional

/-! ## No end without a decision -/

theorem blames_runtimeError {deployment : Deployment} {faults : Faults} {source : ReportSource}
    (raises : ∀ c, ¬ faults.raises c .runtimeError) (fails : ∀ t, ¬ faults.fails t .runtimeError) :
    ¬ Blames deployment faults source .runtimeError := by
  intro blames
  cases blames with
  | raised c _ raised => exact raises c raised
  | failed t _ failed => exact fails t failed
  | refused _ same => cases same
  | stream raised => cases validateBytes_raises raised

/-- Nothing goes wrong but what the data make go wrong. -/
def Faults.quiet : Faults := ⟨fun _ _ => False, fun _ _ => False, False⟩

theorem blames_quiet {deployment : Deployment} {source : ReportSource} {e : PyException}
    {summary : CsvValidationSummary} (storable : Storable deployment source)
    (returned : (deployment.fileRun source).result = .ok summary) :
    ¬ Blames deployment .quiet source e := by
  intro blames
  cases blames with
  | raised c _ raised => exact raised
  | failed t _ failed => exact failed
  | refused unstorable _ => exact unstorable storable
  | stream raised =>
      rw [returned] at raised
      cases raised

/-- Without an issue the run has read the whole input, and its rows are numbered
from 2 on without a gap. -/
def Complete (limits : CsvLimits) (bytes : Bytes) (run : ValidationRun)
    (summary : CsvValidationSummary) : Prop :=
  summary.reachedEof = true ∧ 0 < summary.rowCount ∧
    summary.rowCount = (dataRecords limits bytes).length ∧
    run.rows.map ValidatedRow.lineNumber = List.range' 2 summary.rowCount

/-- Record accounting, and that `validate` never ends in its `RuntimeError`: not for a
claimed report with empty tables, whatever fails with another exception, as long as no
other worker interferes with it (`lockedSpec`). -/
theorem record_accounting (limits : CsvLimits) (sizes : StreamSizes) (chunks : List Bytes) :
    (∃ perRecord final,
      Accounts limits chunks.flatten (validateCsvStream limits sizes chunks) perRecord final) ∧
    (∀ summary, (validateCsvStream limits sizes chunks).result = .ok summary →
      (validateCsvStream limits sizes chunks).reported = [] →
        Complete limits chunks.flatten (validateCsvStream limits sizes chunks) summary) ∧
    ∀ (deployment : Deployment) (delivery : Delivery deployment) (faults : Faults)
      (source : ReportSource) (s : Ledger), Stored source s [] [] →
      (∀ c, ¬ faults.raises c .runtimeError) → (∀ t, ¬ faults.fails t .runtimeError) →
        wp (lockedSpec deployment faults) (validate deployment delivery source)
          (fun result _ _ => result ≠ .error .runtimeError) [] s := by
  obtain ⟨perRecord, final, accounts⟩ := validateCsvStream_accounts limits sizes chunks
  refine ⟨⟨perRecord, final, accounts⟩, ?_, ?_⟩
  · intro summary returned clean
    exact accounts.complete returned clean
  · intro deployment delivery faults source s stored raises fails
    refine wp_mono _ _ ?_ _ _ (wp_validate delivery stored ⟨rfl, by simp [stagingBatches], rfl,
      by simp [errorBatches]⟩)
    intro result log s validated same
    rw [same] at validated
    obtain ⟨_, ⟨_, lost⟩ | blames⟩ := validated
    · cases lost
    · exact blames_runtimeError raises fails blames

def sampleChunks : List Bytes :=
  (sampleDelivery.chunking sampleSource).chunks

theorem record_accounting_sampleChunks :
    Complete sampleDeployment.limits sampleChunks.flatten
      (validateCsvStream sampleDeployment.limits sampleDelivery.sizes sampleChunks) ⟨2, true⟩ :=
  (record_accounting sampleDeployment.limits sampleDelivery.sizes sampleChunks).2.1 ⟨2, true⟩
    (by decide +kernel) (by decide +kernel)

/-! ## The decision -/

/-- Exactly the lines whose pair has an earlier line, each once. -/
structure Repeated (rows duplicates : List ValidatedRow) : Prop where
  lines : (duplicates.map ValidatedRow.lineNumber).Nodup
  earlier : ∀ row, row ∈ duplicates ↔ row ∈ rows ∧ ∃ other ∈ rows,
    other.warehouseCode = row.warehouseCode ∧ other.sku = row.sku ∧
      other.lineNumber < row.lineNumber

/-- What the calls of a run lead to: the batches, the errors and the report. -/
structure Decided (deployment : Deployment) (source : ReportSource) (run : ValidationRun)
    (outcome : WorkerCycleOutcome) (log : List (Commit workerInterface)) (s : Ledger)
    (duplicates : List ValidatedRow) : Prop where
  batches : Written deployment source.id log run.rows run.reported
  repeated : Repeated run.rows duplicates
  errors : (s.db.errorsOf source.id).map ReportError.toValidationIssue =
    run.reported ++ duplicates.map (duplicateIssue deployment.duplicateRawValueChars)
  returned : outcome = .validated ∨ outcome = .validationFailed
  decision : outcome = .validated ↔ run.reported = [] ∧ DistinctPairs run.rows
  validated : outcome = .validated → s.db.stagedRows source.id = run.rows ∧
    ∃ report, s.db.reports.find source.id = some report ∧ report.status = .processing ∧
      report.rowCount = run.rows.length ∧ report.errorCount = 0
  refused : outcome = .validationFailed → s.db.stagedRows source.id = [] ∧
    ∃ report, s.db.reports.find source.id = some report ∧ report.status = .failed ∧
      report.errorCount = run.reported.length + duplicates.length ∧
      ∃ reachedEof, run.result = .ok ⟨report.rowCount, reachedEof⟩

section Locked

variable {deployment : Deployment} {faults : Faults} {source : ReportSource}

theorem repeated_duplicateRows {rows : List ValidatedRow}
    (lines : (rows.map ValidatedRow.lineNumber).Nodup) : Repeated rows (duplicateRows rows) where
  lines := lines.sublist (List.filter_sublist.map _)
  earlier row := by
    rw [mem_duplicateRows]
    simp only [samePair, Prod.mk.injEq, and_assoc]

theorem Validated.decided {outcome : WorkerCycleOutcome} {log : List (Commit workerInterface)}
    {s : Ledger} (delivery : Delivery deployment)
    (validated : Validated deployment faults source (.ok outcome) log s) :
    Decided deployment source (delivery.run source) outcome log s
      (duplicateRows (delivery.run source).rows) := by
  obtain ⟨rows, reported, result⟩ := delivery.run_file source
  have lines := fileRows_lines deployment source
  obtain ⟨written, ⟨rfl, ready⟩ | ⟨rfl, refused⟩⟩ := validated
  · obtain ⟨report, found, _, status, count, valid, staged, errors⟩ := ready
    have none : duplicateRows (deployment.fileRows source) = [] :=
      (duplicateRows_eq_nil lines).mpr valid.distinct
    rw [← rows, ← reported] at written
    refine ⟨written, rows ▸ repeated_duplicateRows lines, ?_, Or.inl rfl, ?_, ?_, ?_⟩
    · rw [errors, reported, rows, valid.clean, none]
      rfl
    · rw [reported, rows]
      exact ⟨fun _ => ⟨valid.clean, valid.distinct⟩, fun _ => rfl⟩
    · intro _
      rw [rows]
      exact ⟨staged, report, found, status, valid.length.symm, count⟩
    · intro same
      cases same
  · obtain ⟨⟨report, found, _, status, _, count, rowCount⟩, staged, errors, wrong⟩ := refused
    rw [← rows, ← reported] at written
    refine ⟨written, rows ▸ repeated_duplicateRows lines, ?_, Or.inr rfl, ?_, ?_, ?_⟩
    · rw [reported, rows]
      exact errors
    · rw [reported, rows]
      exact ⟨fun same => (by cases same), fun fine => absurd fine wrong⟩
    · intro same
      cases same
    · intro _
      rw [reported, rows, result]
      exact ⟨staged, report, found, status, count, rowCount⟩

/-- `validate` decides exactly and stages without a loss: whenever it returns, whatever
happens in between, and it does return where nothing goes wrong and the database takes
what the file shows (`Storable`). -/
theorem validate_decides (deployment : Deployment) (delivery : Delivery deployment)
    (source : ReportSource) (s : Ledger) (claimed : Stored source s [] []) :
    (∀ faults, wp (lockedSpec deployment faults) (validate deployment delivery source)
      (fun result log s => ∀ outcome, result = .ok outcome →
        ∃ duplicates,
          Decided deployment source (delivery.run source) outcome log s duplicates) [] s) ∧
    ∀ summary, (delivery.run source).result = .ok summary → Storable deployment source →
      ∃ outcome duplicates,
        ((validate deployment delivery source).runAlone Transaction.exec [] s).result =
            .ok outcome ∧
          Decided deployment source (delivery.run source) outcome
            ((validate deployment delivery source).runAlone Transaction.exec [] s).log
            ((validate deployment delivery source).runAlone Transaction.exec [] s).state
            duplicates := by
  have empty : Written deployment source.id [] [] [] :=
    ⟨rfl, by simp [stagingBatches], rfl, by simp [errorBatches]⟩
  refine ⟨?_, ?_⟩
  · intro faults
    refine wp_mono _ _ ?_ _ _ (wp_validate delivery claimed empty)
    intro result log s validated outcome same
    rw [same] at validated
    exact ⟨_, Validated.decided delivery validated⟩
  · intro summary returned storable
    have ends := wp_runAlone (lockedSpec deployment .quiet) _ _ _ _
      (wp_validate delivery claimed empty)
    simp only [lockedSpec] at ends
    cases result : ((validate deployment delivery source).runAlone Transaction.exec [] s).result with
    | ok outcome =>
        rw [result] at ends
        exact ⟨outcome, _, rfl, Validated.decided delivery ends⟩
    | error e =>
        rw [result] at ends
        obtain ⟨_, ⟨impossible, _⟩ | blames⟩ := ends
        · exact impossible.elim
        · rw [(delivery.run_file source).2.2] at returned
          exact absurd blames (blames_quiet storable returned)

end Locked

/-- The ledger after the claim of the first sample report. -/
def sampleLedger : Ledger :=
  ((Environment.register ⟨1, "stock.csv", "originals", "first", 80, none, 0⟩).step .empty).elim
    .empty fun db => ⟨(claimOrRecoverNextReport db).2, []⟩

theorem validate_decides_sampleLedger : ∃ outcome duplicates,
    ((validate sampleDeployment sampleDelivery sampleSource).runAlone Transaction.exec []
        sampleLedger).result = .ok outcome ∧
      Decided sampleDeployment sampleSource (sampleDelivery.run sampleSource) outcome
        ((validate sampleDeployment sampleDelivery sampleSource).runAlone Transaction.exec []
          sampleLedger).log
        ((validate sampleDeployment sampleDelivery sampleSource).runAlone Transaction.exec []
          sampleLedger).state duplicates :=
  (validate_decides sampleDeployment sampleDelivery sampleSource sampleLedger
    ⟨⟨_, rfl, rfl, rfl, rfl⟩, rfl, rfl⟩).2 ⟨2, true⟩ (by decide +kernel)
    ⟨by decide +kernel, by decide +kernel⟩

end StockImport.Worker
