import StockImport.Db.Inventory

/-!
# The transactions of the worker

Every short transaction of `report_processing` and the one of `apply_report`, as
functions on the database.  A transaction that raises has no effect.

`ReportData` is what the database holds about one report.  Each transaction has
one lemma that says what it does to the data of its report; the data of every
other report it leaves alone (`Changes`).
-/

set_option autoImplicit false

namespace StockImport.Db

open PyText Tables Csv

structure ReportSource where
  id : Nat
  objectBucket : String
  objectKey : String
  deriving DecidableEq, Repr

def reportSource (report : Report) : ReportSource :=
  ⟨report.id, report.objectBucket, report.objectKey⟩

structure ApplyResult where
  reportId : Nat
  rowCount : Nat
  stocksCreated : Nat
  stocksUpdated : Nat
  stocksZeroed : Nat
  deriving DecidableEq, Repr

/-! ## The rows of one report -/

def Database.hasReport (db : Database) (reportId : Nat) : Bool := (db.reports.find reportId).isSome

/-- The staging rows of a report without the report's id. -/
def Database.stagedRows (db : Database) (reportId : Nat) : List ValidatedRow :=
  (db.stagingOf reportId).map StagingRow.toValidatedRow

/-! ## Statements on the tables of a report -/

def Database.deleteStaging (db : Database) (reportId : Nat) : Database :=
  { db with staging := db.staging.deleteWhere fun row => row.reportId = reportId }

def Database.deleteErrors (db : Database) (reportId : Nat) : Database :=
  { db with errors := db.errors.filter fun error => error.reportId ≠ reportId }

/-- `UPDATE reports SET … WHERE id = … AND status = 'processing'`. -/
def Database.updateProcessing (db : Database) (reportId : Nat) (set : Report → Report)
    (keeps : ∀ report, (set report).id = report.id) : Database :=
  { db with
    reports := db.reports.updateWhere
      (fun report => decide (report.id = reportId) && decide (report.status = .processing))
      set keeps }

/-- The change of one loaded report object, written back under its key. -/
def Database.updateReport (db : Database) (reportId : Nat) (set : Report → Report)
    (keeps : ∀ report, (set report).id = report.id) : Database :=
  { db with reports := db.reports.updateWhere (fun report => report.id = reportId) set keeps }

def newErrors (reportId now : Nat) : (nextId : Nat) → List ValidationIssue → List ReportError
  | _, [] => []
  | nextId, issue :: rest =>
      { issue with id := nextId, reportId := reportId, createdAt := now } ::
        newErrors reportId now (nextId + 1) rest

/-- `INSERT INTO report_errors`; rows of an unknown report violate the foreign key. -/
def Database.insertErrors (db : Database) (reportId : Nat) (issues : List ValidationIssue) :
    Except PyException Database :=
  if issues = [] ∨ db.hasReport reportId = true then
    .ok { db with
      errors := db.errors ++ newErrors reportId db.now db.nextErrorId issues
      nextErrorId := db.nextErrorId + issues.length }
  else .error .sqlAlchemyError

/-! ## Validation -/

def stagingRow (reportId : Nat) (row : ValidatedRow) : StagingRow :=
  { row with reportId := reportId }

/-- `_write_batch` of staging rows. -/
def writeStagingBatch (reportId : Nat) (batch : List ValidatedRow) (db : Database) :
    Except PyException Database :=
  if batch.all storableRow && db.hasReport reportId then
    match db.staging.insertAll (batch.map (stagingRow reportId)) with
    | none => .error .sqlAlchemyError
    | some staging => .ok { db with staging := staging }
  else .error .sqlAlchemyError

/-- `_write_batch` of errors. -/
def writeErrorBatch (reportId : Nat) (batch : List ValidationIssue) (db : Database) :
    Except PyException Database :=
  if batch.all storableIssue then db.insertErrors reportId batch else .error .sqlAlchemyError

def samePair (row : ValidatedRow) : Text × Text := (row.warehouseCode, row.sku)

/-- The rows with `duplicate_rank > 1`. -/
def duplicateRows (staged : List ValidatedRow) : List ValidatedRow :=
  staged.filter fun row => 1 < rowNumber samePair ValidatedRow.lineNumber staged row

def duplicateIssue (rawValueChars : Nat) (row : ValidatedRow) : ValidationIssue where
  lineNumber := some row.lineNumber
  fieldName := some .warehouseCodeSku
  code := .duplicateWarehouseSku
  message := "The warehouse_code and sku pair is duplicated in this report"
  rawData := some
    [("warehouse_code", .text (row.warehouseCode.take rawValueChars)),
      ("warehouse_name", .text (row.warehouseName.take rawValueChars)),
      ("sku", .text (row.sku.take rawValueChars)),
      ("product_name", .text (row.productName.take rawValueChars)),
      ("quantity", .number row.quantity.value),
      ("_truncated", .flag (rawValueChars < row.warehouseCode.length ||
        rawValueChars < row.warehouseName.length || rawValueChars < row.sku.length ||
        rawValueChars < row.productName.length))]

/-- `INSERT INTO report_errors SELECT …`.  The statement has no `ORDER BY`; that the
database gives the ids by the order of the staging rows is assumed here. -/
def insertDuplicateErrors (rawValueChars reportId : Nat) (db : Database) :
    Except PyException Database :=
  db.insertErrors reportId
    ((duplicateRows (db.stagedRows reportId)).map (duplicateIssue rawValueChars))

def errorCount (reportId : Nat) (db : Database) : Nat := (db.errorsOf reportId).length

def Report.failValidation (now rowCount errorCount : Nat) (report : Report) : Report :=
  { report with
    status := .failed
    finishedAt := some now
    rowCount := rowCount
    errorCount := errorCount
    failureKind := some .validation
    failureMessage := some "Report contains validation errors" }

theorem Report.failValidation_id (now rowCount errorCount : Nat) (report : Report) :
    (report.failValidation now rowCount errorCount).id = report.id := rfl

def finalizeValidationFailure (reportId rowCount errorCount : Nat) (db : Database) : Database :=
  (db.deleteStaging reportId).updateProcessing reportId
    (Report.failValidation db.now rowCount errorCount)
    (Report.failValidation_id db.now rowCount errorCount)

def Report.setValidated (rowCount : Nat) (report : Report) : Report :=
  { report with rowCount := rowCount, errorCount := 0 }

theorem Report.setValidated_id (rowCount : Nat) (report : Report) :
    (report.setValidated rowCount).id = report.id := rfl

/-- The last transaction of a successful `validate`. -/
def markValidated (reportId rowCount : Nat) (db : Database) : Database :=
  db.updateProcessing reportId (Report.setValidated rowCount) (Report.setValidated_id rowCount)

/-! ## Claim -/

def Report.isOpen (report : Report) : Bool :=
  report.status == .pending || report.status == .processing

/-- `ORDER BY created_at, id`. -/
def Report.precedes (report other : Report) : Bool :=
  decide (report.createdAt < other.createdAt) ||
    (decide (report.createdAt = other.createdAt) && decide (report.id ≤ other.id))

def firstInQueue : List Report → Option Report
  | [] => none
  | report :: rest =>
      if report.isOpen then
        match firstInQueue rest with
        | none => some report
        | some best => if best.precedes report then some best else some report
      else firstInQueue rest

def validationIsComplete (db : Database) (report : Report) : Bool :=
  if report.rowCount = 0 ∨ report.errorCount ≠ 0 then false
  else
    let stagingCount := (db.stagingOf report.id).length
    let storedErrorCount := (db.errorsOf report.id).length
    decide (stagingCount = report.rowCount) && decide (storedErrorCount = 0)

def Report.claim (now : Nat) (report : Report) : Report :=
  { report with
    status := .processing
    processingStartedAt := some now
    finishedAt := none
    rowCount := 0
    errorCount := 0
    failureKind := none
    failureMessage := none }

theorem Report.claim_id (now : Nat) (report : Report) : (report.claim now).id = report.id := rfl

def claimOrRecoverNextReport (db : Database) : Option (ReportSource × Bool) × Database :=
  match firstInQueue db.reports.rows with
  | none => (none, db)
  | some report =>
      if report.status = .processing ∧ validationIsComplete db report = true then
        (some (reportSource report, true), db)
      else
        (some (reportSource report, false),
          ((db.deleteStaging report.id).deleteErrors report.id).updateReport report.id
            (Report.claim db.now) (Report.claim_id db.now))

/-! ## Failures -/

def failureIssue (code : IssueCode) (message : String) : ValidationIssue where
  lineNumber := none
  fieldName := none
  code := code
  message := message
  rawData := none

/-- `error_count or 1`. -/
def atLeastOne (count : Nat) : Nat := if count = 0 then 1 else count

/-- The common body of `_mark_processing_failed` and `_mark_apply_failed`. -/
def markFailed (issue : ValidationIssue) (set : (errorCount : Nat) → Report → Report)
    (keeps : ∀ errorCount report, (set errorCount report).id = report.id) (reportId : Nat)
    (db : Database) : Except PyException Database :=
  match (db.deleteStaging reportId).insertErrors reportId [issue] with
  | .error e => .error e
  | .ok db => .ok (db.updateProcessing reportId
      (set (atLeastOne (errorCount reportId db))) (keeps (atLeastOne (errorCount reportId db))))

def Report.failProcessing (now errorCount : Nat) (report : Report) : Report :=
  { report with
    status := .failed
    finishedAt := some now
    errorCount := errorCount
    failureKind := some .processing
    failureMessage := some "Report processing failed" }

theorem Report.failProcessing_id (now errorCount : Nat) (report : Report) :
    (report.failProcessing now errorCount).id = report.id := rfl

def markProcessingFailed (reportId : Nat) (db : Database) : Except PyException Database :=
  markFailed (failureIssue .processingError "Report processing failed")
    (Report.failProcessing db.now) (Report.failProcessing_id db.now) reportId db

def Report.failApply (now errorCount : Nat) (report : Report) : Report :=
  { report with
    status := .failed
    finishedAt := some now
    errorCount := errorCount
    stocksCreated := 0
    stocksUpdated := 0
    stocksZeroed := 0
    failureKind := some .processing
    failureMessage := some "Atomic report apply failed" }

theorem Report.failApply_id (now errorCount : Nat) (report : Report) :
    (report.failApply now errorCount).id = report.id := rfl

def markApplyFailed (reportId : Nat) (db : Database) : Except PyException Database :=
  markFailed (failureIssue .applyError "Atomic report apply failed")
    (Report.failApply db.now) (Report.failApply_id db.now) reportId db

/-! ## Apply -/

def Report.complete (now : Nat) (counters : Counters) (report : Report) : Report :=
  { report with
    status := .completed
    finishedAt := some now
    stocksCreated := counters.stocksCreated
    stocksUpdated := counters.stocksUpdated
    stocksZeroed := counters.stocksZeroed
    failureKind := none
    failureMessage := none }

theorem Report.complete_id (now : Nat) (counters : Counters) (report : Report) :
    (report.complete now counters).id = report.id := rfl

/-- What the transaction of `apply` tests before its statements. -/
def readyForApply (db : Database) (report : Report) : Bool :=
  decide (report.status = .processing) && decide (report.errorCount = 0) &&
    decide (0 < report.rowCount) &&
      decide ((db.stagedRows report.id).length = report.rowCount)

/-- The transaction of `ApplyReportService.apply`. -/
def applyReport (reportId : Nat) (db : Database) : Except PyException (ApplyResult × Database) :=
  match db.reports.find reportId with
  | none => .error .reportNotReadyForApply
  | some report =>
      if readyForApply db report = false then .error .reportNotReadyForApply
      else
        match applyStatements db.inventory (db.stagedRows reportId) db.now with
        | none => .error .sqlAlchemyError
        | some (inventory, counters) =>
            .ok
              (⟨reportId, report.rowCount, counters.stocksCreated, counters.stocksUpdated,
                  counters.stocksZeroed⟩,
                { (db.updateReport reportId (Report.complete db.now counters)
                    (Report.complete_id db.now counters)).deleteStaging reportId with
                  inventory := inventory })

/-! ## Other parties -/

/-- What `register_original` commits. -/
structure Registration where
  id : Nat
  originalFilename : String
  objectBucket : String
  objectKey : String
  sizeBytes : Nat
  checksumSha256 : Option String
  createdAt : Nat

def Registration.report (registration : Registration) : Report where
  id := registration.id
  status := .pending
  originalFilename := registration.originalFilename
  objectBucket := registration.objectBucket
  objectKey := registration.objectKey
  sizeBytes := registration.sizeBytes
  checksumSha256 := registration.checksumSha256
  createdAt := registration.createdAt
  processingStartedAt := none
  finishedAt := none
  rowCount := 0
  errorCount := 0
  stocksCreated := 0
  stocksUpdated := 0
  stocksZeroed := 0
  failureKind := none
  failureMessage := none

inductive Environment where
  | register (registration : Registration)
  | tick

/-- A registration, which needs a new id and a new object, or a tick of the clock. -/
def Environment.step (db : Database) : Environment → Option Database
  | .register registration =>
      if db.reports.rows.any fun report =>
          report.objectBucket == registration.objectBucket &&
            report.objectKey == registration.objectKey then none
      else
        (db.reports.insertAll [registration.report]).map fun reports =>
          { db with reports := reports }
  | .tick => some { db with now := db.now + 1 }

/-! ## The data of one report -/

structure ReportData where
  report : Option Report
  staged : List ValidatedRow
  errors : List ReportError

def Database.dataOf (db : Database) (id : Nat) : ReportData :=
  ⟨db.reports.find id, db.stagedRows id, db.errorsOf id⟩

/-- Only the data of one report changes. -/
structure Changes (db db' : Database) (id : Nat) (data : ReportData) (inventory : Inventory) :
    Prop where
  own : db'.dataOf id = data
  others : ∀ other, other ≠ id → db'.dataOf other = db.dataOf other
  inventory : db'.inventory = inventory

theorem Changes.trans {db db' db'' : Database} {id : Nat} {data data' : ReportData}
    {inventory inventory' : Inventory} (first : Changes db db' id data inventory)
    (second : Changes db' db'' id data' inventory') : Changes db db'' id data' inventory' where
  own := second.own
  others other different := (second.others other different).trans (first.others other different)
  inventory := second.inventory

theorem Changes.rows {db db' : Database} {id : Nat} {data : ReportData} {inventory : Inventory}
    (changes : Changes db db' id data inventory) (other : Nat) :
    db'.reports.find other = if other = id then data.report else db.reports.find other := by
  by_cases same : other = id
  · rw [if_pos same, same]
    exact congrArg ReportData.report changes.own
  · rw [if_neg same]
    exact congrArg ReportData.report (changes.others other same)

theorem Changes.errorsOf {db db' : Database} {id : Nat} {data : ReportData} {inventory : Inventory}
    (changes : Changes db db' id data inventory) (other : Nat) :
    db'.errorsOf other = if other = id then data.errors else db.errorsOf other := by
  by_cases same : other = id
  · rw [if_pos same, same]
    exact congrArg ReportData.errors changes.own
  · rw [if_neg same]
    exact congrArg ReportData.errors (changes.others other same)

theorem deleteStaging_changes (db : Database) (id : Nat) :
    Changes db (db.deleteStaging id) id { db.dataOf id with staged := [] } db.inventory where
  own := by
    have none : (db.deleteStaging id).stagedRows id = [] := by
      simp only [Database.stagedRows, Database.stagingOf, Database.deleteStaging,
        Table.deleteWhere, List.filter_filter, List.map_eq_nil_iff, List.filter_eq_nil_iff]
      intro row _
      simp
    simp only [Database.dataOf, none]
    rfl
  others other different := by
    have same : (db.deleteStaging id).stagedRows other = db.stagedRows other := by
      simp only [Database.stagedRows, Database.stagingOf, Database.deleteStaging,
        Table.deleteWhere, List.filter_filter]
      congr 1
      apply List.filter_congr
      intro row _
      by_cases mine : row.reportId = other
      · simp [mine, different]
      · simp [mine]
    simp only [Database.dataOf, same]
    rfl
  inventory := rfl

theorem deleteErrors_changes (db : Database) (id : Nat) :
    Changes db (db.deleteErrors id) id { db.dataOf id with errors := [] } db.inventory where
  own := by
    have none : (db.deleteErrors id).errorsOf id = [] := by
      simp only [Database.errorsOf, Database.deleteErrors, List.filter_filter,
        List.filter_eq_nil_iff]
      intro error _
      simp
    simp only [Database.dataOf, none]
    rfl
  others other different := by
    have same : (db.deleteErrors id).errorsOf other = db.errorsOf other := by
      simp only [Database.errorsOf, Database.deleteErrors, List.filter_filter]
      apply List.filter_congr
      intro error _
      by_cases mine : error.reportId = other
      · simp [mine, different]
      · simp [mine]
    simp only [Database.dataOf, same]
    rfl
  inventory := rfl

theorem updateReport_changes (db : Database) (id : Nat) (set : Report → Report)
    (keeps : ∀ report, (set report).id = report.id) :
    Changes db (db.updateReport id set keeps) id
      { db.dataOf id with report := (db.reports.find id).map set } db.inventory where
  own := by
    simp only [Database.dataOf, Database.updateReport, Table.find_updateWhere]
    cases found : db.reports.find id with
    | none => rfl
    | some report =>
        have mine : report.id = id := ((Table.find_eq_some _).mp found).2
        simp only [Option.map_some, mine, decide_true, if_true]
        rfl
  others other different := by
    simp only [Database.dataOf, Database.updateReport, Table.find_updateWhere]
    cases found : db.reports.find other with
    | none => rfl
    | some report =>
        have mine : report.id = other := ((Table.find_eq_some _).mp found).2
        simp only [Option.map_some, mine, different, decide_false, Bool.false_eq_true, if_false]
        rfl
  inventory := rfl

/-- The report after an update that asks for `processing`. -/
def whileProcessing (set : Report → Report) (report : Report) : Report :=
  if report.status = .processing then set report else report

/-- The update of a report that is in `processing`. -/
theorem whileProcessing_found {found : Option Report} {report : Report} {set : Report → Report}
    (same : found = some report) (status : report.status = .processing) :
    found.map (whileProcessing set) = some (set report) := by
  rw [same, Option.map_some, whileProcessing, if_pos status]

theorem updateProcessing_changes (db : Database) (id : Nat) (set : Report → Report)
    (keeps : ∀ report, (set report).id = report.id) :
    Changes db (db.updateProcessing id set keeps) id
      { db.dataOf id with report := (db.reports.find id).map (whileProcessing set) }
      db.inventory where
  own := by
    simp only [Database.dataOf, Database.updateProcessing, Table.find_updateWhere]
    cases found : db.reports.find id with
    | none => rfl
    | some report =>
        have mine : report.id = id := ((Table.find_eq_some _).mp found).2
        simp only [Option.map_some, mine, decide_true, Bool.true_and, decide_eq_true_eq]
        rfl
  others other different := by
    simp only [Database.dataOf, Database.updateProcessing, Table.find_updateWhere]
    cases found : db.reports.find other with
    | none => rfl
    | some report =>
        have mine : report.id = other := ((Table.find_eq_some _).mp found).2
        simp only [Option.map_some, mine, different, decide_false, Bool.false_and,
          Bool.false_eq_true, if_false]
        rfl
  inventory := rfl

theorem newErrors_issues (reportId now : Nat) : ∀ (issues : List ValidationIssue) (nextId : Nat),
    (newErrors reportId now nextId issues).map ReportError.toValidationIssue = issues := by
  intro issues
  induction issues with
  | nil => intro nextId; rfl
  | cons issue rest ih =>
      intro nextId
      simp only [newErrors, List.map_cons, ih]

theorem newErrors_reportId (reportId now : Nat) : ∀ (issues : List ValidationIssue) (nextId : Nat),
    ∀ error ∈ newErrors reportId now nextId issues, error.reportId = reportId := by
  intro issues
  induction issues with
  | nil => intro nextId error member; cases member
  | cons issue rest ih =>
      intro nextId error member
      rcases List.mem_cons.mp member with rfl | later
      · rfl
      · exact ih (nextId + 1) error later

theorem insertErrors_changes {db db' : Database} {id : Nat} {issues : List ValidationIssue}
    (inserted : db.insertErrors id issues = .ok db') :
    ∃ added : List ReportError, added.map ReportError.toValidationIssue = issues ∧
      Changes db db' id { db.dataOf id with errors := db.errorsOf id ++ added } db.inventory := by
  unfold Database.insertErrors at inserted
  split at inserted
  · cases inserted
    have ids := newErrors_reportId id db.now issues db.nextErrorId
    refine ⟨newErrors id db.now db.nextErrorId issues, newErrors_issues id db.now issues _, ?_, ?_, rfl⟩
    · have all : (newErrors id db.now db.nextErrorId issues).filter
          (fun error => error.reportId = id) = newErrors id db.now db.nextErrorId issues := by
        rw [List.filter_eq_self]
        intro error member
        simp [ids error member]
      simp only [Database.dataOf, Database.errorsOf, List.filter_append, all]
      rfl
    · intro other different
      have none : (newErrors id db.now db.nextErrorId issues).filter
          (fun error => error.reportId = other) = [] := by
        rw [List.filter_eq_nil_iff]
        intro error member
        simp [ids error member, Ne.symm different]
      simp only [Database.dataOf, Database.errorsOf, List.filter_append, none, List.append_nil]
      rfl
  · cases inserted

theorem insertErrors_ok {db : Database} {id : Nat} (issues : List ValidationIssue)
    (known : db.hasReport id = true) : ∃ db', db.insertErrors id issues = .ok db' := by
  unfold Database.insertErrors
  rw [if_pos (Or.inr known)]
  exact ⟨_, rfl⟩

/-- A row is a duplicate when an earlier line has its pair. -/
theorem mem_duplicateRows {staged : List ValidatedRow} {row : ValidatedRow} :
    row ∈ duplicateRows staged ↔ row ∈ staged ∧
      ∃ other ∈ staged, samePair other = samePair row ∧ other.lineNumber < row.lineNumber := by
  simp only [duplicateRows, List.mem_filter, decide_eq_true_eq, one_lt_rowNumber]

theorem duplicateRows_eq_nil {staged : List ValidatedRow}
    (lines : (staged.map ValidatedRow.lineNumber).Nodup) :
    duplicateRows staged = [] ↔ DistinctPairs staged := by
  constructor
  · intro none
    refine lines.of_map.map_on ?_
    intro row member other otherMember same
    have earlier : ∀ row ∈ staged, ∀ other ∈ staged, samePair other = samePair row →
        row.lineNumber ≤ other.lineNumber := by
      intro row member other otherMember same
      by_contra before
      have duplicate : row ∈ duplicateRows staged :=
        mem_duplicateRows.mpr ⟨member, other, otherMember, same, Nat.lt_of_not_le before⟩
      rw [none] at duplicate
      cases duplicate
    have order := earlier row member other otherMember same.symm
    have back := earlier other otherMember row member same
    exact List.inj_on_of_nodup_map lines member otherMember (Nat.le_antisymm order back)
  · intro distinct
    rw [List.eq_nil_iff_forall_not_mem]
    intro row duplicate
    obtain ⟨member, other, otherMember, same, before⟩ := mem_duplicateRows.mp duplicate
    have equal : other = row := List.inj_on_of_nodup_map distinct otherMember member same
    rw [equal] at before
    exact Nat.lt_irrefl _ before

/-! ## What each transaction does -/

theorem writeStagingBatch_changes {id : Nat} {batch : List ValidatedRow} {db db' : Database}
    (written : writeStagingBatch id batch db = .ok db') :
    Changes db db' id { db.dataOf id with staged := db.stagedRows id ++ batch } db.inventory := by
  unfold writeStagingBatch at written
  split at written
  · split at written
    · cases written
    · next staging inserted =>
        cases written
        have rows := Table.insertAll_rows inserted
        refine ⟨?_, ?_, rfl⟩
        · have all : (batch.map (stagingRow id)).filter (fun row => row.reportId = id) =
              batch.map (stagingRow id) := by
            rw [List.filter_eq_self]
            intro row member
            obtain ⟨_, _, rfl⟩ := List.mem_map.mp member
            simp [stagingRow]
          have back : (batch.map (stagingRow id)).map StagingRow.toValidatedRow = batch := by
            simp [stagingRow, Function.comp_def]
          simp only [Database.dataOf, Database.stagedRows, Database.stagingOf, rows,
            List.filter_append, all, List.map_append, back]
          rfl
        · intro other different
          have none : (batch.map (stagingRow id)).filter (fun row => row.reportId = other) = [] := by
            rw [List.filter_eq_nil_iff]
            intro row member
            obtain ⟨_, _, rfl⟩ := List.mem_map.mp member
            simp [stagingRow, Ne.symm different]
          simp only [Database.dataOf, Database.stagedRows, Database.stagingOf, rows,
            List.filter_append, none, List.append_nil]
          rfl
  · cases written

theorem stagedRows_lines (db : Database) (id : Nat) :
    ((db.stagedRows id).map ValidatedRow.lineNumber).Nodup := by
  have keys := db.staging.unique
  simp only [Database.stagedRows, Database.stagingOf, List.map_map]
  have sub : ((db.staging.rows.filter fun row => row.reportId = id).map StagingRow.key).Nodup :=
    keys.sublist ((List.filter_sublist).map StagingRow.key)
  refine List.Nodup.of_map (fun line : Nat => (id, line)) ?_
  rw [List.map_map]
  have same : (db.staging.rows.filter fun row => row.reportId = id).map StagingRow.key =
      (db.staging.rows.filter fun row => row.reportId = id).map
        ((fun line => (id, line)) ∘ (ValidatedRow.lineNumber ∘ StagingRow.toValidatedRow)) := by
    apply List.map_congr_left
    intro row member
    have mine : row.reportId = id := by simpa using (List.mem_filter.mp member).2
    simp [StagingRow.key, mine]
  rw [← same]
  exact sub

theorem writeStagingBatch_ok {id : Nat} {batch : List ValidatedRow} {db : Database}
    (storable : batch.all storableRow = true) (known : db.hasReport id = true)
    (distinct : ((db.stagedRows id ++ batch).map ValidatedRow.lineNumber).Nodup) :
    ∃ db', writeStagingBatch id batch db = .ok db' := by
  rw [List.map_append, List.nodup_append] at distinct
  obtain ⟨_, lines, apart⟩ := distinct
  have keys : ((batch.map (stagingRow id)).map StagingRow.key).Nodup := by
    have shape : (batch.map (stagingRow id)).map StagingRow.key =
        (batch.map ValidatedRow.lineNumber).map fun line => (id, line) := by
      simp [stagingRow, StagingRow.key, Function.comp_def]
    rw [shape]
    exact lines.map (fun _ _ same => (Prod.mk.inj same).2)
  have fresh : ∀ row ∈ db.staging.rows, ∀ new ∈ batch.map (stagingRow id),
      row.key ≠ new.key := by
    intro row member new inBatch same
    obtain ⟨validated, inRows, rfl⟩ := List.mem_map.mp inBatch
    simp only [StagingRow.key, stagingRow, Prod.mk.injEq] at same
    refine apart row.lineNumber ?_ validated.lineNumber (List.mem_map_of_mem inRows) same.2
    refine List.mem_map.mpr ⟨row.toValidatedRow, ?_, rfl⟩
    exact List.mem_map_of_mem (List.mem_filter.mpr ⟨member, by simp [same.1]⟩)
  obtain ⟨staging, inserted⟩ := Table.insertAll_some keys fresh
  unfold writeStagingBatch
  rw [storable, known, inserted]
  exact ⟨_, rfl⟩

theorem writeStagingBatch_error {id : Nat} {batch : List ValidatedRow} {db : Database}
    {e : PyException} (refused : writeStagingBatch id batch db = .error e) : e = .sqlAlchemyError := by
  unfold writeStagingBatch at refused
  repeat' split at refused
  all_goals first | cases refused; rfl | cases refused

theorem writeErrorBatch_changes {id : Nat} {batch : List ValidationIssue} {db db' : Database}
    (written : writeErrorBatch id batch db = .ok db') :
    ∃ added : List ReportError, added.map ReportError.toValidationIssue = batch ∧
      Changes db db' id { db.dataOf id with errors := db.errorsOf id ++ added } db.inventory := by
  unfold writeErrorBatch at written
  split at written
  · exact insertErrors_changes written
  · cases written

theorem writeErrorBatch_ok {id : Nat} {batch : List ValidationIssue} {db : Database}
    (storable : batch.all storableIssue = true) (known : db.hasReport id = true) :
    ∃ db', writeErrorBatch id batch db = .ok db' := by
  unfold writeErrorBatch
  rw [storable]
  exact insertErrors_ok batch known

theorem writeErrorBatch_error {id : Nat} {batch : List ValidationIssue} {db : Database}
    {e : PyException} (refused : writeErrorBatch id batch db = .error e) : e = .sqlAlchemyError := by
  unfold writeErrorBatch Database.insertErrors at refused
  repeat' split at refused
  all_goals first | cases refused; rfl | cases refused

theorem finalizeValidationFailure_changes (id rowCount errorCount : Nat) (db : Database) :
    Changes db (finalizeValidationFailure id rowCount errorCount db) id
      { db.dataOf id with
        report := (db.reports.find id).map
          (whileProcessing (Report.failValidation db.now rowCount errorCount))
        staged := [] } db.inventory := by
  have deleted := deleteStaging_changes db id
  have updated := updateProcessing_changes (db.deleteStaging id) id
    (Report.failValidation db.now rowCount errorCount)
    (Report.failValidation_id db.now rowCount errorCount)
  rw [deleted.own] at updated
  exact deleted.trans updated

theorem markValidated_changes (id rowCount : Nat) (db : Database) :
    Changes db (markValidated id rowCount db) id
      { db.dataOf id with
        report := (db.reports.find id).map (whileProcessing (Report.setValidated rowCount)) }
      db.inventory :=
  updateProcessing_changes db id _ _

theorem markFailed_changes {issue : ValidationIssue} {set : Nat → Report → Report}
    {keeps : ∀ errorCount report, (set errorCount report).id = report.id} {id : Nat}
    {db db' : Database} (marked : markFailed issue set keeps id db = .ok db') :
    ∃ added : ReportError, Changes db db' id
      ⟨(db.reports.find id).map (whileProcessing (set ((db.errorsOf id).length + 1))), [],
        db.errorsOf id ++ [added]⟩ db.inventory := by
  unfold markFailed at marked
  split at marked
  · cases marked
  · next db₁ inserted =>
      cases marked
      have deleted := deleteStaging_changes db id
      obtain ⟨added, issues, errors⟩ := insertErrors_changes inserted
      have one : added.length = 1 := by
        rw [← List.length_map ReportError.toValidationIssue, issues]
        rfl
      obtain ⟨error, rfl⟩ := List.length_eq_one_iff.mp one
      have stored : db₁.errorsOf id = db.errorsOf id ++ [error] :=
        congrArg ReportData.errors errors.own
      have count : atLeastOne (errorCount id db₁) = (db.errorsOf id).length + 1 := by
        simp [atLeastOne, errorCount, stored]
      have updated := updateProcessing_changes db₁ id (set (atLeastOne (errorCount id db₁)))
        (keeps (atLeastOne (errorCount id db₁)))
      have report : db₁.reports.find id = db.reports.find id :=
        congrArg ReportData.report errors.own
      have staged : db₁.stagedRows id = [] :=
        (congrArg ReportData.staged errors.own).trans (congrArg ReportData.staged deleted.own)
      refine ⟨error, ?_⟩
      have whole := (deleted.trans errors).trans updated
      rw [report] at whole
      simp only [Database.dataOf, staged, stored] at whole
      rw [← count]
      exact ⟨whole.own, whole.others, whole.inventory.trans errors.inventory⟩

theorem applyReport_changes {id : Nat} {db db' : Database} {result : ApplyResult}
    (applied : applyReport id db = .ok (result, db')) :
    ∃ report inventory counters, db.reports.find id = some report ∧
      readyForApply db report = true ∧
      applyStatements db.inventory (db.stagedRows id) db.now = some (inventory, counters) ∧
      result = ⟨id, report.rowCount, counters.stocksCreated, counters.stocksUpdated,
        counters.stocksZeroed⟩ ∧
      Changes db db' id ⟨some (report.complete db.now counters), [], db.errorsOf id⟩ inventory := by
  unfold applyReport at applied
  cases found : db.reports.find id with
  | none => simp [found] at applied
  | some report =>
      simp only [found] at applied
      split at applied
      · cases applied
      · next ready =>
          split at applied
          · cases applied
          · next inventory counters statements =>
              cases applied
              have updated := updateReport_changes db id (Report.complete db.now counters)
                (Report.complete_id db.now counters)
              have deleted := deleteStaging_changes (db.updateReport id
                (Report.complete db.now counters) (Report.complete_id db.now counters)) id
              have whole := updated.trans deleted
              rw [updated.own, found] at whole
              exact ⟨report, inventory, counters, rfl, by simpa using ready, statements, rfl,
                whole.own, whole.others, rfl⟩

theorem firstInQueue_some {reports : List Report} {report : Report}
    (first : firstInQueue reports = some report) : report ∈ reports ∧ report.isOpen = true := by
  induction reports with
  | nil => cases first
  | cons other rest ih =>
      simp only [firstInQueue] at first
      split at first
      · next isOpen =>
          split at first
          · cases first
            exact ⟨by simp, isOpen⟩
          · next best found =>
              split at first
              · cases first
                obtain ⟨member, bestOpen⟩ := ih found
                exact ⟨List.mem_cons_of_mem _ member, bestOpen⟩
              · cases first
                exact ⟨by simp, isOpen⟩
      · obtain ⟨member, reportOpen⟩ := ih first
        exact ⟨List.mem_cons_of_mem _ member, reportOpen⟩

/-- The claim of a report for validation. -/
def Database.claim (db : Database) (reportId : Nat) : Database :=
  ((db.deleteStaging reportId).deleteErrors reportId).updateReport reportId
    (Report.claim db.now) (Report.claim_id db.now)

theorem claim_changes {db : Database} {report : Report}
    (found : db.reports.find report.id = some report) :
    Changes db (db.claim report.id) report.id ⟨some (report.claim db.now), [], []⟩
      db.inventory := by
  have staging := deleteStaging_changes db report.id
  have errors := deleteErrors_changes (db.deleteStaging report.id) report.id
  have claimed := updateReport_changes
    ((db.deleteStaging report.id).deleteErrors report.id) report.id (Report.claim db.now)
    (Report.claim_id db.now)
  rw [errors.own, staging.own] at claimed
  have whole := (staging.trans errors).trans claimed
  have same : ((db.deleteStaging report.id).deleteErrors report.id).reports.find report.id =
      some report := found
  rw [same] at whole
  exact whole

/-- The three ways a claim can end. -/
theorem claim_cases (db : Database) :
    (claimOrRecoverNextReport db = (none, db) ∧ firstInQueue db.reports.rows = none) ∨
    ∃ report, db.reports.find report.id = some report ∧ report.isOpen = true ∧
      ((claimOrRecoverNextReport db = (some (reportSource report, true), db) ∧
          report.status = .processing ∧ validationIsComplete db report = true) ∨
        ∃ db', claimOrRecoverNextReport db = (some (reportSource report, false), db') ∧
          ¬(report.status = .processing ∧ validationIsComplete db report = true) ∧
          Changes db db' report.id ⟨some (report.claim db.now), [], []⟩ db.inventory) := by
  unfold claimOrRecoverNextReport
  cases first : firstInQueue db.reports.rows with
  | none => exact Or.inl ⟨rfl, rfl⟩
  | some report =>
      right
      obtain ⟨member, isOpen⟩ := firstInQueue_some first
      have found : db.reports.find report.id = some report :=
        (Table.find_eq_some _).mpr ⟨member, rfl⟩
      refine ⟨report, found, isOpen, ?_⟩
      dsimp only
      by_cases ready : report.status = .processing ∧ validationIsComplete db report = true
      · rw [if_pos ready]
        exact Or.inl ⟨rfl, ready⟩
      · rw [if_neg ready]
        exact Or.inr ⟨_, rfl, ready, claim_changes found⟩

/-- A registration adds a pending report and touches no other. -/
theorem Environment.step_cases {db db' : Database} {environment : Environment}
    (happened : environment.step db = some db') :
    db'.inventory = db.inventory ∧
      ((∀ id, db'.dataOf id = db.dataOf id) ∨
        ∃ registration : Registration, db.reports.find registration.id = none ∧
          Changes db db' registration.id
            { db.dataOf registration.id with report := some registration.report }
            db.inventory) := by
  cases environment with
  | tick =>
      cases happened
      exact ⟨rfl, Or.inl fun id => rfl⟩
  | register registration =>
      simp only [Environment.step] at happened
      split at happened
      · cases happened
      · simp only [Option.map_eq_some_iff] at happened
        obtain ⟨reports, inserted, rfl⟩ := happened
        have rows := Table.insertAll_rows inserted
        refine ⟨rfl, Or.inr ⟨registration, ?_, ?_, ?_, rfl⟩⟩
        · rw [Table.find_eq_none]
          intro report member same
          have unique := reports.unique
          rw [rows, List.map_append, List.nodup_append] at unique
          exact unique.2.2 report.id (List.mem_map_of_mem member) registration.id
            (by simp [Registration.report]) same
        · have found : reports.find registration.id = some registration.report :=
            (Table.find_eq_some _).mpr ⟨by simp [rows], rfl⟩
          simp only [Database.dataOf, found]
          rfl
        · intro other different
          have found : reports.find other = db.reports.find other := by
            simp only [Table.find, rows, List.find?_append]
            cases db.reports.rows.find? fun report => report.id = other with
            | some report => rfl
            | none => simp [Registration.report, Ne.symm different]
          simp only [Database.dataOf, found]
          rfl

end StockImport.Db
