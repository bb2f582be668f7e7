import StockImport.Worker.Programs

/-!
# What the database means

`Sound` says what the data of one report look like for each status; the clause for
`processing` holds the handoff between validation and apply: a report with a row
count is fully validated.  `LedgerSound` adds that the inventory is that of the
completed reports in their order.

`Pre` is what a worker under the lock guarantees before each transaction, and
`transaction_sound` the step lemma.
-/

set_option autoImplicit false

namespace StockImport.Worker

open Csv Db Tables Transactional Snapshots

/-! ## The file of a report -/

/-- The validation of an original file, which does not depend on its delivery. -/
def Deployment.fileRun (deployment : Deployment) (source : ReportSource) : ValidationRun :=
  validateBytes deployment.limits (deployment.file source)

def Deployment.fileRows (deployment : Deployment) (source : ReportSource) : List ValidatedRow :=
  (deployment.fileRun source).rows

def Deployment.fileIssues (deployment : Deployment) (source : ReportSource) :
    List ValidationIssue :=
  (deployment.fileRun source).reported

/-- The whole file is valid and has this many data records. -/
structure ValidFile (deployment : Deployment) (source : ReportSource) (rowCount : Nat) : Prop where
  result : (deployment.fileRun source).result = .ok ⟨rowCount, true⟩
  clean : deployment.fileIssues source = []
  distinct : DistinctPairs (deployment.fileRows source)

theorem ValidFile.lines {deployment : Deployment} {source : ReportSource} {rowCount : Nat}
    (valid : ValidFile deployment source rowCount) :
    0 < rowCount ∧ rowCount = (dataRecords deployment.limits (deployment.file source)).length ∧
      (deployment.fileRows source).map ValidatedRow.lineNumber = List.range' 2 rowCount := by
  obtain ⟨perRecord, final, accounts⟩ :=
    validateBytes_accounts deployment.limits (deployment.file source)
  obtain ⟨_, positive, count, lines⟩ := accounts.complete valid.result valid.clean
  exact ⟨positive, count, lines⟩

theorem ValidFile.length {deployment : Deployment} {source : ReportSource} {rowCount : Nat}
    (valid : ValidFile deployment source rowCount) :
    (deployment.fileRows source).length = rowCount := by
  have lines := congrArg List.length valid.lines.2.2
  simpa using lines

/-! ## The data of a report by status -/

structure SoundPending (data : ReportData) (report : Report) : Prop where
  staged : data.staged = []
  errors : data.errors = []
  rowCount : report.rowCount = 0
  errorCount : report.errorCount = 0
  stocks : report.stocksCreated = 0 ∧ report.stocksUpdated = 0 ∧ report.stocksZeroed = 0
  timestamps : report.processingStartedAt = none ∧ report.finishedAt = none
  failure : report.failureKind = none ∧ report.failureMessage = none

structure Unfinished (report : Report) : Prop where
  finishedAt : report.finishedAt = none
  failure : report.failureKind = none ∧ report.failureMessage = none
  stocks : report.stocksCreated = 0 ∧ report.stocksUpdated = 0 ∧ report.stocksZeroed = 0

structure SoundProcessing (deployment : Deployment) (data : ReportData) (report : Report) : Prop
    extends Unfinished report where
  errorCount : report.errorCount = 0
  /-- The handoff from validation to apply. -/
  handoff : 0 < report.rowCount →
    ValidFile deployment (reportSource report) report.rowCount ∧
      data.staged = deployment.fileRows (reportSource report) ∧ data.errors = []

structure SoundCompleted (data : ReportData) (report : Report) : Prop where
  staged : data.staged = []
  errors : data.errors = []
  errorCount : report.errorCount = 0
  rowCount : 0 < report.rowCount
  finishedAt : report.finishedAt ≠ none
  failure : report.failureKind = none ∧ report.failureMessage = none
  stocks : report.stocksCreated + report.stocksUpdated ≤ report.rowCount

structure SoundFailed (data : ReportData) (report : Report) : Prop where
  staged : data.staged = []
  finishedAt : report.finishedAt ≠ none
  failure : report.failureKind = some .validation ∨ report.failureKind = some .processing
  stocks : report.stocksCreated = 0 ∧ report.stocksUpdated = 0 ∧ report.stocksZeroed = 0
  errorCount : 1 ≤ report.errorCount ∧ report.errorCount = data.errors.length

def SoundReport (deployment : Deployment) (data : ReportData) (report : Report) : Prop :=
  match report.status with
  | .pending => SoundPending data report
  | .processing => SoundProcessing deployment data report
  | .completed => SoundCompleted data report
  | .failed => SoundFailed data report

def Sound (deployment : Deployment) (data : ReportData) : Prop :=
  match data.report with
  | none => data.staged = [] ∧ data.errors = []
  | some report => SoundReport deployment data report

structure LedgerSound (deployment : Deployment) (s : Ledger) : Prop where
  reports : ∀ id, Sound deployment (s.db.dataOf id)
  completed : ∀ source ∈ s.completions, ∃ report, s.db.reports.find source.id = some report ∧
    reportSource report = source ∧ report.status = .completed
  listed : ∀ id report, s.db.reports.find id = some report → report.status = .completed →
    reportSource report ∈ s.completions
  once : (s.completions.map ReportSource.id).Nodup
  valid : ∀ source ∈ s.completions, ∃ rowCount, ValidFile deployment source rowCount
  inventory : s.db.inventory.view =
    snapshotLayout.applyAll (s.completions.map deployment.fileRows)

theorem LedgerSound.empty (deployment : Deployment) : LedgerSound deployment .empty where
  reports id := ⟨rfl, rfl⟩
  completed source member := by cases member
  listed id report found := by cases found
  once := List.nodup_nil
  valid source member := by cases member
  inventory := by
    apply View.ext
    · intro _ _; rfl
    · intro _; rfl
    · intro _; rfl

/-! ## Claims of a worker about its report -/

/-- The report is being validated. -/
def Claimed (source : ReportSource) (s : Ledger) : Prop :=
  ∃ report, s.db.reports.find source.id = some report ∧ reportSource report = source ∧
    report.status = .processing ∧ report.rowCount = 0

/-- The report is ready for apply. -/
def Ready (deployment : Deployment) (source : ReportSource) (s : Ledger) : Prop :=
  ∃ report, s.db.reports.find source.id = some report ∧ reportSource report = source ∧
    report.status = .processing ∧ report.errorCount = 0 ∧
    ValidFile deployment source report.rowCount ∧
    s.db.stagedRows source.id = deployment.fileRows source ∧ s.db.errorsOf source.id = []

/-- What may go wrong for no reason of the worker's own. -/
structure Faults where
  raises : ExternalCall → PyException → Prop
  fails : Transaction → PyException → Prop
  loses : Prop

/-- Every text of the rows and issues of the file is one the database takes. -/
def Storable (deployment : Deployment) (source : ReportSource) : Prop :=
  (∀ row ∈ deployment.fileRows source, storableRow row = true) ∧
    ∀ issue ∈ deployment.fileIssues source, storableIssue issue = true

/-- Where an exception during the work on a report comes from. -/
inductive Blames (deployment : Deployment) (faults : Faults) (source : ReportSource)
    (e : PyException) : Prop where
  | raised (c : ExternalCall) (about : c.reportId = source.id) (raises : faults.raises c e)
  | failed (t : Transaction) (about : t.reportId = some source.id) (fails : faults.fails t e)
  | refused (unstorable : ¬ Storable deployment source) (same : e = .sqlAlchemyError)
  | stream (raised : (deployment.fileRun source).result = .error e)

/-- The precondition of a transaction of the worker that holds the lock. -/
def Pre (deployment : Deployment) (faults : Faults) (s : Ledger) : Transaction → Prop
  | .claim => True
  | .errorCount _ => True
  | .writeStagingBatch id _ => ∃ source, source.id = id ∧ Claimed source s
  | .writeErrorBatch id _ => ∃ source, source.id = id ∧ Claimed source s
  | .insertDuplicateErrors id _ => ∃ source, source.id = id ∧ Claimed source s
  | .finalizeValidationFailure id _ count => ∃ source, source.id = id ∧ Claimed source s ∧
      count = (s.db.errorsOf id).length ∧ 0 < count ∧
      ∀ rowCount, ¬ ValidFile deployment source rowCount
  | .markValidated id rowCount => ∃ source, source.id = id ∧ Claimed source s ∧
      ValidFile deployment source rowCount ∧
      s.db.stagedRows id = deployment.fileRows source ∧ s.db.errorsOf id = []
  | .markProcessingFailed id => ∃ source, source.id = id ∧ Claimed source s ∧
      ∃ e, e ≠ .lockConnectionLost ∧ Blames deployment faults source e
  | .apply id => ∃ source, source.id = id ∧ Ready deployment source s
  | .markApplyFailed id => ∃ source, source.id = id ∧ Ready deployment source s ∧
      ∃ e, e ≠ .lockConnectionLost ∧ Blames deployment faults source e

/-- What registrations and the clock leave as it is. -/
structure Keeps (deployment : Deployment) (s s' : Ledger) : Prop where
  reports : ∀ id, s.db.reports.find id ≠ none → s'.db.dataOf id = s.db.dataOf id
  inventory : s'.db.inventory = s.db.inventory
  completions : s'.completions = s.completions
  sound : LedgerSound deployment s → LedgerSound deployment s'

theorem Keeps.refl (deployment : Deployment) (s : Ledger) : Keeps deployment s s :=
  ⟨fun _ _ => rfl, rfl, rfl, id⟩

theorem Keeps.trans {deployment : Deployment} {s s' s'' : Ledger}
    (first : Keeps deployment s s') (second : Keeps deployment s' s'') :
    Keeps deployment s s'' where
  reports id known := by
    have same := first.reports id known
    have known' : s'.db.reports.find id ≠ none := by
      have report := congrArg ReportData.report same
      intro none
      exact known (report.symm.trans none)
    exact (second.reports id known').trans same
  inventory := second.inventory.trans first.inventory
  completions := second.completions.trans first.completions
  sound before := second.sound (first.sound before)

/-- A worker alone under the lock: others only register reports. -/
def lockedSpec (deployment : Deployment) (faults : Faults) : Spec workerInterface Ledger where
  exec := Transaction.exec
  rely := Keeps deployment
  rely_refl := Keeps.refl deployment
  rely_trans _ _ _ := Keeps.trans
  pre _ t s := Pre deployment faults s t
  raises := faults.raises
  fails := faults.fails
  unknown _ _ := False
  loses := faults.loses

/-! ## The step lemma -/

theorem Sound.processing {deployment : Deployment} {data : ReportData} {report : Report}
    (sound : Sound deployment data) (found : data.report = some report)
    (status : report.status = .processing) : SoundProcessing deployment data report := by
  simp only [Sound, found, SoundReport, status] at sound
  exact sound

theorem sound_of_processing {deployment : Deployment} {data : ReportData} {report : Report}
    (found : data.report = some report) (status : report.status = .processing)
    (sound : SoundProcessing deployment data report) : Sound deployment data := by
  simp only [Sound, found, SoundReport, status]
  exact sound

/-- A transaction that neither finds nor leaves its report completed. -/
theorem LedgerSound.change {deployment : Deployment} {s : Ledger} {db : Database} {id : Nat}
    {data : ReportData} (sound : LedgerSound deployment s)
    (changes : Changes s.db db id data s.db.inventory) (own : Sound deployment data)
    (before : ∀ report, s.db.reports.find id = some report → report.status ≠ .completed)
    (after : ∀ report, data.report = some report → report.status ≠ .completed) :
    LedgerSound deployment { s with db := db } where
  reports other := by
    by_cases same : other = id
    · rw [same]
      exact changes.own ▸ own
    · rw [changes.others other same]
      exact sound.reports other
  completed source member := by
    obtain ⟨report, found, same, status⟩ := sound.completed source member
    have different : source.id ≠ id := by
      intro equal
      exact before report (equal ▸ found) status
    have data := congrArg ReportData.report (changes.others source.id different)
    exact ⟨report, data.trans found, same, status⟩
  listed other report found status := by
    have different : other ≠ id := by
      intro equal
      have own := congrArg ReportData.report changes.own
      exact after report (own.symm.trans (equal ▸ found)) status
    have data := congrArg ReportData.report (changes.others other different)
    exact sound.listed other report (data.symm.trans found) status
  once := sound.once
  valid := sound.valid
  inventory := by
    rw [changes.inventory]
    exact sound.inventory

theorem Claimed.processing {deployment : Deployment} {source : ReportSource} {s : Ledger}
    (sound : LedgerSound deployment s) (claimed : Claimed source s) :
    ∃ report, s.db.reports.find source.id = some report ∧ reportSource report = source ∧
      report.status = .processing ∧ report.rowCount = 0 ∧
      SoundProcessing deployment (s.db.dataOf source.id) report := by
  obtain ⟨report, found, same, status, count⟩ := claimed
  exact ⟨report, found, same, status, count, (sound.reports source.id).processing found status⟩

theorem store_ok {s s' : Ledger} {result : Except PyException Database} {reply : Unit}
    (stored : s.store result = .ok (reply, s')) :
    ∃ db, result = .ok db ∧ s' = { s with db := db } := by
  unfold Ledger.store at stored
  cases result with
  | error e => cases stored
  | ok db =>
      cases stored
      exact ⟨db, rfl, rfl⟩

theorem store_error {s : Ledger} {result : Except PyException Database} {e : PyException}
    (refused : s.store result = .error e) : result = .error e := by
  unfold Ledger.store at refused
  cases result with
  | error e => cases refused; rfl
  | ok db => cases refused

theorem exec_apply {id : Nat} {result : ApplyResult} {s s' : Ledger}
    (executed : Transaction.exec (.apply id) s = .ok (result, s')) :
    ∃ db, applyReport id s.db = .ok (result, db) ∧
      s' = ⟨db, s.completions ++ ((s.db.reports.find id).map reportSource).toList⟩ := by
  simp only [Transaction.exec] at executed
  cases ran : applyReport id s.db with
  | error e => simp [ran] at executed
  | ok answer =>
      simp only [ran, Except.ok.injEq, Prod.mk.injEq] at executed
      exact ⟨answer.2, congrArg Except.ok (Prod.ext executed.1 rfl), executed.2.symm⟩

/-- Rows or errors added to a report without a row count. -/
theorem LedgerSound.add {deployment : Deployment} {s : Ledger} {db : Database}
    {source : ReportSource} (sound : LedgerSound deployment s) (claimed : Claimed source s)
    {staged : List ValidatedRow} {errors : List ReportError}
    (changes : Changes s.db db source.id ⟨s.db.reports.find source.id, staged, errors⟩
      s.db.inventory) : LedgerSound deployment { s with db := db } := by
  obtain ⟨report, found, _, status, count, own⟩ := claimed.processing sound
  refine sound.change changes (sound_of_processing found status ?_) ?_ ?_
  · exact ⟨own.toUnfinished, own.errorCount, fun some => by omega⟩
  · intro other same
    rw [found] at same
    cases same
    simp [status]
  · intro other same
    rw [found] at same
    cases same
    simp [status]

/-- The end of a report in `failed`. -/
theorem LedgerSound.fail {deployment : Deployment} {s : Ledger} {db : Database} {id : Nat}
    {report report' : Report} {errors : List ReportError} (sound : LedgerSound deployment s)
    (found : s.db.reports.find id = some report) (status : report.status = .processing)
    (changes : Changes s.db db id ⟨some report', [], errors⟩ s.db.inventory)
    (failed : report'.status = .failed) (own : SoundFailed ⟨some report', [], errors⟩ report') :
    LedgerSound deployment { s with db := db } := by
  refine sound.change changes ?_ ?_ ?_
  · simp only [Sound, SoundReport, failed]
    exact own
  · intro other same
    rw [found] at same
    cases same
    simp [status]
  · intro other same
    cases same
    simp [failed]

theorem claim_sound {deployment : Deployment} {s : Ledger} (sound : LedgerSound deployment s) :
    LedgerSound deployment { s with db := (claimOrRecoverNextReport s.db).2 } := by
  rcases claim_cases s.db with ⟨claimed, _⟩ | ⟨report, found, isOpen, shape⟩
  · rw [claimed]
    exact sound
  · rcases shape with ⟨claimed, _, _⟩ | ⟨db', claimed, _, changes⟩
    · rw [claimed]
      exact sound
    · rw [claimed]
      have notCompleted : report.status ≠ .completed := by
        intro completed
        simp [Report.isOpen, completed] at isOpen
      have stocks : report.stocksCreated = 0 ∧ report.stocksUpdated = 0 ∧
          report.stocksZeroed = 0 := by
        have own := sound.reports report.id
        simp only [Sound, Database.dataOf, found, SoundReport] at own
        cases status : report.status with
        | pending => simp only [status] at own; exact own.stocks
        | processing => simp only [status] at own; exact own.stocks
        | completed => exact absurd status notCompleted
        | failed => simp [Report.isOpen, status] at isOpen
      refine sound.change changes (sound_of_processing rfl rfl ?_) ?_ ?_
      · exact ⟨⟨rfl, ⟨rfl, rfl⟩, stocks⟩, rfl, fun some => absurd some (by simp [Report.claim])⟩
      · intro other same
        rw [found] at same
        cases same
        exact notCompleted
      · intro other same
        cases same
        simp [Report.claim]

theorem readyForApply_cases {db : Database} {report : Report}
    (ready : readyForApply db report = true) :
    report.status = .processing ∧ report.errorCount = 0 ∧ 0 < report.rowCount ∧
      (db.stagedRows report.id).length = report.rowCount := by
  simp only [readyForApply, Bool.and_eq_true, decide_eq_true_eq] at ready
  exact ⟨ready.1.1.1, ready.1.1.2, ready.1.2, ready.2⟩

theorem apply_sound {deployment : Deployment} {faults : Faults} {s s' : Ledger} {id : Nat}
    {result : ApplyResult} (sound : LedgerSound deployment s)
    (pre : Pre deployment faults s (.apply id))
    (applied : Transaction.exec (.apply id) s = .ok (result, s')) : LedgerSound deployment s' := by
  obtain ⟨source, rfl, report, found, same, status, errorCount, valid, staged, errors⟩ := pre
  obtain ⟨db, ran, rfl⟩ := exec_apply applied
  simp only [found, Option.map_some, Option.toList_some, same]
  obtain ⟨report', inventory, counters, found', ready, statements, _, changes⟩ :=
    applyReport_changes ran
  rw [found] at found'
  cases found'
  rw [staged] at statements
  rw [errors] at changes
  have bound := applyStatements_counters statements
  rw [valid.length] at bound
  have own : Sound deployment ⟨some (report.complete s.db.now counters), [], []⟩ := by
    simp only [Sound, SoundReport, Report.complete]
    exact ⟨rfl, rfl, errorCount, valid.lines.1, by simp, ⟨rfl, rfl⟩, bound⟩
  have fresh : source.id ∉ s.completions.map ReportSource.id := by
    intro member
    obtain ⟨other, inList, equal⟩ := List.mem_map.mp member
    obtain ⟨old, foundOld, _, completed⟩ := sound.completed other inList
    rw [equal, found] at foundOld
    cases foundOld
    simp [status] at completed
  refine ⟨?_, ?_, ?_, ?_, ?_, ?_⟩
  · intro other
    by_cases equal : other = source.id
    · rw [equal]
      exact changes.own ▸ own
    · rw [changes.others other equal]
      exact sound.reports other
  · intro other member
    rcases List.mem_append.mp member with old | new
    · obtain ⟨report₀, found₀, same₀, status₀⟩ := sound.completed other old
      have different : other.id ≠ source.id := by
        intro equal
        exact fresh (equal ▸ List.mem_map_of_mem old)
      have data := congrArg ReportData.report (changes.others other.id different)
      exact ⟨report₀, data.trans found₀, same₀, status₀⟩
    · rw [List.mem_singleton.mp new]
      refine ⟨report.complete s.db.now counters, ?_, same, rfl⟩
      exact congrArg ReportData.report changes.own
  · intro other report₀ found₀ status₀
    by_cases equal : other = source.id
    · have data := congrArg ReportData.report changes.own
      rw [equal] at found₀
      have shape : some (report.complete s.db.now counters) = some report₀ :=
        data.symm.trans found₀
      cases shape
      have again : reportSource (report.complete s.db.now counters) = source := same
      rw [again]
      exact List.mem_append_right _ (List.mem_singleton_self source)
    · have data := congrArg ReportData.report (changes.others other equal)
      exact List.mem_append_left _ (sound.listed other report₀ (data.symm.trans found₀) status₀)
  · simp only [List.map_append, List.map_cons, List.map_nil]
    rw [List.nodup_append]
    refine ⟨sound.once, by simp, ?_⟩
    rintro a old b new rfl
    rw [List.mem_singleton.mp new] at old
    exact fresh old
  · intro other member
    rcases List.mem_append.mp member with old | new
    · exact sound.valid other old
    · rw [List.mem_singleton.mp new]
      exact ⟨_, valid⟩
  · simp only [List.map_append, List.map_cons, List.map_nil]
    rw [Layout.applyAll_snoc, ← sound.inventory, changes.inventory]
    exact applyStatements_view valid.distinct statements

/-- Every transaction keeps the ledger sound from its precondition. -/
theorem transaction_sound {deployment : Deployment} {faults : Faults} {t : Transaction}
    {reply : t.Reply} {s s' : Ledger} (sound : LedgerSound deployment s)
    (pre : Pre deployment faults s t) (executed : t.exec s = .ok (reply, s')) :
    LedgerSound deployment s' := by
  cases t with
  | claim =>
      cases executed
      exact claim_sound sound
  | errorCount id =>
      cases executed
      exact sound
  | writeStagingBatch id batch =>
      obtain ⟨source, rfl, claimed⟩ := pre
      obtain ⟨db, written, rfl⟩ := store_ok executed
      exact sound.add claimed (writeStagingBatch_changes written)
  | writeErrorBatch id batch =>
      obtain ⟨source, rfl, claimed⟩ := pre
      obtain ⟨db, written, rfl⟩ := store_ok executed
      obtain ⟨added, _, changes⟩ := writeErrorBatch_changes written
      exact sound.add claimed changes
  | insertDuplicateErrors id rawValueChars =>
      obtain ⟨source, rfl, claimed⟩ := pre
      obtain ⟨db, written, rfl⟩ := store_ok executed
      obtain ⟨added, _, changes⟩ := insertErrors_changes written
      exact sound.add claimed changes
  | finalizeValidationFailure id rowCount count =>
      obtain ⟨source, rfl, claimed, counted, positive, _⟩ := pre
      cases executed
      obtain ⟨report, found, _, status, _, own⟩ := claimed.processing sound
      have changes := finalizeValidationFailure_changes source.id rowCount count s.db
      rw [whileProcessing_found found status] at changes
      refine sound.fail found status changes rfl ?_
      exact ⟨rfl, by simp [Report.failValidation], Or.inl rfl, own.stocks, positive, counted⟩
  | markValidated id rowCount =>
      obtain ⟨source, rfl, claimed, valid, staged, errors⟩ := pre
      cases executed
      obtain ⟨report, found, same, status, _, own⟩ := claimed.processing sound
      have changes := markValidated_changes source.id rowCount s.db
      rw [whileProcessing_found found status] at changes
      have after : (report.setValidated rowCount).status = .processing := status
      refine sound.change changes (sound_of_processing rfl after ?_) ?_ ?_
      · refine ⟨⟨own.finishedAt, own.failure, own.stocks⟩, rfl, fun _ => ?_⟩
        have sameSource : reportSource (report.setValidated rowCount) = source := same
        rw [sameSource]
        exact ⟨valid, staged, errors⟩
      · intro other equal
        rw [found] at equal
        cases equal
        simp [status]
      · intro other equal
        cases equal
        simp [after]
  | markProcessingFailed id =>
      obtain ⟨source, rfl, claimed, _⟩ := pre
      obtain ⟨db, written, rfl⟩ := store_ok executed
      obtain ⟨report, found, _, status, _, own⟩ := claimed.processing sound
      obtain ⟨added, changes⟩ := markFailed_changes written
      rw [whileProcessing_found found status] at changes
      refine sound.fail found status changes rfl ?_
      exact ⟨rfl, by simp [Report.failProcessing], Or.inr rfl, own.stocks,
        by simp [Report.failProcessing], by simp [Report.failProcessing]⟩
  | apply id => exact apply_sound sound pre executed
  | markApplyFailed id =>
      obtain ⟨source, rfl, ⟨report, found, _, status, _⟩, _⟩ := pre
      obtain ⟨db, written, rfl⟩ := store_ok executed
      obtain ⟨added, changes⟩ := markFailed_changes written
      rw [whileProcessing_found found status] at changes
      refine sound.fail found status changes rfl ?_
      exact ⟨rfl, by simp [Report.failApply], Or.inr rfl, ⟨rfl, rfl, rfl⟩,
        by simp [Report.failApply], by simp [Report.failApply]⟩

theorem register_sound {deployment : Deployment} {s : Ledger} {db : Database}
    {registration : Registration} (sound : LedgerSound deployment s)
    (fresh : s.db.reports.find registration.id = none)
    (changes : Changes s.db db registration.id
      { s.db.dataOf registration.id with report := some registration.report } s.db.inventory) :
    LedgerSound deployment { s with db := db } := by
  have own := sound.reports registration.id
  have noReport : (s.db.dataOf registration.id).report = none := fresh
  simp only [Sound, noReport] at own
  refine sound.change changes ?_ ?_ ?_
  · simp only [Sound, SoundReport, Registration.report]
    exact ⟨own.1, own.2, rfl, rfl, ⟨rfl, rfl, rfl⟩, ⟨rfl, rfl⟩, ⟨rfl, rfl⟩⟩
  · intro report found
    rw [fresh] at found
    cases found
  · intro report same
    cases same
    simp [Registration.report]

theorem tick_sound {deployment : Deployment} {s : Ledger} {db : Database}
    (sound : LedgerSound deployment s) (same : ∀ id, db.dataOf id = s.db.dataOf id)
    (inventory : db.inventory = s.db.inventory) : LedgerSound deployment { s with db := db } := by
  have report : ∀ id, db.reports.find id = s.db.reports.find id :=
    fun id => congrArg ReportData.report (same id)
  refine ⟨?_, ?_, ?_, sound.once, sound.valid, ?_⟩
  · intro id
    rw [same id]
    exact sound.reports id
  · intro source member
    obtain ⟨old, found, rest⟩ := sound.completed source member
    exact ⟨old, (report source.id).trans found, rest⟩
  · intro id old found status
    exact sound.listed id old ((report id).symm.trans found) status
  · rw [inventory]
    exact sound.inventory

/-- Registrations and the clock. -/
theorem environment_keeps {deployment : Deployment} {e : Environment} {s s' : Ledger}
    (happened : (service deployment).environment e s = some s') : Keeps deployment s s' := by
  simp only [service, Option.map_eq_some_iff] at happened
  obtain ⟨db, stepped, rfl⟩ := happened
  obtain ⟨inventory, same | ⟨registration, fresh, changes⟩⟩ := Environment.step_cases stepped
  · exact ⟨fun id _ => same id, inventory, rfl, fun sound => tick_sound sound same inventory⟩
  · refine ⟨?_, inventory, rfl, fun sound => register_sound sound fresh changes⟩
    intro id known
    refine changes.others id ?_
    intro same
    rw [same] at known
    exact known fresh

/-! ## The order of the applies -/

/-- The reports of the apply transactions that have committed, in order. -/
def appliedIds (history : List (Nat × Commit workerInterface)) : List Nat :=
  history.filterMap fun entry =>
    match entry.2.transaction with
    | .apply reportId => some reportId
    | _ => none

theorem exec_completions {t : Transaction} {reply : t.Reply} {s s' : Ledger}
    (executed : t.exec s = .ok (reply, s')) (attempt : Nat) :
    s'.completions.map ReportSource.id =
      s.completions.map ReportSource.id ++ appliedIds [(attempt, ⟨t, reply⟩)] := by
  cases t with
  | claim | errorCount _ | finalizeValidationFailure _ _ _ | markValidated _ _ =>
      cases executed
      simp [appliedIds]
  | writeStagingBatch _ _ | writeErrorBatch _ _ | insertDuplicateErrors _ _
  | markProcessingFailed _ | markApplyFailed _ =>
      obtain ⟨db, _, rfl⟩ := store_ok executed
      simp [appliedIds]
  | apply id =>
      obtain ⟨db, ran, rfl⟩ := exec_apply executed
      obtain ⟨report, _, _, found, _⟩ := applyReport_changes ran
      have same : report.id = id := ((Table.find_eq_some _).mp found).2
      simp [appliedIds, reportSource, found, same]

/-- The completions are the committed applies of the history, in any run. -/
theorem completions_history {deployment : Deployment}
    {allowed : ServiceWorld → Action workerInterface Nat Environment (Delivery deployment) → Prop}
    {world : ServiceWorld}
    (reachable : Reachable (service deployment) allowed ServiceWorld.empty world) :
    world.shared.completions.map ReportSource.id = appliedIds world.history := by
  induction reachable with
  | start => rfl
  | step action before admitted stepped ih =>
      rcases step_shared stepped with ⟨shared, history⟩ | ⟨e, _, happened, history⟩ |
        ⟨_, _, thread, _, t, reply, _, _, _, executed, history⟩
      · rw [shared, history]
        exact ih
      · rw [(environment_keeps happened).completions, history]
        exact ih
      · rw [exec_completions executed thread.attempt, ih, history]
        simp [appliedIds]

end StockImport.Worker
