import StockImport.Worker.Cycle

/-!
# Locked runs

Worker cycles serialised by the advisory lock, from the empty service.  Any call
and any transaction may fail, any worker may crash between two requests, and a
transaction that raises has had no effect.

`Moves` is what one transaction does to the data of any report; with the step
lemma of `Sound` it gives what a locked run guarantees: the handoff between
validation and apply, and the lifecycle of a report.
-/

set_option autoImplicit false

namespace StockImport.Worker

open Csv Db Tables Transactional

/-! ## Moves -/

/-- `pending → processing → processing, completed, failed`. -/
def MayBecome : ReportStatus → ReportStatus → Prop
  | .pending, next => next = .processing
  | .processing, next => next ≠ .pending
  | .completed, _ => False
  | .failed, _ => False

/-- Why a report may fail: its file, or an exception it is not the fault of. -/
def HasCause (deployment : Deployment) (faults : Faults) (source : ReportSource) : Prop :=
  (∀ rowCount, ¬ ValidFile deployment source rowCount) ∨
    ∃ e, e ≠ .lockConnectionLost ∧ Blames deployment faults source e

/-- One step on the data of a report. -/
inductive Moves (deployment : Deployment) (faults : Faults) (data data' : ReportData) : Prop
  | same (unchanged : data' = data)
  | registered (fresh : data.report = none) (report : Report)
      (found : data'.report = some report) (status : report.status = .pending)
  | moved (report report' : Report) (before : data.report = some report)
      (after : data'.report = some report') (source : reportSource report' = reportSource report)
      (status : MayBecome report.status report'.status)
      (cause : report'.status = .failed → HasCause deployment faults (reportSource report'))

theorem Changes.moves {deployment : Deployment} {faults : Faults} {db db' : Database} {id : Nat}
    {data : ReportData} {inventory : Inventory} (changes : Changes db db' id data inventory)
    (own : Moves deployment faults (db.dataOf id) data) :
    ∀ other, Moves deployment faults (db.dataOf other) (db'.dataOf other) := by
  intro other
  by_cases same : other = id
  · rw [same, changes.own]
    exact own
  · exact .same (changes.others other same)

/-- A change of a report in `processing`. -/
theorem Changes.moves_processing {deployment : Deployment} {faults : Faults} {db db' : Database}
    {id : Nat} {report report' : Report} {staged : List ValidatedRow} {errors : List ReportError}
    {inventory : Inventory} (changes : Changes db db' id ⟨some report', staged, errors⟩ inventory)
    (found : db.reports.find id = some report) (processing : report.status = .processing)
    (source : reportSource report' = reportSource report) (status : report'.status ≠ .pending)
    (cause : report'.status = .failed → HasCause deployment faults (reportSource report)) :
    ∀ other, Moves deployment faults (db.dataOf other) (db'.dataOf other) := by
  refine Changes.moves changes (.moved report report' found rfl source ?_ ?_)
  · rw [processing]
    exact status
  · intro failed
    rw [source]
    exact cause failed

/-- Rows or errors added to a report under validation. -/
theorem Claimed.moves {deployment : Deployment} {faults : Faults} {source : ReportSource}
    {s : Ledger} {db : Database} {staged : List ValidatedRow} {errors : List ReportError}
    {inventory : Inventory} (claimed : Claimed source s)
    (changes : Changes s.db db source.id ⟨s.db.reports.find source.id, staged, errors⟩ inventory) :
    ∀ id, Moves deployment faults (s.db.dataOf id) (db.dataOf id) := by
  obtain ⟨report, found, _, processing, _⟩ := claimed
  rw [found] at changes
  exact Changes.moves_processing changes found processing rfl (by simp [processing])
    (by simp [processing])

theorem claim_moves {deployment : Deployment} {faults : Faults} (db : Database) :
    ∀ id, Moves deployment faults (db.dataOf id)
      ((claimOrRecoverNextReport db).2.dataOf id) := by
  rcases claim_cases db with
    ⟨claimed, _⟩ | ⟨report, found, isOpen, ⟨claimed, _⟩ | ⟨db', claimed, _, changes⟩⟩
  · rw [claimed]
    exact fun id => .same rfl
  · rw [claimed]
    exact fun id => .same rfl
  · rw [claimed]
    refine Changes.moves changes (.moved report (report.claim db.now) found rfl rfl ?_ ?_)
    · cases status : report.status with
      | pending => rfl
      | processing => simp [MayBecome, Report.claim]
      | completed => simp [Report.isOpen, status] at isOpen
      | failed => simp [Report.isOpen, status] at isOpen
    · simp [Report.claim]

/-- Every transaction moves every report along, from its precondition. -/
theorem transaction_moves {deployment : Deployment} {faults : Faults} {t : Transaction}
    {reply : t.Reply} {s s' : Ledger} (pre : Pre deployment faults s t)
    (executed : t.exec s = .ok (reply, s')) :
    ∀ id, Moves deployment faults (s.db.dataOf id) (s'.db.dataOf id) := by
  cases t with
  | claim =>
      cases executed
      exact claim_moves s.db
  | errorCount id =>
      cases executed
      exact fun id => .same rfl
  | writeStagingBatch id batch =>
      obtain ⟨source, rfl, claimed⟩ := pre
      obtain ⟨db, written, rfl⟩ := store_ok executed
      exact claimed.moves (writeStagingBatch_changes written)
  | writeErrorBatch id batch =>
      obtain ⟨source, rfl, claimed⟩ := pre
      obtain ⟨db, written, rfl⟩ := store_ok executed
      obtain ⟨added, _, changes⟩ := writeErrorBatch_changes written
      exact claimed.moves changes
  | insertDuplicateErrors id rawValueChars =>
      obtain ⟨source, rfl, claimed⟩ := pre
      obtain ⟨db, written, rfl⟩ := store_ok executed
      obtain ⟨added, _, changes⟩ := insertErrors_changes written
      exact claimed.moves changes
  | finalizeValidationFailure id rowCount count =>
      obtain ⟨source, rfl, ⟨report, found, same, status, _⟩, _, _, invalid⟩ := pre
      cases executed
      have changes := finalizeValidationFailure_changes source.id rowCount count s.db
      rw [whileProcessing_found found status] at changes
      exact Changes.moves_processing changes found status rfl (by simp [Report.failValidation])
        (fun _ => same ▸ Or.inl invalid)
  | markValidated id rowCount =>
      obtain ⟨source, rfl, ⟨report, found, _, status, _⟩, _⟩ := pre
      cases executed
      have changes := markValidated_changes source.id rowCount s.db
      rw [whileProcessing_found found status] at changes
      have after : (report.setValidated rowCount).status = .processing := status
      exact Changes.moves_processing changes found status rfl (by simp [after]) (by simp [after])
  | markProcessingFailed id =>
      obtain ⟨source, rfl, ⟨report, found, same, status, _⟩, blames⟩ := pre
      obtain ⟨db, written, rfl⟩ := store_ok executed
      obtain ⟨added, changes⟩ := markFailed_changes written
      rw [whileProcessing_found found status] at changes
      exact Changes.moves_processing changes found status rfl (by simp [Report.failProcessing])
        (fun _ => same ▸ Or.inr blames)
  | apply id =>
      obtain ⟨source, rfl, report, found, _, status, _⟩ := pre
      obtain ⟨db, ran, rfl⟩ := exec_apply executed
      obtain ⟨report', _, counters, found', _, _, _, changes⟩ := applyReport_changes ran
      rw [found] at found'
      cases found'
      exact Changes.moves_processing changes found status rfl (by simp [Report.complete])
        (by simp [Report.complete])
  | markApplyFailed id =>
      obtain ⟨source, rfl, ⟨report, found, same, status, _⟩, blames⟩ := pre
      obtain ⟨db, written, rfl⟩ := store_ok executed
      obtain ⟨added, changes⟩ := markFailed_changes written
      rw [whileProcessing_found found status] at changes
      exact Changes.moves_processing changes found status rfl (by simp [Report.failApply])
        (fun _ => same ▸ Or.inr blames)

theorem environment_moves {deployment : Deployment} {faults : Faults} {e : Environment}
    {s s' : Ledger} (happened : (service deployment).environment e s = some s') :
    ∀ id, Moves deployment faults (s.db.dataOf id) (s'.db.dataOf id) := by
  simp only [service, Option.map_eq_some_iff] at happened
  obtain ⟨db, stepped, rfl⟩ := happened
  obtain ⟨_, same | ⟨registration, fresh, changes⟩⟩ := Environment.step_cases stepped
  · exact fun id => .same (same id)
  · exact Changes.moves changes (.registered fresh registration.report rfl rfl)

/-! ## Failures have a cause -/

def Explained (deployment : Deployment) (faults : Faults) (s : Ledger) : Prop :=
  ∀ id report, s.db.reports.find id = some report → report.status = .failed →
    HasCause deployment faults (reportSource report)

theorem Explained.step {deployment : Deployment} {faults : Faults} {s s' : Ledger}
    (explained : Explained deployment faults s)
    (moves : ∀ id, Moves deployment faults (s.db.dataOf id) (s'.db.dataOf id)) :
    Explained deployment faults s' := by
  intro id report found failed
  have found : (s'.db.dataOf id).report = some report := found
  cases moves id with
  | same unchanged =>
      rw [unchanged] at found
      exact explained id report found failed
  | registered fresh report' found' status =>
      rw [found] at found'
      cases found'
      rw [failed] at status
      cases status
  | moved before report' _ after _ _ cause =>
      rw [found] at after
      cases after
      exact cause failed

/-- The ledger of a locked run. -/
structure Locked (deployment : Deployment) (faults : Faults) (s : Ledger) : Prop where
  sound : LedgerSound deployment s
  explained : Explained deployment faults s

theorem Locked.empty (deployment : Deployment) (faults : Faults) :
    Locked deployment faults .empty where
  sound := .empty deployment
  explained id report found := by cases found

theorem service_guarantees (deployment : Deployment) {faults : Faults} (loses : faults.loses) :
    Guarantees (service deployment) (lockedSpec deployment faults) (Locked deployment faults)
      CycleEnded where
  exec := rfl
  loses := loses
  environment e s s' locked happened := by
    have keeps := environment_keeps happened
    exact ⟨⟨keeps.sound locked.sound, locked.explained.step (environment_moves happened)⟩, keeps⟩
  transaction log t reply s s' locked pre executed :=
    ⟨transaction_sound locked.sound pre executed,
      locked.explained.step (transaction_moves pre executed)⟩
  starts delivery s locked := wp_process delivery locked.sound

/-! ## Runs behind the lock -/

abbrev ServiceAction (deployment : Deployment) :=
  Action workerInterface Nat Environment (Delivery deployment)

/-- A transaction that raises has had no effect. -/
def Atomic {deployment : Deployment} (world : ServiceWorld) : ServiceAction deployment → Prop
  | .run w (.unknown _) => ∀ thread t next, world.threads w = some thread →
      thread.program ≠ .transact t next
  | _ => True

/-- Any call and any transaction may fail with anything. -/
def Faults.any : Faults := ⟨fun _ _ => True, fun _ _ => True, True⟩

theorem any_guarantees (deployment : Deployment) :
    Guarantees (service deployment) (lockedSpec deployment .any) (Locked deployment .any)
      CycleEnded :=
  service_guarantees deployment trivial

theorem atomic_permits {deployment : Deployment} {world : ServiceWorld}
    {action : ServiceAction deployment} (atomic : Atomic world action) :
    Permits (lockedSpec deployment .any) world action := by
  cases action with
  | environment e => trivial
  | acquire w start => trivial
  | drop w => trivial
  | leave w => trivial
  | run w fault =>
      cases fault with
      | none => trivial
      | fails e =>
          intro thread _
          cases thread.program with
          | done result => trivial
          | checkLock next => trivial
          | call c next => trivial
          | transact t next => trivial
      | unknown e =>
          intro thread running
          cases program : thread.program with
          | done result => trivial
          | checkLock next => trivial
          | call c next => trivial
          | transact t next => exact atomic thread t next running program

/-- The states of the service under cycles that the advisory lock serialises, where no
commit loses its answer. -/
def LockedRun (deployment : Deployment) (world : ServiceWorld) : Prop :=
  Reachable (service deployment) (fun world action => Serialised world action ∧ Atomic world action)
    ServiceWorld.empty world

theorem LockedRun.permitted {deployment : Deployment} {world : ServiceWorld}
    (run : LockedRun deployment world) :
    Reachable (service deployment)
      (fun world action => Serialised world action ∧
        Permits (lockedSpec deployment .any) world action) ServiceWorld.empty world :=
  run.weaken fun _ _ _ admitted => ⟨admitted.1, atomic_permits admitted.2⟩

theorem LockedRun.current {deployment : Deployment} {world : ServiceWorld}
    (run : LockedRun deployment world) {w : Nat} {thread : Thread workerInterface WorkerCycleOutcome}
    (running : world.threads w = some thread) : world.current = some w :=
  serialised_current (fun _ _ admitted => admitted.1) ServiceWorld.empty_idle run w thread running

theorem LockedRun.tracks {deployment : Deployment} {world : ServiceWorld}
    (run : LockedRun deployment world) :
    Tracks (lockedSpec deployment .any) (Locked deployment .any) CycleEnded
      (fun current w => current = some w) world :=
  exclusive_sound (any_guarantees deployment) ServiceWorld.empty_idle (.empty _ _)
    (serialised_exclusive ServiceWorld.empty_idle run.permitted)

theorem LockedRun.sound {deployment : Deployment} {world : ServiceWorld}
    (run : LockedRun deployment world) : LedgerSound deployment world.shared :=
  run.tracks.1.sound

theorem LockedRun.thread {deployment : Deployment} {world : ServiceWorld}
    (run : LockedRun deployment world) {w : Nat} {thread : Thread workerInterface WorkerCycleOutcome}
    (running : world.threads w = some thread) :
    wp (lockedSpec deployment .any) thread.program CycleEnded thread.log world.shared :=
  run.tracks.2 w thread running (run.current running)

/-- The step lemma of locked runs. -/
theorem LockedRun.moves {deployment : Deployment} {world next : ServiceWorld}
    (run : LockedRun deployment world) {action : ServiceAction deployment}
    (serialised : Serialised world action) (atomic : Atomic world action)
    (stepped : (service deployment).step world action = some next) :
    ∀ id, Moves deployment .any (world.shared.db.dataOf id) (next.shared.db.dataOf id) := by
  have exclusive : Exclusive (service deployment) world action := by
    cases action with
    | run w fault => exact fun thread _ _ _ running _ => run.current running
    | environment _ | acquire _ _ | drop _ | leave _ => trivial
  rcases exclusive_step (any_guarantees deployment) run.tracks exclusive
    (atomic_permits atomic) stepped with
    same | ⟨e, happened⟩ | ⟨_, _, t, reply, _, _, pre, executed, _⟩
  · rw [same]
    exact fun id => .same rfl
  · exact environment_moves happened
  · exact transaction_moves pre executed

/-! ## A run of one worker -/

/-- Two files; the second names the warehouse of the first anew. -/
def sampleDeployment : Deployment where
  limits := ⟨100, 200, 10, 40⟩
  batchSize := 2
  batchSize_pos := Nat.two_pos
  original _ objectKey := Utf8Escape.encode <| PyText.ofString <|
    if objectKey = "first" then
      "warehouse_code,warehouse_name,sku,product_name,quantity\nW,w,S,s,1\nW,w,T,t,2\n"
    else "warehouse_code,warehouse_name,sku,product_name,quantity\nW,v,T,t,5\n"

def sampleDelivery : Delivery sampleDeployment where
  chunking source := ⟨[sampleDeployment.file source], by simp⟩
  sizes := ⟨fun _ => 8192, fun _ => by decide, 65536, by decide⟩

/-- The first report; its file has two rows. -/
def sampleSource : ReportSource := ⟨1, "originals", "first"⟩

def sampleRegistration (id : Nat) (objectKey : String) : ServiceAction sampleDeployment :=
  .environment (.register ⟨id, "stock.csv", "originals", objectKey, 80, none, 0⟩)

/-- The start of a cycle, with so many requests. -/
def sampleStart (requests : Nat) : List (ServiceAction sampleDeployment) :=
  .acquire 0 sampleDelivery :: List.replicate requests (.run 0 .none)

def sampleCycle (requests : Nat) : List (ServiceAction sampleDeployment) :=
  sampleStart requests ++ [.leave 0]

/-- The first report goes through both its cycles, the second is validated and in
front of the transaction of its apply. -/
def sampleActions : List (ServiceAction sampleDeployment) :=
  [sampleRegistration 1 "first", sampleRegistration 2 "second"] ++
    sampleCycle 19 ++ sampleCycle 13 ++ sampleCycle 19 ++ sampleStart 12

theorem sampleActions_run :
    ((service sampleDeployment).runs ServiceWorld.empty sampleActions).isSome = true := by
  decide +kernel

def sampleWorld : ServiceWorld :=
  ((service sampleDeployment).runs ServiceWorld.empty sampleActions).get sampleActions_run

theorem solo_locked {deployment : Deployment} {actions : List (ServiceAction deployment)}
    {world : ServiceWorld} (solo : ∀ action ∈ actions, action.Solo 0)
    (ran : (service deployment).runs ServiceWorld.empty actions = some world) :
    LockedRun deployment world := by
  refine solo_reachable 0 ?_ actions ServiceWorld.empty world solo (fun _ _ => rfl) .start ran
  intro world action own serialised
  refine ⟨serialised, ?_⟩
  cases action with
  | environment _ | acquire _ _ | drop _ | leave _ => trivial
  | run w fault =>
      cases fault with
      | none => trivial
      | fails e | unknown e => exact own.elim

theorem sampleWorld_locked : LockedRun sampleDeployment sampleWorld := by
  refine solo_locked ?_ (Option.some_get sampleActions_run).symm
  simp [sampleActions, sampleRegistration, sampleCycle, sampleStart, Action.Solo]

/-! ## The handoff from validation to apply -/

/-- The whole file of a report is validated and staged. -/
structure FullyValidated (deployment : Deployment) (db : Database) (report : Report) : Prop where
  valid : ValidFile deployment (reportSource report) report.rowCount
  staged : db.stagedRows report.id = deployment.fileRows (reportSource report)
  errors : db.errorsOf report.id = []

/-- The staging rows of a report are the validated data records of its file. -/
structure Handoff (deployment : Deployment) (db : Database) (report : Report) : Prop where
  errorCount : report.errorCount = 0
  errors : db.errorsOf report.id = []
  lines : (db.stagedRows report.id).map ValidatedRow.lineNumber = List.range' 2 report.rowCount
  whole : report.rowCount =
    (dataRecords deployment.limits (deployment.file (reportSource report))).length
  records : ∀ row ∈ db.stagedRows report.id, ∃ record continues,
    (dataRecords deployment.limits (deployment.file (reportSource report)))[row.lineNumber - 2]? =
        some record ∧
      checkRecord deployment.limits
          (fileHeader deployment.limits (deployment.file (reportSource report))) row.lineNumber
          record = .ok (.validRow row, continues)
  distinct : DistinctPairs (db.stagedRows report.id)

theorem fileRows_record {deployment : Deployment} {source : ReportSource} {row : ValidatedRow}
    (member : row ∈ deployment.fileRows source) : ∃ record continues,
      (dataRecords deployment.limits (deployment.file source))[row.lineNumber - 2]? = some record ∧
        checkRecord deployment.limits (fileHeader deployment.limits (deployment.file source))
          row.lineNumber record = .ok (.validRow row, continues) := by
  obtain ⟨perRecord, final, accounts⟩ :=
    validateBytes_accounts deployment.limits (deployment.file source)
  obtain ⟨i, record, continues, line, position, checked⟩ := accounts.row_record member
  have index : row.lineNumber - 2 = i := by omega
  exact ⟨record, continues, index ▸ position, checked⟩

theorem FullyValidated.handoff {deployment : Deployment} {db : Database} {report : Report}
    (validated : FullyValidated deployment db report) (count : report.errorCount = 0) :
    Handoff deployment db report := by
  obtain ⟨positive, whole, lines⟩ := validated.valid.lines
  refine ⟨count, validated.errors, ?_, whole, ?_, ?_⟩
  · rw [validated.staged]
    exact lines
  · intro row member
    rw [validated.staged] at member
    exact fileRows_record member
  · rw [validated.staged]
    exact validated.valid.distinct

theorem validationIsComplete_iff {deployment : Deployment} {s : Ledger} {report : Report}
    (sound : LedgerSound deployment s) (found : s.db.reports.find report.id = some report)
    (status : report.status = .processing) :
    validationIsComplete s.db report = true ↔ FullyValidated deployment s.db report := by
  constructor
  · intro complete
    obtain ⟨report', found', _, _, _, valid, staged, errors⟩ :=
      ready_of_complete sound found status complete
    have found' : s.db.reports.find report.id = some report' := found'
    rw [found] at found'
    cases found'
    exact ⟨valid, staged, errors⟩
  · intro validated
    have own := (sound.reports report.id).processing found status
    have positive := validated.valid.lines.1
    have staged : (s.db.stagingOf report.id).length = report.rowCount := by
      have length := validated.valid.length
      rw [← validated.staged, Database.stagedRows, List.length_map] at length
      exact length
    unfold validationIsComplete
    rw [if_neg (by rw [not_or]; exact ⟨Nat.ne_of_gt positive, not_not_intro own.errorCount⟩)]
    simp [staged, validated.errors]

/-- The handoff invariant: a report in `processing` with a row count is staged in
full, `_validation_is_complete` accepts exactly the fully validated reports, and the
transaction of an apply goes through (its codes fit into their indexes, as
`storableText` assumes). -/
theorem validation_handoff (deployment : Deployment) (world : ServiceWorld)
    (run : LockedRun deployment world) :
    (∀ report ∈ world.shared.db.reports.rows, report.status = .processing → 0 < report.rowCount →
      Handoff deployment world.shared.db report) ∧
    (∀ report ∈ world.shared.db.reports.rows, report.status = .processing →
      (validationIsComplete world.shared.db report = true ↔
        FullyValidated deployment world.shared.db report)) ∧
    ∀ w thread reportId next, world.threads w = some thread →
      thread.program = .transact (.apply reportId) next →
        ∃ result db, applyReport reportId world.shared.db = .ok (result, db) := by
  refine ⟨?_, ?_, ?_⟩
  · intro report member status positive
    have found : world.shared.db.reports.find report.id = some report :=
      (Table.find_eq_some _).mpr ⟨member, rfl⟩
    have own := (run.sound.reports report.id).processing found status
    obtain ⟨valid, staged, errors⟩ := own.handoff positive
    exact FullyValidated.handoff ⟨valid, staged, errors⟩ own.errorCount
  · intro report member status
    exact validationIsComplete_iff run.sound ((Table.find_eq_some _).mpr ⟨member, rfl⟩) status
  · intro w thread reportId next running program
    have holds := run.thread running
    rw [program] at holds
    obtain ⟨source, rfl, ready⟩ := (holds world.shared (Keeps.refl deployment _)).1
    obtain ⟨result, s', executed⟩ := ready.apply
    obtain ⟨db, ran, _⟩ := exec_apply executed
    exact ⟨result, db, ran⟩

theorem validation_handoff_sampleWorld :
    (∃ report ∈ sampleWorld.shared.db.reports.rows,
      report.status = .processing ∧ report.rowCount = 1) ∧
    ∀ report ∈ sampleWorld.shared.db.reports.rows, report.status = .processing →
      0 < report.rowCount → Handoff sampleDeployment sampleWorld.shared.db report :=
  ⟨by decide +kernel, (validation_handoff sampleDeployment sampleWorld sampleWorld_locked).1⟩

/-! ## The lifecycle of a report -/

/-- What the data of a report look like for its status. -/
def Lifecycle (data : ReportData) (report : Report) : Prop :=
  match report.status with
  | .pending => SoundPending data report
  | .processing => Unfinished report
  | .completed => SoundCompleted data report
  | .failed => SoundFailed data report

theorem Sound.lifecycle {deployment : Deployment} {data : ReportData} {report : Report}
    (sound : Sound deployment data) (found : data.report = some report) :
    Lifecycle data report := by
  simp only [Sound, found, SoundReport] at sound
  unfold Lifecycle
  cases status : report.status with
  | pending | completed | failed =>
      simp only [status] at sound ⊢
      exact sound
  | processing =>
      simp only [status] at sound ⊢
      exact sound.toUnfinished

/-- What one step may do to a report that exists. -/
structure Steps (data data' : ReportData) (report : Report) : Prop where
  status : ∃ report', data'.report = some report' ∧
    (report'.status = report.status ∨ MayBecome report.status report'.status)
  terminal : report.status = .completed ∨ report.status = .failed → data' = data

theorem Moves.steps {deployment : Deployment} {faults : Faults} {data data' : ReportData}
    {report : Report} (moves : Moves deployment faults data data')
    (found : data.report = some report) : Steps data data' report := by
  cases moves with
  | same unchanged =>
      rw [unchanged]
      exact ⟨⟨report, found, Or.inl rfl⟩, fun _ => rfl⟩
  | registered fresh _ _ _ =>
      rw [found] at fresh
      cases fresh
  | moved before report' found' after _ status _ =>
      rw [found] at found'
      cases found'
      refine ⟨⟨report', after, Or.inr status⟩, ?_⟩
      rintro (completed | failed)
      · rw [completed] at status
        exact status.elim
      · rw [failed] at status
        exact status.elim

/-- The lifecycle invariant, the moves of every step, and the outcomes of cycles. -/
theorem report_lifecycle (deployment : Deployment) (world : ServiceWorld)
    (run : LockedRun deployment world) :
    (∀ report ∈ world.shared.db.reports.rows,
      Lifecycle (world.shared.db.dataOf report.id) report) ∧
    (∀ (action : ServiceAction deployment) (next : ServiceWorld), Serialised world action →
      Atomic world action → (service deployment).step world action = some next →
        (∀ report ∈ world.shared.db.reports.rows, Steps (world.shared.db.dataOf report.id)
          (next.shared.db.dataOf report.id) report) ∧
        ∀ report' ∈ next.shared.db.reports.rows,
          world.shared.db.reports.find report'.id = none → report'.status = .pending) ∧
    ∀ w thread outcome, world.threads w = some thread → thread.program = .done (.ok outcome) →
      CycleEnded (.ok outcome) thread.log world.shared := by
  refine ⟨?_, ?_, ?_⟩
  · intro report member
    exact (run.sound.reports report.id).lifecycle ((Table.find_eq_some _).mpr ⟨member, rfl⟩)
  · intro action next serialised atomic stepped
    have moves := run.moves serialised atomic stepped
    refine ⟨?_, ?_⟩
    · intro report member
      exact (moves report.id).steps ((Table.find_eq_some _).mpr ⟨member, rfl⟩)
    · intro report' member fresh
      have found : (next.shared.db.dataOf report'.id).report = some report' :=
        (Table.find_eq_some _).mpr ⟨member, rfl⟩
      have fresh : (world.shared.db.dataOf report'.id).report = none := fresh
      cases moves report'.id with
      | same unchanged =>
          rw [unchanged, fresh] at found
          cases found
      | registered _ report found' status =>
          rw [found] at found'
          cases found'
          exact status
      | moved report _ before _ _ _ _ =>
          rw [fresh] at before
          cases before
  · intro w thread outcome running program
    have holds := run.thread running
    rw [program] at holds
    exact holds world.shared (Keeps.refl deployment _)

theorem report_lifecycle_sampleWorld :
    (∃ report ∈ sampleWorld.shared.db.reports.rows, report.status = .completed) ∧
    ∀ report ∈ sampleWorld.shared.db.reports.rows,
      Lifecycle (sampleWorld.shared.db.dataOf report.id) report :=
  ⟨by decide +kernel, (report_lifecycle sampleDeployment sampleWorld sampleWorld_locked).1⟩

end StockImport.Worker
