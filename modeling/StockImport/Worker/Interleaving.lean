import Mathlib.Data.List.Perm.Subperm
import StockImport.Worker.Lifecycle
import StockImport.Worker.Requests

/-!
# Any interleaving

Any number of workers whose lock connections drop at any moment, every transaction
atomic, any failure, and commits whose answer is lost.  A worker may then work on
a report that another one has claimed anew; what it still counts on is that the
report keeps its file.

So a worker stages only rows of the file and writes as row count only that of the
whole file.  The primary key of the staging table and the tests in the transaction
of `apply` do the rest.
-/

set_option autoImplicit false

namespace StockImport.Worker

open Csv Db Tables Transactional

/-! ## What every transaction keeps -/

/-- A report keeps its file. -/
def KeepsSources (s s' : Ledger) : Prop :=
  ∀ id report, s.db.reports.find id = some report →
    ∃ report', s'.db.reports.find id = some report' ∧ reportSource report' = reportSource report

def Known (source : ReportSource) (s : Ledger) : Prop :=
  ∃ report, s.db.reports.find source.id = some report ∧ reportSource report = source

/-- What holds of the data of one report in any interleaving. -/
def OpenReport (deployment : Deployment) (data : ReportData) : Prop :=
  match data.report with
  | none => data.staged = []
  | some report =>
      (∀ row ∈ data.staged, row ∈ deployment.fileRows (reportSource report)) ∧
        (report.status = .processing → report.rowCount = 0 ∨
          (deployment.fileRun (reportSource report)).result = .ok ⟨report.rowCount, true⟩)

structure OpenSound (deployment : Deployment) (s : Ledger) : Prop where
  reports : ∀ id, OpenReport deployment (s.db.dataOf id)
  completed : ∀ source ∈ s.completions, ∃ report, s.db.reports.find source.id = some report ∧
    report.status = .completed
  once : (s.completions.map ReportSource.id).Nodup

/-- The precondition of a transaction in any interleaving. -/
def OpenPre (deployment : Deployment) (s : Ledger) (t : Transaction) : Prop :=
  ∀ id, t.reportId = some id → ∀ report, s.db.reports.find id = some report →
    Asks deployment (reportSource report) t

/-- A worker among any others, with any failure. -/
def openSpec (deployment : Deployment) : Spec workerInterface Ledger where
  exec := Transaction.exec
  rely := KeepsSources
  rely_refl _ _ report found := ⟨report, found, rfl⟩
  rely_trans _ _ _ first second id report found := by
    obtain ⟨report', found', same⟩ := first id report found
    obtain ⟨report'', found'', same'⟩ := second id report' found'
    exact ⟨report'', found'', same'.trans same⟩
  pre _ t s := OpenPre deployment s t
  raises _ _ := True
  fails _ _ := True
  unknown _ _ := True
  loses := True

/-- Everything a transaction can do, as far as the reports, the staging rows and the
completions go. -/
inductive Effect (t : Transaction) (s s' : Ledger) : Prop
  | none (same : s' = s)
  | change (id : Nat) (set : Report → Report) (staged : List ValidatedRow)
      (errors : List ReportError) (inventory : Inventory)
      (changes : Changes s.db s'.db id ⟨(s.db.reports.find id).map set, staged, errors⟩ inventory)
      (source : ∀ report, reportSource (set report) = reportSource report)
      (terminal : ∀ report, s.db.reports.find id = some report → report.status = .completed →
        (set report).status = .completed)
      (staging : staged = [] ∨ staged = s.db.stagedRows id ∨
        ∃ batch, t = .writeStagingBatch id batch ∧ s.db.hasReport id = true ∧
          staged = s.db.stagedRows id ++ batch)
      (counting : ∀ report, s.db.reports.find id = some report →
        (set report).status = .processing → (set report).rowCount = 0 ∨
          (report.status = .processing ∧ (set report).rowCount = report.rowCount) ∨
          t = .markValidated id (set report).rowCount)
      (completions : s'.completions = s.completions ∨
        ∃ report, s.db.reports.find id = some report ∧ report.status = .processing ∧
          (set report).status = .completed ∧
          s'.completions = s.completions ++ [reportSource report])

section Open

variable {deployment : Deployment}

/-- An effect that leaves the report as it is. -/
theorem Effect.of_tables {t : Transaction} {s : Ledger} {db : Database} {id : Nat}
    {staged : List ValidatedRow} {errors : List ReportError} {inventory : Inventory}
    (changes : Changes s.db db id ⟨s.db.reports.find id, staged, errors⟩ inventory)
    (staging : staged = [] ∨ staged = s.db.stagedRows id ∨
      ∃ batch, t = .writeStagingBatch id batch ∧ s.db.hasReport id = true ∧
        staged = s.db.stagedRows id ++ batch) :
    Effect t s { s with db := db } := by
  refine .change id (fun report => report) staged errors inventory ?_ (fun _ => rfl)
    (fun _ _ completed => completed) staging ?_ (Or.inl rfl)
  · rw [Option.map_id']
    exact changes
  · exact fun report _ status => Or.inr (Or.inl ⟨status, rfl⟩)

theorem whileProcessing_source {set : Report → Report}
    (keeps : ∀ report, reportSource (set report) = reportSource report) (report : Report) :
    reportSource (whileProcessing set report) = reportSource report := by
  unfold whileProcessing
  split
  · exact keeps report
  · rfl

/-- An effect on a report in `processing`. -/
theorem Effect.of_processing {t : Transaction} {s : Ledger} {db : Database} {id : Nat}
    {set : Report → Report} {staged : List ValidatedRow} {errors : List ReportError}
    {inventory : Inventory}
    (changes : Changes s.db db id
      ⟨(s.db.reports.find id).map (whileProcessing set), staged, errors⟩ inventory)
    (keeps : ∀ report, reportSource (set report) = reportSource report)
    (staging : staged = [] ∨ staged = s.db.stagedRows id)
    (counting : ∀ report, (set report).status = .processing →
      t = .markValidated id (set report).rowCount) :
    Effect t s { s with db := db } := by
  refine .change id (whileProcessing set) staged errors inventory changes
    (whileProcessing_source keeps) ?_ ?_ ?_ (Or.inl rfl)
  · intro report _ completed
    simp [whileProcessing, completed]
  · rcases staging with none | same
    · exact Or.inl none
    · exact Or.inr (Or.inl same)
  · intro report _ status
    unfold whileProcessing at status ⊢
    split at status
    · next processing =>
        rw [if_pos processing]
        exact Or.inr (Or.inr (counting report status))
    · next other => exact absurd status other

theorem exec_effect {t : Transaction} {reply : t.Reply} {s s' : Ledger}
    (executed : t.exec s = .ok (reply, s')) : Effect t s s' := by
  cases t with
  | claim =>
      cases executed
      rcases claim_cases s.db with
        ⟨claimed, _⟩ | ⟨report, found, isOpen, ⟨claimed, _⟩ | ⟨db', claimed, _, changes⟩⟩
      · rw [claimed]
        exact .none rfl
      · rw [claimed]
        exact .none rfl
      · rw [claimed]
        refine .change report.id (Report.claim s.db.now) [] [] s.db.inventory ?_ (fun _ => rfl) ?_
          (Or.inl rfl) (fun _ _ _ => Or.inl rfl) (Or.inl rfl)
        · rw [found]
          exact changes
        · intro other same completed
          rw [found] at same
          cases same
          simp [Report.isOpen, completed] at isOpen
  | errorCount id =>
      cases executed
      exact .none rfl
  | writeStagingBatch id batch =>
      obtain ⟨db, written, rfl⟩ := store_ok executed
      refine .of_tables (writeStagingBatch_changes written) (Or.inr (Or.inr ⟨batch, rfl, ?_, rfl⟩))
      unfold Db.writeStagingBatch at written
      split at written
      · next accepted =>
          rw [Bool.and_eq_true] at accepted
          exact accepted.2
      · cases written
  | writeErrorBatch id batch =>
      obtain ⟨db, written, rfl⟩ := store_ok executed
      obtain ⟨added, _, changes⟩ := writeErrorBatch_changes written
      exact .of_tables changes (Or.inr (Or.inl rfl))
  | insertDuplicateErrors id rawValueChars =>
      obtain ⟨db, written, rfl⟩ := store_ok executed
      obtain ⟨added, _, changes⟩ := insertErrors_changes written
      exact .of_tables changes (Or.inr (Or.inl rfl))
  | finalizeValidationFailure id rowCount count =>
      cases executed
      exact .of_processing (finalizeValidationFailure_changes id rowCount count s.db) (fun _ => rfl)
        (Or.inl rfl) (fun report status => by cases status)
  | markValidated id rowCount =>
      cases executed
      exact .of_processing (markValidated_changes id rowCount s.db) (fun _ => rfl) (Or.inr rfl)
        (fun _ _ => rfl)
  | markProcessingFailed id =>
      obtain ⟨db, written, rfl⟩ := store_ok executed
      obtain ⟨added, changes⟩ := markFailed_changes written
      exact .of_processing changes (fun _ => rfl) (Or.inl rfl) (fun report status => by cases status)
  | markApplyFailed id =>
      obtain ⟨db, written, rfl⟩ := store_ok executed
      obtain ⟨added, changes⟩ := markFailed_changes written
      exact .of_processing changes (fun _ => rfl) (Or.inl rfl) (fun report status => by cases status)
  | apply id =>
      obtain ⟨db, ran, rfl⟩ := exec_apply executed
      obtain ⟨report, inventory, counters, found, ready, _, _, changes⟩ := applyReport_changes ran
      rw [found]
      refine .change id (Report.complete s.db.now counters) [] (s.db.errorsOf id) inventory ?_
        (fun _ => rfl) (fun _ _ _ => rfl) (Or.inl rfl) (fun _ _ status => by cases status)
        (Or.inr ⟨report, found, (readyForApply_cases ready).1, rfl, rfl⟩)
      rw [found]
      exact changes

theorem Effect.keepsSources {t : Transaction} {s s' : Ledger} (effect : Effect t s s') :
    KeepsSources s s' := by
  cases effect with
  | none same =>
      rw [same]
      exact fun id report found => ⟨report, found, rfl⟩
  | change id set _ _ _ changes source _ _ _ _ =>
      intro other report found
      by_cases same : other = id
      · subst same
        have own := congrArg ReportData.report changes.own
        simp only [found, Option.map_some] at own
        exact ⟨set report, own, source report⟩
      · have others := congrArg ReportData.report (changes.others other same)
        exact ⟨report, others.trans found, rfl⟩

/-- The data of the report that an effect is on. -/
theorem OpenReport.change {t : Transaction} {s : Ledger} {id : Nat} {set : Report → Report}
    {staged : List ValidatedRow} {errors : List ReportError}
    (before : OpenReport deployment (s.db.dataOf id)) (pre : OpenPre deployment s t)
    (source : ∀ report, reportSource (set report) = reportSource report)
    (staging : staged = [] ∨ staged = s.db.stagedRows id ∨
      ∃ batch, t = .writeStagingBatch id batch ∧ s.db.hasReport id = true ∧
        staged = s.db.stagedRows id ++ batch)
    (counting : ∀ report, s.db.reports.find id = some report →
      (set report).status = .processing → (set report).rowCount = 0 ∨
        (report.status = .processing ∧ (set report).rowCount = report.rowCount) ∨
        t = .markValidated id (set report).rowCount) :
    OpenReport deployment ⟨(s.db.reports.find id).map set, staged, errors⟩ := by
  cases found : s.db.reports.find id with
  | none =>
      simp only [OpenReport, Database.dataOf, found] at before
      simp only [OpenReport, Option.map_none]
      rcases staging with none | same | ⟨_, _, known, _⟩
      · exact none
      · exact same.trans before
      · simp [Database.hasReport, found] at known
  | some report =>
      simp only [OpenReport, Database.dataOf, found] at before
      simp only [OpenReport, Option.map_some, source]
      refine ⟨?_, ?_⟩
      · rcases staging with rfl | rfl | ⟨batch, rfl, _, rfl⟩
        · intro row member
          cases member
        · exact before.1
        · intro row member
          rcases List.mem_append.mp member with old | new
          · exact before.1 row old
          · exact (pre id rfl report found).2 row new
      · intro status
        rcases counting report found status with none | ⟨processing, same⟩ | rfl
        · exact Or.inl none
        · rw [same]
          exact before.2 processing
        · exact Or.inr (pre id rfl report found).2

/-- The step lemma of any interleaving. -/
theorem Effect.sound {t : Transaction} {s s' : Ledger} (effect : Effect t s s')
    (sound : OpenSound deployment s) (pre : OpenPre deployment s t) : OpenSound deployment s' := by
  cases effect with
  | none same =>
      rw [same]
      exact sound
  | change id set staged errors inventory changes source terminal staging counting completions =>
      have own : OpenReport deployment ⟨(s.db.reports.find id).map set, staged, errors⟩ :=
        (sound.reports id).change pre source staging counting
      have stays : ∀ source report, s.db.reports.find source = some report →
          report.status = .completed →
            ∃ report', s'.db.reports.find source = some report' ∧ report'.status = .completed := by
        intro other report found status
        by_cases same : other = id
        · subst same
          have data := congrArg ReportData.report changes.own
          simp only [found, Option.map_some] at data
          exact ⟨set report, data, terminal report found status⟩
        · have data := congrArg ReportData.report (changes.others other same)
          exact ⟨report, data.trans found, status⟩
      refine ⟨?_, ?_, ?_⟩
      · intro other
        by_cases same : other = id
        · rw [same, changes.own]
          exact own
        · rw [changes.others other same]
          exact sound.reports other
      · intro source member
        rcases completions with same | ⟨report, found, _, status, grown⟩
        · rw [same] at member
          obtain ⟨report, found, status⟩ := sound.completed source member
          exact stays source.id report found status
        · rw [grown] at member
          rcases List.mem_append.mp member with old | new
          · obtain ⟨report, found, status⟩ := sound.completed source old
            exact stays source.id report found status
          · have key : report.id = id := ((Table.find_eq_some _).mp found).2
            rw [List.mem_singleton.mp new]
            have data := congrArg ReportData.report changes.own
            simp only [found, Option.map_some] at data
            exact ⟨set report, by rw [reportSource, key]; exact data, status⟩
      · rcases completions with same | ⟨report, found, processing, _, grown⟩
        · rw [same]
          exact sound.once
        · have key : report.id = id := ((Table.find_eq_some _).mp found).2
          rw [grown, List.map_append, List.nodup_append]
          refine ⟨sound.once, by simp, ?_⟩
          rintro a old b new rfl
          obtain ⟨source, member, same⟩ := List.mem_map.mp old
          have mine : source.id = id := by
            rw [same, List.mem_singleton.mp new]
            exact key
          obtain ⟨report', found', status⟩ := sound.completed source member
          rw [mine, found] at found'
          cases found'
          rw [processing] at status
          cases status

theorem environment_open {e : Environment} {s s' : Ledger} (sound : OpenSound deployment s)
    (happened : (service deployment).environment e s = some s') :
    OpenSound deployment s' ∧ KeepsSources s s' := by
  simp only [service, Option.map_eq_some_iff] at happened
  obtain ⟨db, stepped, rfl⟩ := happened
  obtain ⟨_, same | ⟨registration, fresh, changes⟩⟩ := Environment.step_cases stepped
  · have reports : ∀ id, db.reports.find id = s.db.reports.find id :=
      fun id => congrArg ReportData.report (same id)
    refine ⟨⟨?_, ?_, sound.once⟩, fun id report found => ⟨report, (reports id).trans found, rfl⟩⟩
    · intro id
      rw [same id]
      exact sound.reports id
    · intro source member
      obtain ⟨report, found, status⟩ := sound.completed source member
      exact ⟨report, (reports source.id).trans found, status⟩
  · have others : ∀ id, id ≠ registration.id → db.reports.find id = s.db.reports.find id :=
      fun id different => congrArg ReportData.report (changes.others id different)
    have known : ∀ id report, s.db.reports.find id = some report → id ≠ registration.id := by
      rintro id report found rfl
      rw [fresh] at found
      cases found
    refine ⟨⟨?_, ?_, sound.once⟩, ?_⟩
    · intro id
      by_cases same : id = registration.id
      · have before := sound.reports registration.id
        simp only [OpenReport, Database.dataOf, fresh] at before
        rw [same, changes.own]
        simp [OpenReport, Database.dataOf, before, Registration.report]
      · rw [changes.others id same]
        exact sound.reports id
    · intro source member
      obtain ⟨report, found, status⟩ := sound.completed source member
      exact ⟨report, (others source.id (known _ _ found)).trans found, status⟩
    · intro id report found
      exact ⟨report, (others id (known id report found)).trans found, rfl⟩

theorem Known.pre {source : ReportSource} {s : Ledger} {t : Transaction} (known : Known source s)
    (asks : Asks deployment source t) : OpenPre deployment s t := by
  intro id about report found
  obtain ⟨report', found', same⟩ := known
  cases t with
  | writeStagingBatch reportId batch =>
      obtain ⟨rfl, rows⟩ := asks
      cases about
      rw [found'] at found
      cases found
      rw [same]
      exact ⟨rfl, rows⟩
  | markValidated reportId rowCount =>
      obtain ⟨rfl, whole⟩ := asks
      cases about
      rw [found'] at found
      cases found
      rw [same]
      exact ⟨rfl, whole⟩
  | claim | writeErrorBatch _ _ | insertDuplicateErrors _ _ | errorCount _
  | finalizeValidationFailure _ _ _ | markProcessingFailed _ | apply _ | markApplyFailed _ =>
      trivial

theorem wp_claimed_open {source : ReportSource} {ready : Bool}
    {p : WorkerProgram WorkerCycleOutcome} {log : List (Commit workerInterface)} {s : Ledger}
    (known : Known source s) (ensures : p.Ensures (WorksOn deployment source ready) fun _ => True) :
    wp (openSpec deployment) p (fun _ _ _ => True) log s := by
  have keeps : ∀ s s', KeepsSources s s' → Known source s → Known source s' := by
    rintro s s' keeps ⟨report, found, same⟩
    obtain ⟨report', found', same'⟩ := keeps source.id report found
    exact ⟨report', found', same'.trans same⟩
  refine wp_mono _ p (fun _ _ _ _ => trivial) log s
    (wp_of_ensures (openSpec deployment) ?_ (fun _ => keeps) ?_ p log s known ensures)
  · intro log t reply s s' known _ executed
    exact keeps s s' (exec_effect executed).keepsSources known
  · intro log t s known works
    exact known.pre works.asked

theorem wp_process_open (delivery : Delivery deployment) (s : Ledger) :
    wp (openSpec deployment) (process deployment delivery) (fun _ _ _ => True) [] s := by
  have stable : StablePost (openSpec deployment)
      (fun (_ : Except PyException WorkerCycleOutcome) _ _ => True) := fun _ _ _ _ _ _ => trivial
  unfold process
  refine wp_then_commit _ _ _ stable (fun _ _ _ _ => trivial) trivial ?_ ?_ ?_ ?_
  · intro s _ id about
    cases about
  · intro s reply s' _ executed
    refine ⟨?_, fun _ _ => trivial⟩
    cases executed
    rcases claim_cases s.db with
      ⟨claimed, _⟩ | ⟨report, found, _, ⟨claimed, _⟩ | ⟨db, claimed, _, changes⟩⟩
    · rw [claimed]
      exact wp_pure _ stable trivial
    · rw [claimed]
      exact wp_claimed_open ⟨report, found, rfl⟩ ensures_processApply
    · rw [claimed]
      have known : Known (reportSource report) { s with db := db } :=
        ⟨_, congrArg ReportData.report changes.own, rfl⟩
      exact wp_claimed_open known (ensures_processValidation delivery)
  · intro s e _ _
    trivial
  · intro s e _ _
    trivial

theorem open_guarantees (deployment : Deployment) :
    Guarantees (service deployment) (openSpec deployment) (OpenSound deployment)
      (fun _ _ _ => True) where
  exec := rfl
  loses := trivial
  environment _ _ _ := environment_open
  transaction _ _ _ _ _ sound pre executed := (exec_effect executed).sound sound pre
  starts delivery s _ := wp_process_open delivery s

theorem OpenSound.empty (deployment : Deployment) : OpenSound deployment .empty where
  reports id := rfl
  completed source member := by cases member
  once := List.nodup_nil

/-! ## What an apply reads -/

/-- The staging rows that an apply reads: one for each data record of the file. -/
structure ReadsWhole (deployment : Deployment) (db : Database) (report : Report) : Prop where
  count : (db.stagedRows report.id).length = report.rowCount
  whole : report.rowCount =
    (dataRecords deployment.limits (deployment.file (reportSource report))).length
  lines : ((db.stagedRows report.id).map ValidatedRow.lineNumber).Perm
    (List.range' 2 report.rowCount)
  records : ∀ row ∈ db.stagedRows report.id, ∃ record continues,
    (dataRecords deployment.limits (deployment.file (reportSource report)))[row.lineNumber - 2]? =
        some record ∧
      checkRecord deployment.limits
          (fileHeader deployment.limits (deployment.file (reportSource report))) row.lineNumber
          record = .ok (.validRow row, continues)

/-- Where the row count is that of the whole file, as many rows of the file as it
says are one for each record: the primary key lets no line in twice. -/
theorem OpenSound.readsWhole {s : Ledger} {id : Nat} {result : ApplyResult} {db : Database}
    (sound : OpenSound deployment s) (applied : applyReport id s.db = .ok (result, db)) :
    ∃ report, s.db.reports.find id = some report ∧ ReadsWhole deployment s.db report := by
  obtain ⟨report, _, _, found, ready, _⟩ := applyReport_changes applied
  have key : report.id = id := ((Table.find_eq_some _).mp found).2
  subst key
  obtain ⟨status, _, positive, count⟩ := readyForApply_cases ready
  have own := sound.reports report.id
  simp only [OpenReport, Database.dataOf, found] at own
  obtain ⟨inFile, counted⟩ := own
  have result : (deployment.fileRun (reportSource report)).result =
      .ok ⟨report.rowCount, true⟩ := by
    rcases counted status with none | whole
    · omega
    · exact whole
  obtain ⟨perRecord, final, accounts⟩ :=
    validateBytes_accounts deployment.limits (deployment.file (reportSource report))
  obtain ⟨consumed, whole, _⟩ := accounts.summary _ result
  have whole := whole rfl
  dsimp only at consumed
  refine ⟨report, found, count, consumed.trans whole, ?_, fun row member =>
    fileRows_record (inFile row member)⟩
  have inRange : (s.db.stagedRows report.id).map ValidatedRow.lineNumber ⊆
      List.range' 2 report.rowCount := by
    intro line member
    obtain ⟨row, staged, rfl⟩ := List.mem_map.mp member
    have lines := accounts.lines
    rw [← consumed] at lines
    exact lines.subset (List.mem_map_of_mem (inFile row staged))
  refine List.Subperm.perm_of_length_le
    (List.subperm_of_subset (stagedRows_lines s.db report.id) inRange) ?_
  simp [count]

end Open

/-- In any interleaving every report is applied at most once, and an apply that
commits has read one staging row for each data record of the file. -/
theorem apply_reads_whole (deployment : Deployment) (world : ServiceWorld)
    (run : Reachable (service deployment) (fun _ _ => True) ServiceWorld.empty world) :
    (appliedIds world.history).Nodup ∧
    ∀ (action : ServiceAction deployment) (next : ServiceWorld) (attempt reportId : Nat)
      (result : ApplyResult), (service deployment).step world action = some next →
        next.history = world.history ++ [(attempt, ⟨.apply reportId, result⟩)] →
          ∃ report, world.shared.db.reports.find reportId = some report ∧
            ReadsWhole deployment world.shared.db report := by
  have permitted : Reachable (service deployment)
      (fun world action => Permits (openSpec deployment) world action) ServiceWorld.empty world :=
    run.weaken fun world action _ _ =>
      permits_any (fun _ _ => trivial) (fun _ _ => trivial) (fun _ _ => trivial) world action
  have sound := (interleaved_sound (open_guarantees deployment)
    (fun _ _ _ _ executed => (exec_effect executed).keepsSources) ServiceWorld.empty_idle
    (.empty deployment) permitted).1
  refine ⟨?_, ?_⟩
  · rw [← completions_history run]
    exact sound.once
  · intro action next attempt reportId result stepped grown
    have executed : Transaction.exec (.apply reportId) world.shared = .ok (result, next.shared) :=
      step_history stepped grown
    obtain ⟨db, ran, _⟩ := exec_apply executed
    exact sound.readsWhole ran

/-- Worker 0 stands in front of its apply when its connection drops; worker 1 takes the
report over and stands there as well. -/
def contestedActions : List (ServiceAction sampleDeployment) :=
  [sampleRegistration 1 "first"] ++ sampleCycle 19 ++ sampleStart 12 ++
    [.drop 0, .acquire 1 sampleDelivery] ++ List.replicate 12 (.run 1 .none)

theorem contestedActions_run :
    ((service sampleDeployment).runs ServiceWorld.empty contestedActions).isSome = true := by
  decide +kernel

def contestedWorld : ServiceWorld :=
  ((service sampleDeployment).runs ServiceWorld.empty contestedActions).get contestedActions_run

theorem contestedWorld_reached :
    Reachable (service sampleDeployment) (fun _ _ => True) ServiceWorld.empty contestedWorld :=
  reachable_runs contestedActions _ _ (fun _ _ _ => trivial) .start
    (Option.some_get contestedActions_run).symm

/-- Either of the two may commit the apply, and then it has read the whole file. -/
theorem apply_reads_whole_contestedWorld :
    (∀ w ∈ [0, 1], (service sampleDeployment).commitOf contestedWorld (.run w .none) =
        some (.apply 1)) ∧
      ∃ next, (service sampleDeployment).step contestedWorld (.run 1 .none) = some next ∧
        (appliedIds next.history).Nodup ∧
        ∃ report, contestedWorld.shared.db.reports.find 1 = some report ∧
          ReadsWhole sampleDeployment contestedWorld.shared.db report := by
  have commits : ∀ w ∈ [0, 1], (service sampleDeployment).commitOf contestedWorld (.run w .none) =
      some (.apply 1) := by decide +kernel
  have runs : ((service sampleDeployment).step contestedWorld (.run 1 .none)).isSome = true := by
    decide +kernel
  obtain ⟨next, stepped⟩ := Option.isSome_iff_exists.mp runs
  obtain ⟨attempt, result, grown⟩ := step_commitOf stepped (commits 1 (by simp))
  have later : Reachable (service sampleDeployment) (fun _ _ => True) ServiceWorld.empty next :=
    .step (.run 1 .none) contestedWorld_reached trivial stepped
  exact ⟨commits, next, stepped, (apply_reads_whole sampleDeployment next later).1,
    (apply_reads_whole sampleDeployment contestedWorld contestedWorld_reached).2 _ next attempt 1
      result stepped grown⟩

end StockImport.Worker
