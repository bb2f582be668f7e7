import StockImport.Worker.Decision
import StockImport.Worker.Overlapping
import StockImport.Worker.Verdict

/-!
# Imports without a fault

Where no step fails, no lock is lost and nothing is registered in between, the
workers are a loop over the queue: the files in the order of `created_at` and id,
each applied as a whole or not at all.  `fate` is what becomes of a report, and
depends on its file alone.  The database they start from may be one that any run
behind the lock has left.
-/

set_option autoImplicit false

namespace StockImport.Worker

open Csv Db Tables Transactional Snapshots

/-! ## The fate of a report -/

instance (deployment : Deployment) (source : ReportSource) :
    Decidable (Storable deployment source) := by
  unfold Storable
  infer_instance

/-- What becomes of a report when nothing goes wrong but its file. -/
def Deployment.fate (deployment : Deployment) (source : ReportSource) : WorkerCycleOutcome :=
  match (deployment.fileRun source).result with
  | .error _ => .processingFailed
  | .ok _ =>
      if Storable deployment source then
        if deployment.fileIssues source = [] ∧ DistinctPairs (deployment.fileRows source) then
          .completed
        else .validationFailed
      else .processingFailed

section Fate

variable {deployment : Deployment} {source : ReportSource}

theorem ValidFile.fate {rowCount : Nat} (valid : ValidFile deployment source rowCount)
    (storable : Storable deployment source) : deployment.fate source = .completed := by
  unfold Deployment.fate
  rw [valid.result]
  dsimp only
  rw [if_pos storable, if_pos ⟨valid.clean, valid.distinct⟩]

theorem fate_refused {summary : CsvValidationSummary}
    (returned : (deployment.fileRun source).result = .ok summary)
    (storable : Storable deployment source)
    (wrong : ¬(deployment.fileIssues source = [] ∧ DistinctPairs (deployment.fileRows source))) :
    deployment.fate source = .validationFailed := by
  unfold Deployment.fate
  rw [returned]
  dsimp only
  rw [if_pos storable, if_neg wrong]

theorem fate_failed (why : ¬ Storable deployment source ∨
    ∃ e, (deployment.fileRun source).result = .error e) :
    deployment.fate source = .processingFailed := by
  unfold Deployment.fate
  rcases why with unstorable | ⟨e, raised⟩
  · split
    · rfl
    · rw [if_neg unstorable]
  · rw [raised]

/-- A report ends as its file decides. -/
theorem fate_terminal {report : Report} (names : (deployment.fate source).Names report) :
    report.Terminal := by
  unfold Deployment.fate at names
  split at names
  · exact Or.inr names.1
  · split at names
    · split at names
      · exact Or.inl names
      · exact Or.inr names.1
    · exact Or.inr names.1

end Fate

/-! ## What the database has taken -/

/-- The texts of the staged rows are ones that the database takes. -/
def StagedStorable (db : Database) : Prop :=
  ∀ id, ∀ row ∈ db.stagedRows id, storableRow row = true

/-- A batch that the database has taken. -/
def Accepted : Transaction → Prop
  | .writeStagingBatch _ batch => ∀ row ∈ batch, storableRow row = true
  | .writeErrorBatch _ batch => ∀ issue ∈ batch, storableIssue issue = true
  | _ => True

theorem exec_accepted {t : Transaction} {reply : t.Reply} {s s' : Ledger}
    (executed : t.exec s = .ok (reply, s')) : Accepted t := by
  cases t with
  | claim | insertDuplicateErrors _ _ | errorCount _ | finalizeValidationFailure _ _ _
  | markValidated _ _ | markProcessingFailed _ | apply _ | markApplyFailed _ => trivial
  | writeStagingBatch id batch =>
      obtain ⟨db, written, _⟩ := store_ok executed
      unfold Db.writeStagingBatch at written
      split at written
      · next taken =>
          rw [Bool.and_eq_true, List.all_eq_true] at taken
          exact taken.1
      · cases written
  | writeErrorBatch id batch =>
      obtain ⟨db, written, _⟩ := store_ok executed
      unfold Db.writeErrorBatch at written
      split at written
      · next taken => exact List.all_eq_true.mp taken
      · cases written

theorem Changes.stagedStorable {db db' : Database} {id : Nat} {data : ReportData}
    {inventory : Inventory} (changes : Changes db db' id data inventory)
    (storable : StagedStorable db) (own : ∀ row ∈ data.staged, storableRow row = true) :
    StagedStorable db' := by
  intro other row member
  have staged : (db'.dataOf other).staged = db'.stagedRows other := rfl
  rw [← staged] at member
  by_cases same : other = id
  · rw [same, changes.own] at member
    exact own row member
  · rw [changes.others other same] at member
    exact storable other row member

theorem exec_stagedStorable {t : Transaction} {reply : t.Reply} {s s' : Ledger}
    (storable : StagedStorable s.db) (executed : t.exec s = .ok (reply, s')) :
    StagedStorable s'.db := by
  have accepted := exec_accepted executed
  cases t with
  | claim =>
      cases executed
      rcases claim_cases s.db with
        ⟨claimed, _⟩ | ⟨report, _, _, ⟨claimed, _⟩ | ⟨db', claimed, _, changes⟩⟩
      · rw [claimed]
        exact storable
      · rw [claimed]
        exact storable
      · rw [claimed]
        exact Changes.stagedStorable changes storable (by simp)
  | errorCount id =>
      cases executed
      exact storable
  | writeStagingBatch id batch =>
      obtain ⟨db, written, rfl⟩ := store_ok executed
      refine Changes.stagedStorable (writeStagingBatch_changes written) storable ?_
      intro row member
      rcases List.mem_append.mp member with old | new
      · exact storable id row old
      · exact accepted row new
  | writeErrorBatch id batch =>
      obtain ⟨db, written, rfl⟩ := store_ok executed
      obtain ⟨added, _, changes⟩ := writeErrorBatch_changes written
      exact Changes.stagedStorable changes storable (storable id)
  | insertDuplicateErrors id rawValueChars =>
      obtain ⟨db, written, rfl⟩ := store_ok executed
      obtain ⟨added, _, changes⟩ := insertErrors_changes written
      exact Changes.stagedStorable changes storable (storable id)
  | finalizeValidationFailure id rowCount count =>
      cases executed
      exact Changes.stagedStorable (finalizeValidationFailure_changes id rowCount count s.db) storable
        (by simp)
  | markValidated id rowCount =>
      cases executed
      exact Changes.stagedStorable (markValidated_changes id rowCount s.db) storable (storable id)
  | markProcessingFailed id =>
      obtain ⟨db, written, rfl⟩ := store_ok executed
      obtain ⟨added, changes⟩ := markFailed_changes written
      exact Changes.stagedStorable changes storable (by simp)
  | markApplyFailed id =>
      obtain ⟨db, written, rfl⟩ := store_ok executed
      obtain ⟨added, changes⟩ := markFailed_changes written
      exact Changes.stagedStorable changes storable (by simp)
  | apply id =>
      obtain ⟨db, ran, rfl⟩ := exec_apply executed
      obtain ⟨_, _, _, _, _, _, _, changes⟩ := applyReport_changes ran
      exact Changes.stagedStorable changes storable (by simp)

theorem reachable_stagedStorable {deployment : Deployment}
    {allowed : ServiceWorld → ServiceAction deployment → Prop} {start world : ServiceWorld}
    (initial : StagedStorable start.shared.db)
    (run : Reachable (service deployment) allowed start world) :
    StagedStorable world.shared.db := by
  induction run with
  | start => exact initial
  | @step world next action _ _ stepped ih =>
      rcases step_shared stepped with ⟨same, _⟩ | ⟨e, _, happened, _⟩ |
        ⟨_, _, _, _, t, reply, _, _, _, executed, _⟩
      · rw [same]
        exact ih
      · simp only [service, Option.map_eq_some_iff] at happened
        obtain ⟨db, stepped', shared⟩ := happened
        rw [← shared]
        obtain ⟨_, same | ⟨registration, _, changes⟩⟩ := Environment.step_cases stepped'
        · intro id row member
          have staged : db.stagedRows id = world.shared.db.stagedRows id :=
            congrArg ReportData.staged (same id)
          exact ih id row (staged ▸ member)
        · exact Changes.stagedStorable changes ih (ih registration.id)
      · exact exec_stagedStorable ih executed

/-- The completions grow by the report of an apply. -/
theorem exec_appends {t : Transaction} {reply : t.Reply} {s s' : Ledger}
    (executed : t.exec s = .ok (reply, s')) :
    ∃ more, s'.completions = s.completions ++ more ∧
      ∀ added ∈ more, t.reportId = some added.id := by
  have same : s'.completions = s.completions → ∃ more, s'.completions = s.completions ++ more ∧
      ∀ added ∈ more, t.reportId = some added.id :=
    fun unchanged => ⟨[], by rw [unchanged, List.append_nil], by simp⟩
  cases t with
  | claim | errorCount _ | finalizeValidationFailure _ _ _ | markValidated _ _ =>
      cases executed
      exact same rfl
  | writeStagingBatch _ _ | writeErrorBatch _ _ | insertDuplicateErrors _ _
  | markProcessingFailed _ | markApplyFailed _ =>
      obtain ⟨db, _, rfl⟩ := store_ok executed
      exact same rfl
  | apply id =>
      obtain ⟨db, ran, rfl⟩ := exec_apply executed
      refine ⟨_, rfl, ?_⟩
      intro added member
      rw [Option.mem_toList, Option.map_eq_some_iff] at member
      obtain ⟨report, found, rfl⟩ := member
      exact congrArg some ((Table.find_eq_some _).mp found).2.symm

/-! ## A cycle without a fault -/

/-- No step fails, and others leave the reports alone. -/
def faultlessSpec (deployment : Deployment) : Spec workerInterface Ledger where
  exec := Transaction.exec
  rely := (drainSpec deployment).rely
  rely_refl := (drainSpec deployment).rely_refl
  rely_trans := (drainSpec deployment).rely_trans
  pre _ t s := Pre deployment .quiet s t
  raises _ _ := False
  fails _ _ := False
  unknown _ _ := False
  loses := False

/-- What the commits of a cycle on a report keep. -/
structure CycleKeeps (deployment : Deployment) (registration : Registration) (before : Ledger)
    (log : List (Commit workerInterface)) (s : Ledger) : Prop where
  sound : LedgerSound deployment s
  staged : StagedStorable s.db
  others : OthersKeep registration.id before s
  completions : ∃ more, s.completions = before.completions ++ more ∧
    ∀ added ∈ more, added.id = registration.id
  own : ∃ report, s.db.reports.find registration.id = some report ∧
    Report.registration report = registration
  accepted : ∀ commit ∈ log, Accepted commit.transaction

section Cycle

variable {deployment : Deployment} {source : ReportSource}

theorem wp_faultless {α : Type} {p : WorkerProgram α} {post : Post workerInterface Ledger α}
    {log : List (Commit workerInterface)} {s : Ledger}
    (holds : wp (lockedSpec deployment .quiet) p post log s) :
    wp (faultlessSpec deployment) p post log s :=
  wp_refine (lockedSpec deployment .quiet) (faultlessSpec deployment) (fun _ _ => rfl)
    (fun _ _ others => others.1) (fun _ _ _ pre => pre) (fun lost => lost)
    (fun _ _ raised => raised) (fun _ _ failed => failed) (fun _ _ unknown => unknown) p log s holds

theorem StagedStorable.congr {db db' : Database} (storable : StagedStorable db)
    (same : ∀ id, db'.dataOf id = db.dataOf id) : StagedStorable db' := by
  intro id row member
  have staged : db'.stagedRows id = db.stagedRows id := congrArg ReportData.staged (same id)
  exact storable id row (staged ▸ member)

theorem cycleKeeps_stable (registration : Registration) (before : Ledger)
    (log : List (Commit workerInterface)) :
    Stable (faultlessSpec deployment) (CycleKeeps deployment registration before log) := by
  rintro s s' ⟨keeps, same⟩ cycle
  refine ⟨keeps.sound cycle.sound, cycle.staged.congr same, ?_, ?_, ?_, cycle.accepted⟩
  · intro other different
    exact (same other).trans (cycle.others other different)
  · obtain ⟨more, completions, about⟩ := cycle.completions
    exact ⟨more, keeps.completions.trans completions, about⟩
  · obtain ⟨report, found, registered⟩ := cycle.own
    exact ⟨report, (congrArg ReportData.report (same registration.id)).trans found, registered⟩

/-- One commit of a cycle. -/
theorem CycleKeeps.exec {registration : Registration} {ready : Bool} {before s s' : Ledger}
    {log : List (Commit workerInterface)} {t : Transaction} {reply : t.Reply}
    (cycle : CycleKeeps deployment registration before log s)
    (works : WorksOn deployment source ready t) (mine : source.id = registration.id)
    (pre : Pre deployment .quiet s t) (executed : t.exec s = .ok (reply, s')) :
    CycleKeeps deployment registration before (log ++ [⟨t, reply⟩]) s' := by
  have about : t.reportId = some registration.id := mine ▸ works.about
  refine ⟨transaction_sound cycle.sound pre executed, exec_stagedStorable cycle.staged executed,
    ?_, ?_, ?_, ?_⟩
  · intro other different
    exact ((exec_touches about executed).others other different).trans (cycle.others other different)
  · obtain ⟨more, completions, earlier⟩ := cycle.completions
    obtain ⟨added, appended, now⟩ := exec_appends executed
    refine ⟨more ++ added, by rw [appended, completions, List.append_assoc], ?_⟩
    intro one member
    rcases List.mem_append.mp member with old | new
    · exact earlier one old
    · exact Option.some.inj ((now one new).symm.trans about)
  · obtain ⟨report, found, registered⟩ := cycle.own
    obtain ⟨report', found', moves⟩ := (exec_rowEffect executed).rowMoves found
    exact ⟨report', found', moves.registration.trans registered⟩
  · intro commit member
    rcases List.mem_append.mp member with old | new
    · exact cycle.accepted commit old
    · rw [List.mem_singleton.mp new]
      exact exec_accepted executed

/-- The report of a cycle has the fate of its file, or is validated and waits. -/
def Fated (deployment : Deployment) (source : ReportSource) (ready : Bool)
    (s : Ledger) : Prop :=
  (ready = false ∧ deployment.fate source = .completed ∧ Ready deployment source s) ∨
    ∃ report, s.db.reports.find source.id = some report ∧ reportSource report = source ∧
      (deployment.fate source).Names report

theorem Ready.storable {s : Ledger} (ready : Ready deployment source s)
    (taken : StagedStorable s.db) : Storable deployment source := by
  obtain ⟨report, _, _, _, _, valid, staged, _⟩ := ready
  refine ⟨fun row member => taken source.id row (staged ▸ member), ?_⟩
  intro issue member
  rw [valid.clean] at member
  cases member

theorem Ready.fate {s : Ledger} (ready : Ready deployment source s)
    (taken : StagedStorable s.db) : deployment.fate source = .completed := by
  have storable := ready.storable taken
  obtain ⟨_, _, _, _, _, valid, _⟩ := ready
  exact valid.fate storable

/-- An apply that meets no fault completes its report. -/
theorem wp_processApply_faultless {log : List (Commit workerInterface)} {s : Ledger}
    (ready : Ready deployment source s) (taken : StagedStorable s.db) :
    wp (faultlessSpec deployment) (processApply source.id)
      (fun _ _ s => Fated deployment source true s) log s := by
  have fate := ready.fate taken
  have storable := ready.storable taken
  have stable : StablePost (lockedSpec deployment .quiet)
      (fun (_ : Except PyException WorkerCycleOutcome) _ s =>
        ∃ report, s.db.reports.find source.id = some report ∧ reportSource report = source ∧
          (deployment.fate source).Names report) := by
    rintro _ _ s s' keeps ⟨report, found, rest⟩
    exact ⟨report, Keeps.found keeps found, rest⟩
  refine wp_faultless (wp_mono _ _ (fun _ _ _ named => Or.inr named) _ _ ?_)
  unfold processApply
  refine wp_handle _ _ _ stable (wp_bind _ _ _ (stablePost_handle _ _ stable)
    (wp_mono _ _ ?_ _ _ (wp_apply ready)))
  intro result log s applied
  cases result with
  | ok result =>
      obtain ⟨report, found, same, status⟩ := applied
      refine wp_pure _ (stablePost_handle _ _ stable) ⟨report, found, same, ?_⟩
      rw [fate]
      exact status
  | error e =>
      obtain ⟨⟨_, _, _, _, _, valid, _⟩, ⟨lost, _⟩ | blames⟩ := applied
      · exact lost.elim
      · exact absurd blames (blames_quiet storable valid.result)

/-- A validation decides only after the whole stream. -/
theorem ensures_stream (delivery : Delivery deployment) :
    (processValidation deployment delivery source).Ensures (fun _ => True)
      fun result => ∀ outcome, result = .ok outcome → outcome = .processingFailed ∨
        ∃ summary, (deployment.fileRun source).result = .ok summary := by
  have any : ∀ {α : Type} (p : WorkerProgram α), p.Ensures (fun _ => True) fun _ => True :=
    fun p => ensures_any p
  unfold processValidation
  refine ensures_handle ?_ fun e => ?_
  · unfold validate consumeRun
    refine ensures_then (any _) (fun _ _ same => by cases same) fun _ => ?_
    refine ensures_then (any _) (fun _ _ same => by cases same) fun _ => ?_
    refine ensures_then (any _) (fun _ _ same => by cases same) fun _ => ?_
    have ran : (Program.done (delivery.run source).result : WorkerProgram _).Ensures
        (fun _ => True) fun result => result = (delivery.run source).result := rfl
    refine ensures_bind ran (fun _ _ same => by cases same) fun summary returned => ?_
    refine (any _).mono (fun _ asked => asked) fun _ _ _ _ => Or.inr ⟨summary, ?_⟩
    rw [← (delivery.run_file source).2.2, ← returned]
  · unfold unlessLockLost
    split
    · intro _ same
      cases same
    · refine ensures_then (any _) (fun _ _ same => by cases same) fun _ => ?_
      refine ensures_then (any _) (fun _ _ same => by cases same) fun _ => ?_
      intro outcome same
      cases same
      exact Or.inl rfl

/-- The batches of a file that the database has taken are all of its texts. -/
theorem Written.storable {log : List (Commit workerInterface)}
    (written : Written deployment source.id log (deployment.fileRows source)
      (deployment.fileIssues source))
    (accepted : ∀ commit ∈ log, Accepted commit.transaction) : Storable deployment source := by
  refine ⟨?_, ?_⟩
  · intro row member
    rw [← written.rows, List.mem_flatten] at member
    obtain ⟨batch, inLog, inBatch⟩ := member
    obtain ⟨⟨t, reply⟩, isCommit, isBatch⟩ := List.mem_filterMap.mp inLog
    have taken := accepted _ isCommit
    cases t with
    | writeStagingBatch id rows =>
        simp only [Option.ite_none_right_eq_some, Option.some.injEq] at isBatch
        exact taken row (isBatch.2 ▸ inBatch)
    | _ => cases isBatch
  · intro issue member
    rw [← written.issues, List.mem_flatten] at member
    obtain ⟨batch, inLog, inBatch⟩ := member
    obtain ⟨⟨t, reply⟩, isCommit, isBatch⟩ := List.mem_filterMap.mp inLog
    have taken := accepted _ isCommit
    cases t with
    | writeErrorBatch id issues =>
        simp only [Option.ite_none_right_eq_some, Option.some.injEq] at isBatch
        exact taken issue (isBatch.2 ▸ inBatch)
    | _ => cases isBatch

/-- The end of a validation that meets no fault of the service. -/
def QuietEnd (deployment : Deployment) (source : ReportSource) :
    Post workerInterface Ledger WorkerCycleOutcome := fun result log s =>
  (∃ outcome, result = .ok outcome ∧ Validated deployment .quiet source (.ok outcome) log s) ∨
    deployment.fate source = .processingFailed ∧
      ∃ report, s.db.reports.find source.id = some report ∧ reportSource report = source ∧
        WorkerCycleOutcome.processingFailed.Names report

theorem blames_quiet_fate {e : PyException} (blames : Blames deployment .quiet source e) :
    deployment.fate source = .processingFailed ∧ e ≠ .lockConnectionLost := by
  cases blames with
  | raised c _ raised => exact raised.elim
  | failed t _ failed => exact failed.elim
  | refused unstorable same => exact ⟨fate_failed (Or.inl unstorable), by simp [same]⟩
  | stream raised =>
      refine ⟨fate_failed (Or.inr ⟨e, raised⟩), ?_⟩
      rw [validateBytes_raises raised]
      simp

theorem wp_processValidation_quiet (delivery : Delivery deployment)
    {log : List (Commit workerInterface)} {s : Ledger} (stored : Stored source s [] [])
    (written : Written deployment source.id log [] []) :
    wp (lockedSpec deployment .quiet) (processValidation deployment delivery source)
      (QuietEnd deployment source) log s := by
  have stable : StablePost (lockedSpec deployment .quiet) (QuietEnd deployment source) := by
    rintro result log s s' keeps (⟨outcome, rfl, validated⟩ | ⟨fate, report, found, rest⟩)
    · exact Or.inl ⟨outcome, rfl, validated_stable _ _ _ _ _ _ _ keeps validated⟩
    · exact Or.inr ⟨fate, report, Keeps.found keeps found, rest⟩
  refine wp_processValidation_rule stable delivery stored written ?_ ?_ ?_ ?_
  · intro outcome log s validated
    exact Or.inl ⟨outcome, rfl, validated⟩
  · intro e log s report blames found same names
    exact Or.inr ⟨(blames_quiet_fate blames).1, report, found, same, names⟩
  · rintro (lost | blames) log s
    · exact lost.elim
    · exact absurd rfl (blames_quiet_fate blames).2
  · intro e log s failed
    exact failed.elim

/-- The validation of a claimed report. -/
theorem wp_processValidation_faultless (delivery : Delivery deployment) {registration : Registration}
    {before s : Ledger} {log : List (Commit workerInterface)} (mine : source.id = registration.id)
    (stored : Stored source s [] []) (written : Written deployment source.id log [] [])
    (cycle : CycleKeeps deployment registration before log s) :
    wp (faultlessSpec deployment) (processValidation deployment delivery source)
      (fun _ log s => CycleKeeps deployment registration before log s ∧
        Fated deployment source false s) log s := by
  have kept := wp_along (faultlessSpec deployment) (cycleKeeps_stable registration before)
    (fun _ _ _ _ _ cycle works pre executed => cycle.exec works mine pre executed) _ log s cycle
    (ensures_processValidation delivery)
    (wp_faultless (wp_processValidation_quiet delivery stored written))
  refine wp_mono _ _ ?_ _ _ (wp_ends _ _ (ensures_stream delivery) kept)
  rintro result log s ⟨ends, _, cycle, ⟨outcome, rfl, written, decided⟩ | ⟨fate, named⟩⟩
  · refine ⟨cycle, ?_⟩
    rcases decided with ⟨rfl, ready⟩ | ⟨rfl, refused⟩
    · exact Or.inl ⟨rfl, ready.fate cycle.staged, ready⟩
    · rcases ends _ rfl with impossible | ⟨summary, returned⟩
      · cases impossible
      · obtain ⟨report, found, same, status, kind, _⟩ := refused.report
        have fate := fate_refused returned (written.storable cycle.accepted) refused.wrong
        exact Or.inr ⟨report, found, same, by rw [fate]; exact ⟨status, kind⟩⟩
  · rw [← fate] at named
    exact ⟨cycle, Or.inr named⟩

/-- The apply of a claimed report. -/
theorem wp_processApply_kept {registration : Registration} {before s : Ledger}
    {log : List (Commit workerInterface)} (mine : source.id = registration.id)
    (ready : Ready deployment source s) (cycle : CycleKeeps deployment registration before log s) :
    wp (faultlessSpec deployment) (processApply source.id)
      (fun _ log s => CycleKeeps deployment registration before log s ∧
        Fated deployment source true s) log s := by
  refine wp_mono _ _ ?_ _ _
    (wp_along (faultlessSpec deployment) (cycleKeeps_stable registration before)
      (fun _ _ _ _ _ cycle works pre executed => cycle.exec works mine pre executed) _ log s cycle
      ensures_processApply (wp_processApply_faultless ready cycle.staged))
  rintro result log s ⟨_, cycle, fated⟩
  exact ⟨cycle, fated⟩

end Cycle

/-! ## The queue in order -/

/-- The open reports by `created_at` and id. -/
def queueOf (db : Database) : List Report := (openReports db).mergeSort Report.precedes

theorem queueOf_perm (db : Database) : (queueOf db).Perm (openReports db) :=
  List.mergeSort_perm _ _

theorem mem_queueOf {db : Database} {report : Report} :
    report ∈ queueOf db ↔ report ∈ db.reports.rows ∧ report.isOpen = true := by
  rw [(queueOf_perm db).mem_iff, openReports, List.mem_filter]

theorem queueOf_ids (db : Database) : ((queueOf db).map Report.id).Nodup := by
  rw [((queueOf_perm db).map Report.id).nodup_iff]
  exact db.reports.unique.sublist (List.filter_sublist.map Report.id)

theorem queueOf_sorted (db : Database) : (queueOf db).Pairwise Report.Before := by
  have sorted : (queueOf db).Pairwise fun report other => report.precedes other = true := by
    refine List.pairwise_mergeSort ?_ ?_ _
    · intro first second third
      simp only [Report.precedes, Bool.or_eq_true, Bool.and_eq_true, decide_eq_true_eq]
      omega
    · intro first second
      simp only [Report.precedes, Bool.or_eq_true, Bool.and_eq_true, decide_eq_true_eq]
      omega
  have distinct : (queueOf db).Pairwise fun report other => report.id ≠ other.id :=
    List.pairwise_map.mp (queueOf_ids db)
  refine (sorted.and distinct).imp ?_
  rintro report other ⟨precedes, different⟩
  simp only [Report.precedes, Bool.or_eq_true, Bool.and_eq_true, decide_eq_true_eq] at precedes
  unfold Report.Before
  omega

/-- The reports that are behind have their fate, those ahead wait. -/
structure Imported (deployment : Deployment) (start s : Ledger) (done todo : List Report) :
    Prop where
  sound : LedgerSound deployment s
  staged : StagedStorable s.db
  finished : ∀ report ∈ done, ∃ report', s.db.reports.find report.id = some report' ∧
    Report.registration report' = Report.registration report ∧
      (deployment.fate (reportSource report)).Names report'
  waiting : ∀ report ∈ todo, ∃ report', s.db.reports.find report.id = some report' ∧
    Report.registration report' = Report.registration report ∧ report'.isOpen = true
  covers : ∀ report' ∈ s.db.reports.rows, report'.isOpen = true →
    ∃ report ∈ todo, report.id = report'.id
  completions : s.completions = start.completions ++
    (done.map reportSource).filter fun source => deployment.fate source = .completed

/-- How far the workers have got with the queue. -/
def ImportedTo (deployment : Deployment) (start : Ledger) (_cycles : Nat) (s : Ledger) : Prop :=
  ∃ done todo, done ++ todo = queueOf start.db ∧ Imported deployment start s done todo

section Queue

variable {deployment : Deployment} {start s s' : Ledger} {done todo : List Report}

theorem reportSource_registration {report report' : Report}
    (same : Report.registration report' = Report.registration report) :
    reportSource report' = reportSource report :=
  congrArg (fun registration : Registration =>
    (⟨registration.id, registration.objectBucket, registration.objectKey⟩ : ReportSource)) same

theorem importedTo_stable (deployment : Deployment) (start : Ledger) (cycles : Nat) :
    Stable (faultlessSpec deployment) (ImportedTo deployment start cycles) := by
  rintro s s' ⟨keeps, same⟩ ⟨done, todo, queue, imported⟩
  have reports : ∀ id, s'.db.reports.find id = s.db.reports.find id :=
    fun id => congrArg ReportData.report (same id)
  refine ⟨done, todo, queue, keeps.sound imported.sound, imported.staged.congr same, ?_, ?_, ?_, ?_⟩
  · intro report member
    obtain ⟨report', found, rest⟩ := imported.finished report member
    exact ⟨report', (reports report.id).trans found, rest⟩
  · intro report member
    obtain ⟨report', found, rest⟩ := imported.waiting report member
    exact ⟨report', (reports report.id).trans found, rest⟩
  · intro report' member isOpen
    exact imported.covers report' (member_congr same member) isOpen
  · exact keeps.completions.trans imported.completions

/-- A claim finds the first report that is ahead. -/
theorem Imported.claims {db : Database} {report : Report} {ready : Bool}
    (sorted : todo.Pairwise Report.Before) (imported : Imported deployment start s done todo)
    (first : ClaimsFirst s.db db report ready) :
    ∃ head rest, todo = head :: rest ∧ Report.registration report = Report.registration head := by
  have isRow : report ∈ s.db.reports.rows := ((Table.find_eq_some _).mp first.found).1
  obtain ⟨claimed, member, id⟩ := imported.covers report isRow first.isOpen
  cases todo with
  | nil => cases member
  | cons head rest =>
      refine ⟨head, rest, rfl, ?_⟩
      obtain ⟨row, found, registered, _⟩ := imported.waiting claimed member
      have same : row = report := by
        rw [id, first.found] at found
        exact (Option.some.inj found).symm
      rw [same] at registered
      rcases List.mem_cons.mp member with rfl | inRest
      · exact registered
      · -- the head is open too and stands before it
        obtain ⟨row', found', registered', isOpen⟩ := imported.waiting head List.mem_cons_self
        have before := (List.pairwise_cons.mp sorted).1 claimed inRest
        have createdAt := congrArg Registration.createdAt registered
        have createdAt' := congrArg Registration.createdAt registered'
        have rowId := congrArg Registration.id registered
        have rowId' := congrArg Registration.id registered'
        refine absurd ?_ (first.first row' ((Table.find_eq_some _).mp found').1 isOpen)
        simp only [Report.registration] at createdAt createdAt' rowId rowId'
        unfold Report.Before at before ⊢
        omega

theorem fate_completed {source : ReportSource} {report : Report}
    (names : (deployment.fate source).Names report) :
    report.status = .completed ↔ deployment.fate source = .completed := by
  cases fate : deployment.fate source with
  | completed =>
      rw [fate] at names
      exact ⟨fun _ => rfl, fun _ => names⟩
  | validationFailed | processingFailed =>
      rw [fate] at names
      refine ⟨fun completed => ?_, fun same => by cases same⟩
      cases names.1.symm.trans completed
  | validated =>
      rw [fate] at names
      refine ⟨fun completed => ?_, fun same => by cases same⟩
      cases names.1.symm.trans completed
  | lockNotAcquired | noReport | waitingForApply =>
      rw [fate] at names
      exact names.elim

/-- A cycle completes no report but its own, and that one once. -/
theorem CycleKeeps.completions_own {registration : Registration} {log : List (Commit workerInterface)}
    {before s : Ledger} {old now : Report} (cycle : CycleKeeps deployment registration before log s)
    (sound : LedgerSound deployment before)
    (wasOpen : before.db.reports.find registration.id = some old ∧ old.isOpen = true)
    (isNow : s.db.reports.find registration.id = some now) :
    s.completions = before.completions ++
      if now.status = .completed then [reportSource now] else [] := by
  obtain ⟨more, completions, about⟩ := cycle.completions
  have nowId : now.id = registration.id := ((Table.find_eq_some _).mp isNow).2
  have complete : ∀ added ∈ more, now.status = .completed ∧ added = reportSource now := by
    intro added member
    obtain ⟨report, found, same, status⟩ := cycle.sound.completed added
      (completions ▸ List.mem_append_right _ member)
    rw [about added member, isNow] at found
    cases found
    exact ⟨status, same.symm⟩
  rw [completions]
  congr 1
  split
  · next completed =>
      have listed := cycle.sound.listed registration.id now isNow completed
      rw [completions] at listed
      have added : reportSource now ∈ more := by
        refine (List.mem_append.mp listed).resolve_left fun earlier => ?_
        obtain ⟨report, found, _, status⟩ := sound.completed _ earlier
        have same : (reportSource now).id = registration.id := nowId
        rw [same, wasOpen.1] at found
        cases found
        have closed := Report.isOpen_eq_false.mpr (Or.inl status)
        cases wasOpen.2.symm.trans closed
      -- every entry is the report, and none stands twice
      have once := cycle.sound.once
      rw [completions, List.map_append] at once
      have distinct : more.Nodup := (List.nodup_append.mp once).2.1.of_map _
      cases more with
      | nil => cases added
      | cons first rest =>
          have isFirst := (complete first List.mem_cons_self).2
          have none : rest = [] := by
            rw [List.eq_nil_iff_forall_not_mem]
            intro other member
            have same := (complete other (List.mem_cons_of_mem _ member)).2
            rw [List.nodup_cons, isFirst, ← same] at distinct
            exact distinct.1 member
          rw [none, isFirst]
  · next running =>
      rw [List.eq_nil_iff_forall_not_mem]
      exact fun added member => running (complete added member).1

/-- A cycle takes the first report that is ahead to its fate, or to its apply. -/
theorem Imported.cycle {head : Report} {rest : List Report} {ready : Bool}
    {log : List (Commit workerInterface)}
    (distinct : ((done ++ head :: rest).map Report.id).Nodup)
    (imported : Imported deployment start s done (head :: rest))
    (cycle : CycleKeeps deployment (Report.registration head) s log s')
    (fated : Fated deployment (reportSource head) ready s') :
    ∃ done' todo', done' ++ todo' = done ++ head :: rest ∧
      Imported deployment start s' done' todo' := by
  obtain ⟨old, wasFound, _, wasOpen⟩ := imported.waiting head List.mem_cons_self
  obtain ⟨now, isNow, registered⟩ := cycle.own
  have isNow : s'.db.reports.find head.id = some now := isNow
  have added := cycle.completions_own imported.sound ⟨wasFound, wasOpen⟩ isNow
  simp only [List.map_append, List.map_cons, List.nodup_append, List.nodup_cons, List.mem_map,
    List.mem_cons] at distinct
  have others : ∀ report : Report, report.id ≠ head.id →
      s'.db.reports.find report.id = s.db.reports.find report.id :=
    fun report different => congrArg ReportData.report (cycle.others report.id different)
  have finished : ∀ report ∈ done, ∃ report', s'.db.reports.find report.id = some report' ∧
      Report.registration report' = Report.registration report ∧
        (deployment.fate (reportSource report)).Names report' := by
    intro report member
    obtain ⟨report', found, known⟩ := imported.finished report member
    refine ⟨report', ?_, known⟩
    rw [others report (distinct.2.2 report.id ⟨report, member, rfl⟩ head.id (Or.inl rfl)), found]
  have waiting : ∀ report ∈ rest, ∃ report', s'.db.reports.find report.id = some report' ∧
      Report.registration report' = Report.registration report ∧ report'.isOpen = true := by
    intro report member
    obtain ⟨report', found, known⟩ := imported.waiting report (List.mem_cons_of_mem _ member)
    refine ⟨report', ?_, known⟩
    rw [others report fun same => distinct.2.1.1 ⟨report, member, same⟩, found]
  have covers : ∀ report' ∈ s'.db.reports.rows, report'.isOpen = true →
      ∃ report ∈ head :: rest, report.id = report'.id := by
    intro report' member isOpen
    by_cases mine : report'.id = head.id
    · exact ⟨head, List.mem_cons_self, mine.symm⟩
    · have found : s'.db.reports.find report'.id = some report' :=
        (Table.find_eq_some _).mpr ⟨member, rfl⟩
      rw [others report' mine] at found
      exact imported.covers report' ((Table.find_eq_some _).mp found).1 isOpen
  rcases fated with ⟨_, _, readyNow⟩ | ⟨report, found, same, names⟩
  · -- validated: the report waits for its apply
    obtain ⟨report, found, _, status, _⟩ := readyNow
    have found : s'.db.reports.find head.id = some report := found
    cases isNow.symm.trans found
    refine ⟨done, head :: rest, rfl, cycle.sound, cycle.staged, finished, ?_, covers, ?_⟩
    · intro report member
      rcases List.mem_cons.mp member with rfl | later
      · exact ⟨now, isNow, registered, by simp [Report.isOpen, status]⟩
      · exact waiting report later
    · rw [added, if_neg (by simp [status]), List.append_nil, imported.completions]
  · have found : s'.db.reports.find head.id = some report := found
    cases isNow.symm.trans found
    refine ⟨done ++ [head], rest, by simp, cycle.sound, cycle.staged, ?_, waiting, ?_, ?_⟩
    · intro report member
      rcases List.mem_append.mp member with old | new
      · exact finished report old
      · rw [List.mem_singleton.mp new]
        exact ⟨now, isNow, registered, names⟩
    · intro report' member isOpen
      obtain ⟨report, isAhead, id⟩ := covers report' member isOpen
      rcases List.mem_cons.mp isAhead with rfl | inRest
      · -- the report of the cycle has come to its end
        have found' : s'.db.reports.find report.id = some report' :=
          (Table.find_eq_some _).mpr ⟨member, id.symm⟩
        cases isNow.symm.trans found'
        have closed := Report.isOpen_eq_false.mpr (fate_terminal names)
        cases isOpen.symm.trans closed
      · exact ⟨report, inRest, id⟩
    · rw [added, imported.completions, List.map_append, List.filter_append, List.append_assoc]
      congr 2
      rw [List.map_singleton, List.filter_singleton, same]
      by_cases whole : deployment.fate (reportSource head) = .completed
      · rw [if_pos ((fate_completed names).mpr whole)]
        simp [whole]
      · rw [if_neg fun completed => whole ((fate_completed names).mp completed)]
        simp [whole]

theorem claim_cycleKeeps {source : ReportSource} {ready : Bool} {report : Report}
    (sound : LedgerSound deployment s) (staged : StagedStorable s.db)
    (found : s.db.reports.find report.id = some report) (mine : source.id = report.id)
    (executed : Transaction.exec .claim s = .ok (some (source, ready), s')) :
    CycleKeeps deployment (Report.registration report) s [⟨.claim, some (source, ready)⟩] s' := by
  have touched := claim_touches executed
  rw [mine] at touched
  obtain ⟨report', found', moves⟩ := (exec_rowEffect executed).rowMoves found
  obtain ⟨claimed, same⟩ := exec_claim executed
  have completions : s'.completions = s.completions := by rw [same]
  refine ⟨?_, exec_stagedStorable staged executed, touched.others, ⟨[], ?_, by simp⟩,
    ⟨report', found', moves.registration⟩, by simp [Accepted]⟩
  · have after := claim_sound sound
    rw [claimed] at after
    rw [same]
    exact after
  · rw [completions, List.append_nil]

theorem wp_process_faultless (delivery : Delivery deployment) {cycles : Nat}
    (progress : ImportedTo deployment start cycles s) :
    wp (faultlessSpec deployment) (process deployment delivery)
      (fun _ _ s => ImportedTo deployment start (cycles + 1) s) [] s := by
  have keeps := importedTo_stable deployment start cycles
  have stable : StablePost (faultlessSpec deployment)
      (fun (_ : Except PyException WorkerCycleOutcome) _ s =>
        ImportedTo deployment start (cycles + 1) s) :=
    fun _ _ => importedTo_stable deployment start (cycles + 1)
  unfold process
  refine wp_then_commit _ _ _ stable keeps progress (fun _ _ => trivial) ?_
    (fun _ _ _ refused => by cases refused) (fun _ _ _ failed => failed.elim)
  intro s reply s' progress executed
  have executed : Transaction.exec .claim s = .ok (reply, s') := executed
  refine ⟨?_, fun e unknown => unknown.elim⟩
  obtain ⟨claimed, same⟩ := exec_claim executed
  match reply with
  | none =>
      rw [claim_idle executed]
      exact wp_pure _ stable progress
  | some (source, ready) =>
      obtain ⟨report, rfl, first⟩ := claim_first claimed
      obtain ⟨done, todo, queue, imported⟩ := progress
      have sorted : todo.Pairwise Report.Before :=
        (List.pairwise_append.mp (queue ▸ queueOf_sorted start.db)).2.1
      obtain ⟨head, rest, rfl, registered⟩ := imported.claims sorted first
      have distinct : ((done ++ head :: rest).map Report.id).Nodup := queue ▸ queueOf_ids start.db
      have fromHead := reportSource_registration registered
      have kept : CycleKeeps deployment (Report.registration head) s
          [⟨.claim, some (reportSource report, ready)⟩] s' :=
        registered ▸ claim_cycleKeeps imported.sound imported.staged first.found rfl executed
      have ends : ∀ log s'', CycleKeeps deployment (Report.registration head) s log s'' →
          Fated deployment (reportSource report) ready s'' →
            ImportedTo deployment start (cycles + 1) s'' := by
        intro log s'' cycle fated
        obtain ⟨done', todo', again, imported'⟩ :=
          imported.cycle distinct cycle (fromHead ▸ fated)
        exact ⟨done', todo', again.trans queue, imported'⟩
      have mine : (reportSource report).id = (Report.registration head).id :=
        congrArg Registration.id registered
      cases ready with
      | true =>
          have status := first.complete.mp rfl
          have whole := ready_of_complete imported.sound first.found status.1 status.2
          have unchanged : s' = s := by rw [same, first.kept rfl]
          refine wp_mono _ _ ?_ _ _ (wp_processApply_kept mine (unchanged ▸ whole) kept)
          rintro result log s'' ⟨cycle, fated⟩
          exact ends log s'' cycle fated
      | false =>
          have stored : Stored (reportSource report) s' [] [] :=
            same ▸ stored_of_claim (first.cleared rfl)
          refine wp_mono _ _ ?_ _ _ (wp_processValidation_faultless delivery mine stored
            ⟨rfl, by simp [stagingBatches], rfl, by simp [errorBatches]⟩ kept)
          rintro result log s'' ⟨cycle, fated⟩
          exact ends log s'' cycle fated

theorem import_advances (deployment : Deployment) (start : Ledger) :
    Advances (service deployment) (faultlessSpec deployment) Environment.Quiet
      (ImportedTo deployment start)
      (fun cycles _ _ s => ImportedTo deployment start cycles s) where
  exec := rfl
  environment := (drain_advances deployment []).environment
  stable := importedTo_stable deployment start
  starts _ delivery _ progress := wp_process_faultless delivery progress
  ends _ _ _ _ imported := imported

theorem Imported.initial (sound : LedgerSound deployment start) (staged : StagedStorable start.db) :
    Imported deployment start start [] (queueOf start.db) := by
  refine ⟨sound, staged, by simp, ?_, ?_, by simp⟩
  · intro report member
    obtain ⟨isRow, isOpen⟩ := mem_queueOf.mp member
    exact ⟨report, (Table.find_eq_some _).mpr ⟨isRow, rfl⟩, rfl, isOpen⟩
  · intro report isRow isOpen
    exact ⟨report, mem_queueOf.mpr ⟨isRow, isOpen⟩, rfl⟩

end Queue

/-! ## The importer -/

/-- Workers that meet no fault, one cycle after the other. -/
def Faultless (deployment : Deployment) : ServiceWorld → ServiceAction deployment → Prop :=
  Undisturbed (faultlessSpec deployment) Environment.Quiet

/-- The reports of a queue whose files are applied, in order. -/
def Deployment.applied (deployment : Deployment) (queue : List Report) : List ReportSource :=
  (queue.map reportSource).filter fun source => deployment.fate source = .completed

/-- The files laid over the stocks, one after the other. -/
def Deployment.importFiles (deployment : Deployment)
    (view : View PyText.Text PyText.Text PyText.Text Quantity)
    (sources : List ReportSource) : View PyText.Text PyText.Text PyText.Text Quantity :=
  sources.foldl (fun view source => snapshotLayout.apply (deployment.fileRows source) view) view

/-- The queue up to some report is imported, and the rest waits. -/
structure ImportsQueue (deployment : Deployment) (start s : Ledger) (done todo : List Report) :
    Prop where
  finished : ∀ report ∈ done, ∃ report', s.db.reports.find report.id = some report' ∧
    Report.registration report' = Report.registration report ∧
      (deployment.fate (reportSource report)).Names report'
  waiting : ∀ report ∈ todo, ∃ report', s.db.reports.find report.id = some report' ∧
    Report.registration report' = Report.registration report ∧ report'.isOpen = true
  completions : s.completions = start.completions ++ deployment.applied done
  inventory : s.db.inventory.view =
    deployment.importFiles start.db.inventory.view (deployment.applied done)

theorem Imported.importsQueue {deployment : Deployment} {start s : Ledger} {done todo : List Report}
    (sound : LedgerSound deployment start) (imported : Imported deployment start s done todo) :
    ImportsQueue deployment start s done todo := by
  refine ⟨imported.finished, imported.waiting, imported.completions, ?_⟩
  rw [imported.sound.inventory, imported.completions, sound.inventory, Deployment.importFiles,
    Layout.applyAll, Layout.applyAll, List.map_append, List.foldl_append, List.foldl_map,
    List.foldl_map]
  rfl

theorem faultless_draining {deployment : Deployment} {world : ServiceWorld}
    {action : ServiceAction deployment} (faultless : Faultless deployment world action) :
    Draining deployment world action := by
  cases action with
  | environment _ | acquire _ _ | drop _ | leave _ => exact faultless
  | run w fault =>
      have permits : Permits (faultlessSpec deployment) world
        (.run w fault : ServiceAction deployment) := faultless
      change Permits (drainSpec deployment) world (.run w fault : ServiceAction deployment)
      cases fault with
      | none => trivial
      | fails e | unknown e =>
          intro thread running
          have permitted := permits thread running
          cases program : thread.program with
          | done _ | checkLock _ => trivial
          | call _ _ | transact _ _ =>
              simp only [program] at permitted
              exact permitted.elim

/-- Two cycles for each open report import the whole queue in its order: from any
database that a run behind the lock has left, every report has the fate of its file,
the files that are whole are applied one after the other, and nothing else is.  In
between, a part of the queue from its front is imported in the same way.  The codes are
assumed to fit into their indexes (`storableText`). -/
theorem faultless_import (deployment : Deployment) (left world : ServiceWorld)
    (before : LockedRun deployment left)
    (run : Reachable (service deployment) (Faultless deployment)
      (ServiceWorld.atRest left.shared) world)
    (finished : ∀ w thread, world.threads w = some thread →
      ∃ result, thread.program = .done result) :
    (∃ done todo, done ++ todo = queueOf left.shared.db ∧
      ImportsQueue deployment left.shared world.shared done todo) ∧
    (2 * (queueOf left.shared.db).length ≤ world.attempts →
      ImportsQueue deployment left.shared world.shared (queueOf left.shared.db) []) := by
  have idle : (ServiceWorld.atRest left.shared).Idle := ⟨fun _ => rfl, rfl, rfl⟩
  have staged : StagedStorable left.shared.db := by
    refine reachable_stagedStorable ?_ before
    intro id row member
    cases member
  obtain ⟨done, todo, queue, imported⟩ := (undisturbed_advanced
    (import_advances deployment left.shared) idle
    ⟨[], _, rfl, Imported.initial before.sound staged⟩ run).ended
      (import_advances deployment left.shared) finished
  have imports := imported.importsQueue before.sound
  refine ⟨⟨done, todo, queue, imports⟩, fun enough => ?_⟩
  have drained := (undisturbed_advanced
    (drain_advances deployment ((openReports left.shared.db).map Report.id)) idle
    (Progress.start left.shared) (run.weaken fun _ _ _ faultless => faultless_draining faultless)).ended
      (drain_advances deployment _) finished
  have terminal := drained.drained (by
    rw [List.length_map, ← (queueOf_perm left.shared.db).length_eq]
    exact enough)
  have none : todo = [] := by
    rw [List.eq_nil_iff_forall_not_mem]
    intro report member
    obtain ⟨report', found, _, isOpen⟩ := imported.waiting report member
    have closed := Report.isOpen_eq_false.mpr (terminal report' ((Table.find_eq_some _).mp found).1)
    cases isOpen.symm.trans closed
  rw [none, List.append_nil] at queue
  exact queue ▸ none ▸ imports

theorem faultless_import_lateWorld :
    (openReports lateWorld.shared.db).map (fun report => (report.id,
        sampleDeployment.fate (reportSource report))) = [(1, .completed), (2, .completed)] ∧
      ∃ world, Reachable (service sampleDeployment) (Faultless sampleDeployment)
          (ServiceWorld.atRest lateWorld.shared) world ∧
        ImportsQueue sampleDeployment lateWorld.shared world.shared
          (queueOf lateWorld.shared.db) [] := by
  have fates : (openReports lateWorld.shared.db).map (fun report => (report.id,
      sampleDeployment.fate (reportSource report))) = [(1, .completed), (2, .completed)] := by
    decide +kernel
  have count : (queueOf lateWorld.shared.db).length = 2 := by
    rw [(queueOf_perm _).length_eq]
    have lengths := congrArg List.length fates
    rwa [List.length_map] at lengths
  obtain ⟨world, run, attempts, resting, _⟩ :
      ∃ later, Reachable (service sampleDeployment) (Faultless sampleDeployment)
          (ServiceWorld.atRest lateWorld.shared) later ∧ later.attempts = 0 + 4 ∧
        (∀ w, later.threads w = none) ∧ later.owner = none :=
    undisturbed_attempts _ _ 0 sampleDelivery (fun _ => rfl) rfl 4
  refine ⟨fates, world, run,
    (faultless_import sampleDeployment lateWorld world lateWorld_locked run ?_).2 ?_⟩
  · intro w thread running
    cases (resting w).symm.trans running
  · rw [count, attempts]

end StockImport.Worker
